import ImageBuild.ContextEngine.Plan
import ImageBuild.Request
import Mathlib.Data.List.Infix

/-!
# What the identifier of an image tells apart

The octets that identify an image are the name of a context and a sequence of
items, each a label and a text. A text is whole if no label occurs in it, and
items with whole texts are read back from their octets (`octets_inj`). So builds
whose texts are whole, and whose arguments have no equals sign in their names,
share an identifier only if they have the same context, tags, target and
arguments, or if two digests collide (`shared_id_iff`). A request may carry other
texts as well, and an argument with a value then has the octets of another one
without a value (`shared_id_argument`).
-/

namespace ImageBuild

namespace Digest

/-! ## Names of contents -/

theorem hexChar_inj :
    ∀ d < 16, ∀ e < 16, Text.Decimal.hexChar d = Text.Decimal.hexChar e → d = e := by
  decide

theorem utf8Size_hexChar : ∀ d < 16, (Text.Decimal.hexChar d).utf8Size = 1 := by
  decide

theorem hex_cons (b : UInt8) (bs : List UInt8) :
    hex (b :: bs) =
      Text.Decimal.hexChar (b.toNat / 16) :: Text.Decimal.hexChar (b.toNat % 16) :: hex bs := rfl

theorem hex_inj {bs cs : List UInt8} (h : hex bs = hex cs) : bs = cs := by
  induction bs generalizing cs with
  | nil =>
    cases cs with
    | nil => rfl
    | cons c cs => simp [hex] at h
  | cons b bs ih =>
    cases cs with
    | nil => simp [hex] at h
    | cons c cs =>
      simp only [hex_cons, List.cons.injEq] at h
      obtain ⟨high, low, rest⟩ := h
      have hb := b.toNat_lt
      have hc := c.toNat_lt
      have high := hexChar_inj _ (by omega) _ (by omega) high
      have low := hexChar_inj _ (by omega) _ (by omega) low
      have head : b = c := UInt8.toNat_inj.1 (by omega)
      rw [head, ih rest]

theorem hash_of_name {a b : ByteArray} (h : name a = name b) : Sha256.hash a = Sha256.hash b := by
  have := congrArg String.toList h
  simp only [name, String.toList_append, String.toList_ofList, List.append_cancel_left_eq] at this
  exact hex_inj this

theorem length_encode_name (content : ByteArray) : (Text.encode (name content)).length = 71 := by
  have size (bs : List UInt8) : (String.ofList (hex bs)).utf8ByteSize = 2 * bs.length := by
    induction bs with
    | nil => rfl
    | cons b bs ih =>
      have hb := b.toNat_lt
      have high := utf8Size_hexChar (b.toNat / 16) (by omega)
      have low := utf8Size_hexChar (b.toNat % 16) (by omega)
      simp only [hex_cons, String.ofList_cons, String.utf8ByteSize_append,
        String.utf8ByteSize_singleton, ih, high, low, List.length_cons]
      omega
  have mark : mark.utf8ByteSize = 7 := rfl
  rw [Text.length_encode, name, String.utf8ByteSize_append, size, Sha256.length_hash, mark]

end Digest

namespace ImageId

/-! ## Items -/

inductive Kind where
  | tag
  | target
  | argument
  deriving DecidableEq

def Kind.label : Kind → Octets
  | .tag => 0 :: Text.encode "tag="
  | .target => 0 :: Text.encode "target="
  | .argument => 0 :: Text.encode "arg="

def octets (items : List (Kind × Octets)) : Octets := items.flatMap fun i => i.1.label ++ i.2

/-- A text in which no label occurs. -/
def IsWhole (text : Octets) : Prop := ∀ k : Kind, ¬ k.label <:+: text

def valueText : Option String → Octets
  | none => []
  | some v => 0x3D :: Text.encode v

instance : DecidablePred IsWhole := fun text =>
  decidable_of_iff
    (¬ Kind.tag.label <:+: text ∧ ¬ Kind.target.label <:+: text ∧ ¬ Kind.argument.label <:+: text)
    ⟨fun h k => match k with
      | .tag => h.1
      | .target => h.2.1
      | .argument => h.2.2, fun h => ⟨h .tag, h .target, h .argument⟩⟩

def argumentText (name : String) (value : Option String) : Octets :=
  Text.encode name ++ valueText value

def items (tags : List String) (target : Option String) (arguments : Dict (Option String)) :
    List (Kind × Octets) :=
  tags.map (fun t => (.tag, Text.encode t)) ++
    target.toList.map (fun t => (.target, Text.encode t)) ++
    arguments.entries.map fun e => (.argument, argumentText e.1 e.2)

/-- **An encoding** is the name of a context and the octets of items. -/
theorem encode_eq (context : String) (tags : List String) (target : Option String)
    (arguments : Dict (Option String)) :
    encode context tags target arguments =
      Text.encode context ++ octets (items tags target arguments) := by
  have sign : Text.encode "=" = [0x3D] := by decide
  have argument_eq : (fun e : String × Option String => argument e.1 e.2) =
      fun e => Kind.argument.label ++ argumentText e.1 e.2 := by
    funext e
    cases h : e.2 <;> simp [argument, item, argumentText, valueText, Kind.label, sign]
  simp only [encode, argument_eq, octets, items, List.flatMap_append, List.flatMap_map,
    List.append_assoc]
  cases target with
  | none => rfl
  | some t =>
    simp only [Option.toList_some, List.flatMap_cons, List.flatMap_nil, List.append_nil]
    rfl

/-! ## Items are read back -/

/-- A label is known by its octets, whatever follows it. -/
theorem label_inj {k k' : Kind} {s s' : Octets} (h : k.label ++ s = k'.label ++ s') :
    k = k' ∧ s = s' := by
  have tag : Kind.tag.label = [0, 0x74, 0x61, 0x67, 0x3D] := by decide
  have target : Kind.target.label = [0, 0x74, 0x61, 0x72, 0x67, 0x65, 0x74, 0x3D] := by
    decide
  have argument : Kind.argument.label = [0, 0x61, 0x72, 0x67, 0x3D] := by decide
  cases k <;> cases k' <;> simp_all

theorem label_eq (k : Kind) : ∃ rest, k.label = 0 :: rest ∧ 0 ∉ rest := by
  cases k with
  | tag => exact ⟨_, rfl, by decide⟩
  | target => exact ⟨_, rfl, by decide⟩
  | argument => exact ⟨_, rfl, by decide⟩

theorem octets_cons (i : Kind × Octets) (is : List (Kind × Octets)) :
    octets (i :: is) = i.1.label ++ (i.2 ++ octets is) := by
  simp [octets]

/-- Octets that go on before the next item hold a label, or they are none. -/
theorem eq_nil_of_append_octets {u : Octets} {is js : List (Kind × Octets)} (hu : IsWhole u)
    (h : octets is = u ++ octets js) : u = [] := by
  by_contra hne
  cases is with
  | nil =>
    have := List.append_eq_nil_iff.1 h.symm
    exact hne this.1
  | cons i is =>
    rw [octets_cons] at h
    -- either the first label lies in `u`, or it goes on into the next item, whose label
    -- would put a second zero octet into it
    rcases List.append_eq_append_iff.1 h with ⟨v, hv, -⟩ | ⟨v, hv, hrest⟩
    · exact hu i.1 ⟨[], v, by simpa using hv.symm⟩
    · obtain ⟨rest, hlabel, hzero⟩ := label_eq i.1
      cases u with
      | nil => exact hne rfl
      | cons b u =>
        rw [hlabel, List.cons_append, List.cons.injEq] at hv
        cases v with
        | nil => exact hu i.1 ⟨[], [], by rw [hlabel, hv.1, hv.2]; simp⟩
        | cons c v =>
          cases js with
          | nil => simp [octets] at hrest
          | cons j js =>
            obtain ⟨rest', hlabel', -⟩ := label_eq j.1
            rw [octets_cons, hlabel', List.cons_append, List.cons_append, List.cons.injEq] at hrest
            refine hzero ?_
            rw [hv.2, ← hrest.1]
            simp

theorem append_octets_inj {s t : Octets} {is js : List (Kind × Octets)} (hs : IsWhole s)
    (ht : IsWhole t) (h : s ++ octets is = t ++ octets js) : s = t ∧ octets is = octets js := by
  have suffix {a u : Octets} (ha : IsWhole (a ++ u)) : IsWhole u := fun k hk =>
    ha k (hk.trans (List.suffix_append a u).isInfix)
  rcases List.append_eq_append_iff.1 h with ⟨u, rfl, hu⟩ | ⟨u, rfl, hu⟩
  · have := eq_nil_of_append_octets (suffix ht) hu
    subst this
    exact ⟨(List.append_nil s).symm, hu⟩
  · have := eq_nil_of_append_octets (suffix hs) hu
    subst this
    exact ⟨List.append_nil t, hu.symm⟩

/-- **Items are read back** from their octets, if their texts are whole. -/
theorem octets_inj {is js : List (Kind × Octets)} (hi : ∀ i ∈ is, IsWhole i.2)
    (hj : ∀ j ∈ js, IsWhole j.2) (h : octets is = octets js) : is = js := by
  have empty {i : Kind × Octets} {is : List (Kind × Octets)} : octets (i :: is) ≠ [] := by
    obtain ⟨rest, hlabel, -⟩ := label_eq i.1
    simp [octets_cons, hlabel]
  induction is generalizing js with
  | nil =>
    cases js with
    | nil => rfl
    | cons j js => exact absurd h.symm empty
  | cons i is ih =>
    cases js with
    | nil => exact absurd h empty
    | cons j js =>
      rw [octets_cons, octets_cons] at h
      obtain ⟨hkind, h⟩ := label_inj h
      obtain ⟨htext, h⟩ := append_octets_inj (hi i (List.mem_cons_self ..))
        (hj j (List.mem_cons_self ..)) h
      rw [Prod.ext hkind htext, ih (fun i h => hi i (List.mem_cons_of_mem _ h))
        (fun j h => hj j (List.mem_cons_of_mem _ h)) h]

/-! ## Inputs are read back -/

theorem valueText_inj {value value' : Option String} (h : valueText value = valueText value') :
    value = value' := by
  cases value with
  | none =>
    cases value' with
    | none => rfl
    | some v' => cases h
  | some v =>
    cases value' with
    | none => cases h
    | some v' =>
      rw [valueText, valueText, List.cons.injEq] at h
      rw [Text.encode_injective h.2]

/-- The name and the value of an argument are read back from its text, if the name
has no equals sign. -/
theorem argumentText_inj {name name' : String} {value value' : Option String}
    (hn : 0x3D ∉ Text.encode name) (hn' : 0x3D ∉ Text.encode name')
    (h : argumentText name value = argumentText name' value') : name = name' ∧ value = value' := by
  have cut (name : String) (value : Option String) (hn : 0x3D ∉ Text.encode name) :
      (argumentText name value).takeWhile (· ≠ 0x3D) = Text.encode name := by
    have hall : ∀ b ∈ Text.encode name, decide (b ≠ 0x3D) = true := fun b hb => by
      rw [decide_eq_true_eq]
      exact fun h => hn (h ▸ hb)
    rw [argumentText, List.takeWhile_append_of_pos hall]
    cases value <;> simp [valueText]
  have names : Text.encode name = Text.encode name' := by
    rw [← cut name value hn, h, cut name' value' hn']
  rw [argumentText, argumentText, names, List.append_cancel_left_eq] at h
  exact ⟨Text.encode_injective names, valueText_inj h⟩

theorem entries_inj {es es' : List (String × Option String)}
    (h : ∀ e ∈ es, 0x3D ∉ Text.encode e.1) (h' : ∀ e ∈ es', 0x3D ∉ Text.encode e.1)
    (he : es.map (fun e => argumentText e.1 e.2) = es'.map fun e => argumentText e.1 e.2) :
    es = es' := by
  induction es generalizing es' with
  | nil => exact (List.map_eq_nil_iff.1 he.symm).symm
  | cons e es ih =>
    cases es' with
    | nil => cases he
    | cons e' es' =>
      rw [List.map_cons, List.map_cons, List.cons.injEq] at he
      obtain ⟨hname, hvalue⟩ := argumentText_inj (h e (List.mem_cons_self ..))
        (h' e' (List.mem_cons_self ..)) he.1
      rw [Prod.ext hname hvalue, ih (fun e h' => h e (List.mem_cons_of_mem _ h'))
        (fun e h => h' e (List.mem_cons_of_mem _ h)) he.2]

def texts (k : Kind) (is : List (Kind × Octets)) : List Octets :=
  (is.filter (·.1 = k)).map (·.2)

theorem texts_items (tags : List String) (target : Option String)
    (arguments : Dict (Option String)) :
    texts .tag (items tags target arguments) = tags.map Text.encode ∧
    texts .target (items tags target arguments) = target.toList.map Text.encode ∧
    texts .argument (items tags target arguments) =
      arguments.entries.map fun e => argumentText e.1 e.2 := by
  refine ⟨?_, ?_, ?_⟩ <;> simp [texts, items, List.filter_map, Function.comp_def]

/-- Inputs that are read back from their encoding: the texts are whole, and no
argument has an equals sign in its name. -/
structure IsPlain (o : BuildOptions) : Prop where
  whole : ∀ i ∈ items o.tags o.target o.buildArgs, IsWhole i.2
  names : ∀ e ∈ o.buildArgs.entries, 0x3D ∉ Text.encode e.1

/-- Whether two builds have the same tags, target and arguments. -/
def Agree (o o' : BuildOptions) : Prop :=
  o.tags = o'.tags ∧ o.target = o'.target ∧ o.buildArgs = o'.buildArgs

theorem items_inj {o o' : BuildOptions} (h : IsPlain o) (h' : IsPlain o')
    (he : items o.tags o.target o.buildArgs = items o'.tags o'.target o'.buildArgs) :
    Agree o o' := by
  obtain ⟨tags, target, arguments⟩ := texts_items o.tags o.target o.buildArgs
  obtain ⟨tags', target', arguments'⟩ := texts_items o'.tags o'.target o'.buildArgs
  rw [he] at tags target arguments
  have inj : Function.Injective Text.encode := fun _ _ => Text.encode_injective
  refine ⟨inj.list_map (tags.symm.trans tags'), ?_, ?_⟩
  · have := inj.list_map (target.symm.trans target')
    cases ho : o.target <;> cases ho' : o'.target <;> simp_all
  · have entries := entries_inj h.names h'.names (arguments.symm.trans arguments')
    cases ho : o.buildArgs
    cases ho' : o'.buildArgs
    simp_all

/-! ## Shared identifiers -/

theorem id_of_ofSummary {o : BuildOptions} {c : ReceivedContext} {s : Archive.Summary} {p : Plan}
    (h : Plan.ofSummary o c s = .ok p) : p.id = ofContext c.digest o := by
  unfold Plan.ofSummary at h
  split at h
  · cases h
  · dsimp only at h
    split at h
    · cases h
    · split at h
      · cases h
        rfl
      · split at h
        · cases h
          rfl
        · cases h

def ofBuild (content : ByteArray) (o : BuildOptions) : Octets :=
  encode (Digest.name content) o.tags o.target o.buildArgs

theorem ofBuild_inj {content content' : ByteArray} {o o' : BuildOptions}
    (h : ofBuild content o = ofBuild content' o') :
    Digest.name content = Digest.name content' ∧
      octets (items o.tags o.target o.buildArgs) =
        octets (items o'.tags o'.target o'.buildArgs) := by
  rw [ofBuild, ofBuild, encode_eq, encode_eq] at h
  obtain ⟨names, rest⟩ := List.append_inj h
    ((Digest.length_encode_name content).trans (Digest.length_encode_name content').symm)
  exact ⟨Text.encode_injective names, rest⟩

/-- **When two builds share an identifier.** The octets that identify an image
tell the context in any case. If the inputs of both builds are plain, they tell
the tags, the target and the arguments as well, so that the identifier of a plan is
shared only by builds that have all these in common, or by a collision of two
digests. -/
theorem shared_id_iff {o o' : BuildOptions} (content content' : ByteArray) (h : IsPlain o)
    (h' : IsPlain o') :
    (∀ any any' : BuildOptions, ofBuild content any = ofBuild content' any' →
      Digest.name content = Digest.name content') ∧
    (ofBuild content o = ofBuild content' o' ↔
      Digest.name content = Digest.name content' ∧ Agree o o') ∧
    ∀ (c c' : ReceivedContext) (s s' : Archive.Summary) (p p' : Plan),
      c.digest = Digest.name content → c'.digest = Digest.name content' →
      Plan.ofSummary o c s = .ok p → Plan.ofSummary o' c' s' = .ok p' →
      (p.id = p'.id ↔ (Digest.name content = Digest.name content' ∧ Agree o o') ∨
        (ofBuild content o ≠ ofBuild content' o' ∧
          Sha256.hash (ofBuild content o).toByteArray =
            Sha256.hash (ofBuild content' o').toByteArray)) := by
  have same : ofBuild content o = ofBuild content' o' ↔
      Digest.name content = Digest.name content' ∧ Agree o o' := by
    constructor
    · intro he
      obtain ⟨names, rest⟩ := ofBuild_inj he
      exact ⟨names, items_inj h h' (octets_inj h.whole h'.whole rest)⟩
    · rintro ⟨names, tags, target, arguments⟩
      rw [ofBuild, ofBuild, names, tags, target, arguments]
  refine ⟨fun any any' he => (ofBuild_inj he).1, same, ?_⟩
  intro c c' s s' p p' hc hc' hp hp'
  have id {o : BuildOptions} {c : ReceivedContext} {s : Archive.Summary} {p : Plan}
      {content : ByteArray} (hc : c.digest = Digest.name content)
      (hp : Plan.ofSummary o c s = .ok p) :
      p.id = Digest.name (ofBuild content o).toByteArray := by
    rw [id_of_ofSummary hp, ofContext, hc, ofBuild]
  rw [id hc hp, id hc' hp', ← same]
  constructor
  · intro he
    by_cases heq : ofBuild content o = ofBuild content' o'
    · exact .inl heq
    · exact .inr ⟨heq, Digest.hash_of_name he⟩
  · rintro (heq | ⟨-, hash⟩)
    · rw [heq]
    · rw [Digest.name, Digest.name, hash]

/-- A tag may hold a zero octet, and a value an equals sign. -/
theorem shared_id_plain :
    let o : BuildOptions := { tags := ["a\x00b", "c"], buildArgs := .ofList [("k", some "v=w")] }
    let o' : BuildOptions := { tags := ["a\x00b"], target := some "c" }
    IsPlain o ∧ IsPlain o' ∧
      (ofBuild .empty o = ofBuild .empty o' ↔
        Digest.name .empty = Digest.name .empty ∧ Agree o o') := by
  intro o o'
  have h : IsPlain o := ⟨by decide, by decide⟩
  have h' : IsPlain o' := ⟨by decide, by decide⟩
  exact ⟨h, h', (shared_id_iff .empty .empty h h').2.1⟩

theorem ofBuild_equals_sign (content : ByteArray) (name v : String) :
    ofBuild content { buildArgs := .ofList [(name, some v)] } =
      ofBuild content { buildArgs := .ofList [(name ++ "=" ++ v, none)] } := by
  have sign : Text.encode "=" = [0x3D] := by decide
  have text : argumentText (name ++ "=" ++ v) none = argumentText name (some v) := by
    simp [argumentText, valueText, sign]
  rw [ofBuild, ofBuild, encode_eq, encode_eq]
  show _ ++ octets [(.argument, argumentText name (some v))] =
    _ ++ octets [(.argument, argumentText (name ++ "=" ++ v) none)]
  rw [text]

/-- **Two requests share an identifier** though their arguments differ: one sets the
argument `a` to `b`, the other passes on an argument named `a=b`. -/
theorem shared_id_argument :
    let query (s : String) : BuildRequest :=
      { uri := ⟨[0x2F], some (Text.encode s)⟩, hasBody := true }
    let o : BuildOptions := { buildArgs := .ofList [("a", some "b")] }
    let o' : BuildOptions := { buildArgs := .ofList [("a=b", none)] }
    Policy.decode {} (query "buildargs=%7B%22a%22:%22b%22%7D") = .ok ⟨.newest, o⟩ ∧
      Policy.decode {} (query "buildargs=%7B%22a=b%22:null%7D") = .ok ⟨.newest, o'⟩ ∧
      o.buildArgs ≠ o'.buildArgs ∧ ofBuild .empty o = ofBuild .empty o' := by
  intro query o o'
  exact ⟨by decide +kernel, by decide +kernel, by decide +kernel,
    ofBuild_equals_sign .empty "a" "b"⟩

end ImageId
end ImageBuild
