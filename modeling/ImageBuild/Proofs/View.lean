import ImageBuild.Proofs.Decoding
import Mathlib.Logic.Relation

/-!
# What counts of a query

Of the parameters of a query a decoder sees a view only: of each name that it knows the first
value, unless it is empty, and of tags all values that are not (`Query.view`). Queries with the
same view are decoded to the same options or the same error. The order of different names,
later values of a name, unknown names and empty values of absent names are not in the view,
so they never make a difference (`Policy.decode_view`).
-/

namespace ImageBuild

namespace Query

variable {q q' : Query} {names : List String} {name : String}

/-! ## Views -/

/-- **What counts of a name:** all values of a tag that are not empty, and of another name the
first value, if there is one and it is not empty. -/
def view (q : Query) (name : String) : List String :=
  if name = "t" then (q.values name).filter (· ≠ "") else (q.text? name).toList

/-- Two queries with the same view on these names. -/
def Agrees (q : Query) (names : List String) (q' : Query) : Prop :=
  ∀ name ∈ names, q'.view name = q.view name

instance (q q' : Query) (names : List String) : Decidable (q.Agrees names q') :=
  inferInstanceAs (Decidable (∀ name ∈ names, q'.view name = q.view name))

theorem agrees_refl (q : Query) (names : List String) : q.Agrees names q := by
  intro name _
  rfl

theorem Agrees.symm (h : q.Agrees names q') : q'.Agrees names q := by
  intro name known
  exact (h name known).symm

theorem Agrees.trans {q'' : Query} (h : q.Agrees names q') (h' : q'.Agrees names q'') :
    q.Agrees names q'' := by
  intro name known
  exact (h' name known).trans (h name known)

theorem Agrees.subset {fewer : List String} (h : q.Agrees names q') (sub : fewer ⊆ names) :
    q.Agrees fewer q' := by
  intro name known
  exact h name (sub known)

theorem view_eq (hn : name ≠ "t") : q.view name = (q.text? name).toList := if_neg hn

theorem Agrees.text? (h : q.Agrees names q') (known : name ∈ names) (hn : name ≠ "t") :
    q'.text? name = q.text? name := by
  have same := h name known
  rw [view_eq hn, view_eq hn] at same
  simpa only [Option.head?_toList] using congrArg List.head? same

theorem Agrees.tags (h : q.Agrees names q') (known : "t" ∈ names) :
    (q'.values "t").filter (· ≠ "") = (q.values "t").filter (· ≠ "") :=
  h "t" known

/-! ## Looking up

Every way to look a name up treats an empty value like none, so it depends on the view. -/

/-- Two first values with one view differ at most in that one is empty and the other is not
there. -/
theorem get?_cases (same : q'.text? name = q.text? name) :
    q'.get? name = q.get? name ∨ (q'.get? name = none ∧ q.get? name = some "") ∨
      (q'.get? name = some "" ∧ q.get? name = none) := by
  have cases_of (q : Query) : q.get? name = q.text? name ∨
      (q.get? name = some "" ∧ q.text? name = none) := by
    unfold text?
    cases h : q.get? name with
    | none => exact .inl rfl
    | some v => by_cases hv : v = "" <;> simp [Option.filter, hv]
  obtain h' | ⟨h', none'⟩ := cases_of q'
  · obtain h | ⟨h, none⟩ := cases_of q
    · exact .inl (h'.trans (same.trans h.symm))
    · exact .inr (.inl ⟨h'.trans (same.trans none), h⟩)
  · obtain h | ⟨h, -⟩ := cases_of q
    · exact .inr (.inr ⟨h', h.trans (same.symm.trans none')⟩)
    · exact .inl (h'.trans h.symm)

/-- One name is looked up in the same way, whatever it is looked up for. -/
structure Same (q q' : Query) (name : String) : Prop where
  text : q'.text? name = q.text? name
  flag : q'.flag name = q.flag name
  u64 : q'.u64? name = q.u64? name
  i64 : q'.i64? name = q.i64? name
  json {α : Type} (p : Json.Reader α) : q'.json? name p = q.json? name p

theorem Same.of_text? (h : q'.text? name = q.text? name) : q.Same q' name where
  text := h
  flag := by
    have empty : isTrue "" = false := by decide
    simp only [Query.flag]
    obtain same | ⟨h', h⟩ | ⟨h', h⟩ := get?_cases h
    · rw [same]
    · rw [h', h]
      exact empty.symm
    · rw [h', h]
      exact empty
  u64 := by rw [u64?, u64?, h]
  i64 := by rw [i64?, i64?, h]
  json p := by rw [json?, json?, h]

theorem removesIntermediates_congr (force : q.Same q' "forcerm") (rm : q.Same q' "rm") :
    q'.removesIntermediates = q.removesIntermediates := by
  unfold removesIntermediates
  rw [force.flag]
  obtain same | ⟨h', h⟩ | ⟨h', h⟩ := get?_cases rm.text
  · rw [same]
  · rw [h', h]
    rfl
  · rw [h', h]
    rfl

theorem builder_congr (h : q.Same q' "version") : q'.builder = q.builder := by
  unfold builder
  obtain same | ⟨h', h⟩ | ⟨h', h⟩ := get?_cases h.text
  · rw [same]
  · rw [h', h]
    rfl
  · rw [h', h]
    rfl

/-! ## Decoding -/

theorem Agrees.same (h : q.Agrees names q') (known : name ∈ names) (hn : name ≠ "t") :
    q.Same q' name :=
  .of_text? (h.text? known hn)

/-- **Queries with the same view** but for `q` ask for the same build, quietly or not. -/
theorem buildOptions_quiet {v : Version} (h : q.Agrees ((buildNames v).filter (· ≠ "q")) q') :
    q'.buildOptions v = (fun o => { o with quiet := q'.flag "q" }) <$> q.buildOptions v := by
  have common (name : String) (known : name ∈ commonNames ∧ name ≠ "q" ∧ name ≠ "t") :
      q.Same q' name := by
    refine h.same ?_ known.2.2
    simp [mem_buildNames_of_common, known]
  have tags : (q'.values "t").filter (· ≠ "") = (q.values "t").filter (· ≠ "") := by
    have known : "t" ∈ buildNames v := mem_buildNames_of_common (by decide)
    refine h.tags ?_
    simp [known]
  have platform : (if platformSince ≤ v then q'.text? "platform" else none) =
      if platformSince ≤ v then q.text? "platform" else none := by
    split
    · next since =>
      refine h.text? ?_ (by decide)
      simp [platform_mem_buildNames since]
    · rfl
  have outputs : q'.outputs v = q.outputs v := by
    by_cases since : outputsSince ≤ v
    · have same : q.Same q' "outputs" := by
        refine h.same ?_ (by decide)
        simp [outputs_mem_buildNames since]
      rw [outputs_since since, outputs_since since, same.json]
    · rw [outputs_before since, outputs_before since]
  unfold buildOptions
  rw [(common "shmsize" (by decide)).u64, (common "memory" (by decide)).i64,
    (common "cpushares" (by decide)).i64, (common "buildargs" (by decide)).json,
    (common "labels" (by decide)).json, (common "cachefrom" (by decide)).json,
    builder_congr (common "version" (by decide)), outputs, tags, platform,
    removesIntermediates_congr (common "forcerm" (by decide)) (common "rm" (by decide)),
    (common "dockerfile" (by decide)).text, (common "remote" (by decide)).text,
    (common "nocache" (by decide)).flag, (common "forcerm" (by decide)).flag,
    (common "pull" (by decide)).flag, (common "target" (by decide)).text,
    (common "networkmode" (by decide)).text, (common "buildid" (by decide)).text]
  simp only [map_bind, map_pure]

/-- **The same view** gives the same options of a build, or the same error. -/
theorem buildOptions_of_agrees {v : Version} (h : q.Agrees (buildNames v) q') :
    q'.buildOptions v = q.buildOptions v := by
  have loud : (buildNames v).filter (· ≠ "q") ⊆ buildNames v := List.filter_sublist.subset
  have quiet : q.Same q' "q" := h.same (mem_buildNames_of_common (by decide)) (by decide)
  rw [buildOptions_quiet (h.subset loud), quiet.flag]
  exact (buildOptions_quiet (q.agrees_refl _)).symm

/-- **The same view** gives the same options of a prune, or the same error. -/
theorem pruneOptions_of_agrees (h : q.Agrees pruneNames q') : q'.pruneOptions = q.pruneOptions := by
  have storage : q.Same q' "keep-storage" := h.same (by decide) (by decide)
  have filters : q.Same q' "filters" := h.same (by decide) (by decide)
  have all : q.Same q' "all" := h.same (by decide) (by decide)
  unfold pruneOptions
  rw [storage.u64, filters.json, all.flag]

/-! ## Edits -/

/-- **An edit that leaves the view** of these names as it is. -/
inductive Edit (names : List String) (q : Query) : Query → Prop where
  /-- another order of different names -/
  | reordered {q' : Query}
      (same : ∀ name, q'.pairs.filter (·.1 == name) = q.pairs.filter (·.1 == name)) :
      Edit names q q'
  /-- a name again, behind its first value -/
  | repeated {front back : List (String × String)} {p : String × String}
      (split : q.pairs = front ++ back) (first : p.1 ∈ front.map (·.1)) (single : p.1 ≠ "t") :
      Edit names q ⟨front ++ p :: back⟩
  /-- a name that the decoder does not know -/
  | unknown {front back : List (String × String)} {p : String × String}
      (split : q.pairs = front ++ back) (unknown : p.1 ∉ names) :
      Edit names q ⟨front ++ p :: back⟩
  /-- an empty value of a name that is absent -/
  | blank {front back : List (String × String)} {name : String}
      (split : q.pairs = front ++ back) (absent : q.view name = []) :
      Edit names q ⟨front ++ (name, "") :: back⟩

theorem values_insert (front back : List (String × String)) (p : String × String) (name : String) :
    (Query.mk (front ++ p :: back)).values name =
      (Query.mk front).values name ++ (if p.1 = name then [p.2] else []) ++
        (Query.mk back).values name := by
  by_cases hp : p.1 = name
  · simp [values, hp]
  · simp [values, hp]

theorem values_split {front back : List (String × String)} (split : q.pairs = front ++ back)
    (name : String) :
    q.values name = (Query.mk front).values name ++ (Query.mk back).values name := by
  rw [values, split, List.filter_append, List.map_append]
  rfl

theorem view_congr (h : q'.values name = q.values name) : q'.view name = q.view name := by
  rw [view, view, text?_eq, text?_eq, h]

/-- **An edit** is not seen. -/
theorem Edit.agrees (h : Edit names q q') : q.Agrees names q' := by
  intro name known
  cases h with
  | reordered same =>
    apply view_congr
    rw [values, values, same]
  | @repeated front back p split first single =>
    by_cases hp : p.1 = name
    · -- the first value stands before the one that is repeated
      subst hp
      obtain ⟨e, he, hn⟩ := List.mem_map.1 first
      have some_value : e.2 ∈ (Query.mk front).values p.1 :=
        List.mem_map.2 ⟨e, List.mem_filter.2 ⟨he, by simp [hn]⟩, rfl⟩
      obtain ⟨v, vs, hv⟩ := List.exists_cons_of_ne_nil (List.ne_nil_of_mem some_value)
      rw [view_eq single, view_eq single, text?_eq, text?_eq, values_insert, values_split split, hv]
      rfl
    · apply view_congr
      rw [values_insert, if_neg hp, List.append_nil, values_split split]
  | @unknown front back p split unknown =>
    have other : p.1 ≠ name := by
      rintro rfl
      exact unknown known
    apply view_congr
    rw [values_insert, if_neg other, List.append_nil, values_split split]
  | @blank front back n split absent =>
    by_cases hn : n = name
    · subst hn
      rw [absent]
      by_cases tag : n = "t"
      · subst tag
        rw [view, if_pos rfl, values_split split] at absent
        simpa [view, values_insert] using absent
      · have none : q.text? n = none := by
          rwa [view_eq tag, Option.toList_eq_nil_iff] at absent
        rw [view_eq tag, Option.toList_eq_nil_iff, text?_eq, values_insert, if_pos rfl]
        rw [text?_eq, values_split split] at none
        cases hf : (Query.mk front).values n with
        | nil => rfl
        | cons v vs =>
          rw [hf] at none
          exact none
    · apply view_congr
      rw [values_insert, if_neg hn, List.append_nil, values_split split]

/-- **Any number of edits,** made or taken back, are not seen. -/
theorem agrees_of_edits (h : Relation.EqvGen (Edit names) q q') : q.Agrees names q' := by
  induction h with
  | rel _ _ edit => exact edit.agrees
  | refl q => exact q.agrees_refl names
  | symm _ _ _ ih => exact ih.symm
  | trans _ _ _ _ _ ih ih' => exact ih.trans ih'

end Query

/-! ## Requests -/

namespace Policy

/-- **What a view leaves out never counts.** Two requests with the same view of the names that
the decoder knows, or with queries that edits lead to one another, are decoded to the same
options or rejected with the same error, and so are prunes. A decoded build that removes
intermediate containers by force removes them. -/
theorem decode_view (p : Policy) (r : BuildRequest) (uri : Uri) :
    let q := Query.ofUri r.uri
    let q' := Query.ofUri uri
    ((∀ v, p.resolve r.segment = .ok v → q.Agrees (Query.buildNames v) q' ∨
        Relation.EqvGen (Query.Edit (Query.buildNames v)) q q') →
      p.decode { r with uri } = p.decode r) ∧
    (q.Agrees Query.pruneNames q' ∨ Relation.EqvGen (Query.Edit Query.pruneNames) q q' →
      q'.pruneOptions = q.pruneOptions) ∧
    ∀ d, p.decode r = .ok d → d.options.forceRemove = true → d.options.remove = true := by
  intro q q'
  refine ⟨?_, ?_, ?_⟩
  · intro alike
    rw [decode_eq, decode_eq]
    cases hv : p.resolve r.segment with
    | error e => rfl
    | ok v =>
      have same : q.Agrees (Query.buildNames v) q' := by
        rcases alike v hv with same | edits
        · exact same
        · exact Query.agrees_of_edits edits
      have options : q'.buildOptions v = q.buildOptions v := Query.buildOptions_of_agrees same
      show (checkMedia r >>= fun _ => q'.buildOptions v >>= fun o => pure (DecodedBuild.mk v o)) = _
      rw [options]
      rfl
  · intro alike
    apply Query.pruneOptions_of_agrees
    rcases alike with same | edits
    · exact same
    · exact Query.agrees_of_edits edits
  · intro d hd force
    rw [decode_eq] at hd
    obtain ⟨v, -, hd⟩ := exists_of_bind_ok hd
    obtain ⟨_, -, hd⟩ := exists_of_bind_ok hd
    obtain ⟨o, ho, hd⟩ := exists_of_bind_ok hd
    cases hd
    obtain ⟨forced, removed⟩ := Query.removal_of_buildOptions ho
    rw [removed, Query.removesIntermediates, ← forced, force, Bool.true_or]

/-- The same request, with an empty tag, another order, a second `q`, an unknown name and an
empty `rm`. -/
theorem decode_view_shuffled :
    let r : BuildRequest :=
      { segment := some "v1.40"
        uri := ⟨Text.encode "/build", some (Text.encode "q=1&t=a%20b&platform=x")⟩
        hasBody := true }
    let uri : Uri :=
      ⟨Text.encode "/build", some (Text.encode "t=&platform=x&z=2&q=1&q=0&rm=&t=a+b")⟩
    let names := Query.buildNames ⟨1, 40⟩
    Policy.resolve {} r.segment = .ok ⟨1, 40⟩ ∧
      (Query.ofUri r.uri).Agrees names (Query.ofUri uri) ∧
      Policy.decode {} { r with uri } = Policy.decode {} r := by
  intro r uri names
  have version : Policy.resolve {} r.segment = .ok ⟨1, 40⟩ := by cbv
  have agrees : (Query.ofUri r.uri).Agrees names (Query.ofUri uri) := by decide +kernel
  refine ⟨version, agrees, (decode_view {} r uri).1 ?_⟩
  intro v hv
  cases version.symm.trans hv
  exact .inl agrees

end Policy
end ImageBuild
