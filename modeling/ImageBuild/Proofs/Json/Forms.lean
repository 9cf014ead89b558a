import ImageBuild.Proofs.Json.Values
import Mathlib.Data.List.MinMax

/-!
# Forms of values in JSON

A form says how the values of a type stand in JSON: which texts they have, what reads
them, and which JSON value they are. A dictionary has one text for each order of its
members. A form carries the proof that its texts are read back, so forms are built like
the types: from forms of the parts (`Form.list`, `Form.dict`, `Form.record`).
-/

namespace ImageBuild

def Dict.map {α β : Type} (f : α → β) (d : Dict α) : Dict β :=
  ⟨d.entries.map fun e => (e.1, f e.2), by
    rw [Ascending, List.pairwise_map]
    exact d.ascending⟩

namespace Json

open Reader

/-! ## Scalars -/

namespace Reader

theorem reads_bool (b : Bool) : Reader.bool.Reads (Print.bool b) b := by
  intro rest _
  cases b with
  | false =>
    show Reader.bool.run (0x66 :: ([0x61, 0x6C, 0x73, 0x65] ++ rest)) = _
    simp only [Reader.bool, ofFirst, skipBlank_cons (b := 0x66) (by decide), readWord_append]
    rfl
  | true =>
    show Reader.bool.run (0x74 :: ([0x72, 0x75, 0x65] ++ rest)) = _
    simp only [Reader.bool, ofFirst, skipBlank_cons (b := 0x74) (by decide), readWord_append]
    rfl

theorem reads_integer_negative {α : Type} {expected : String} {accept : Int → Option α} {n : Nat}
    {a : α} (hn : n + 1 ≤ 0x8000000000000000) (ha : accept (Int.negSucc n) = some a) :
    (integer expected accept).Reads (Print.int (Int.negSucc n)) a := by
  intro rest hr
  have hk : n + 1 ≤ 0xFFFFFFFFFFFFFFFF := by omega
  have hread := Numeral.read_nat true hk hr
  show (integer expected accept).run (0x2D :: (Print.nat (n + 1) ++ rest)) = _
  simp only [integer, ofFirst, skipBlank_cons (b := 0x2D) (by decide), if_true, hread]
  have signed : 0 < n + 1 ∧ n + 1 ≤ 0x8000000000000000 := ⟨n.succ_pos, hn⟩
  have negative : -((n + 1 : Nat) : Int) = Int.negSucc n := rfl
  simp only [Numeral.ofSignificand, dif_pos hk, if_true, dif_pos signed, acceptInteger, negative,
    ha]

theorem reads_i64 (n : Int64) : i64.Reads (Print.int n.toInt) n := by
  have lower : -0x8000000000000000 ≤ n.toInt := n.le_toInt
  have upper : n.toInt < 0x8000000000000000 := n.toInt_lt
  have back : Int64.ofInt n.toInt = n := Int64.ofInt_toInt n
  cases hn : n.toInt with
  | ofNat k =>
    rw [hn] at upper back
    have upper : (k : Int) < 0x8000000000000000 := upper
    refine reads_integer (show k ≤ 0xFFFFFFFFFFFFFFFF by omega) ?_
    rw [if_pos (by omega)]
    exact congrArg some back
  | negSucc k =>
    rw [hn] at lower back
    refine reads_integer_negative (by omega) ?_
    rw [if_pos (by omega)]
    exact congrArg some back

theorem isGiven_int (n : Int) : IsGiven (Print.int n) := by
  cases n with
  | ofNat k => exact isGiven_nat k
  | negSucc k => exact ⟨0x2D, _, rfl, by decide, by decide⟩

/-! ## Arrays and objects -/

section Compound

variable {α : Type} {p : Reader α}

theorem reads_list {as : List α} {ts : List Octets}
    (h : List.Forall₂ (fun a t => p.Reads t a ∧ IsItem t) as ts) :
    (Reader.list p).Reads (Print.array ts) as := by
  intro rest _
  show (Reader.list p).run (0x5B :: (Print.commas _ ++ [0x5D] ++ rest)) = _
  rw [List.append_assoc]
  simp only [Reader.list, ofFirst, skipBlank_cons (b := 0x5B) (by decide), if_true]
  rw [List.singleton_append, items_commas h]

/-- **A dictionary** is read from its members, in whatever order. -/
theorem reads_dict {d : Dict α} {es : List (String × α)} {ms : List (String × Octets)}
    (h : List.Forall₂ (fun e m => m.1 = e.1 ∧ p.Reads m.2 e.2) es ms) (all : es.Perm d.entries) :
    (Reader.dict p).Reads (Print.object ms) d := by
  intro rest _
  show (Reader.dict p).run (0x7B :: (Print.commas _ ++ [0x7D] ++ rest)) = _
  rw [List.append_assoc]
  simp only [Reader.dict, ofFirst, skipBlank_cons (b := 0x7B) (by decide), if_true]
  rw [List.singleton_append, foldMembers_commas (folds_insert h .empty)]
  exact congrArg (fun d => Except.ok (d, rest)) (Dict.ofList_eq all)

theorem Reads.parse {s : Octets} {a : α} (h : p.Reads s a) : p.parse s = .ok a := by
  have run := h [] fun b hb => by cases hb
  rw [List.append_nil] at run
  rw [Reader.parse, run]
  rfl

end Compound
end Reader

/-! ## Forms -/

namespace Whole

def ofU64 (n : UInt64) : Whole where
  toInt := n.toNat
  upper := by
    have := n.toNat_lt
    omega

def ofI64 (n : Int64) : Whole where
  toInt := n.toInt
  lower := n.le_toInt
  upper := by
    have := n.toInt_lt
    omega

end Whole

/-- **How the values of a type stand in JSON**: what is read of a text of a value is that
value, and the JSON value of the text is the one that the form names. -/
structure Form (α : Type) where
  /-- whether a text is one of those that a value has -/
  IsText : α → Octets → Prop
  print : α → Octets
  reader : Reader α
  /-- the JSON value that a text of it is -/
  value : α → Value
  /-- how many brackets are open at once in a text -/
  depth : Nat
  isText_print (a : α) : IsText a (print a)
  reads {a : α} {t : Octets} (h : IsText a t) : reader.Reads t a
  means {a : α} {t : Octets} (h : IsText a t) {n : Nat} (deep : depth ≤ n) :
    (Reader.value n).Reads t (value a)
  begins {a : α} {t : Octets} (h : IsText a t) : IsItem t

theorem isItem_string (s : String) : IsItem (Print.string s) :=
  ⟨0x22, _, rfl, by decide, by decide⟩

theorem isItem_bool (b : Bool) : IsItem (Print.bool b) := by
  cases b with
  | false => exact ⟨0x66, _, rfl, by decide, by decide⟩
  | true => exact ⟨0x74, _, rfl, by decide, by decide⟩

theorem isItem_int (n : Int) : IsItem (Print.int n) := by
  cases n with
  | ofNat k =>
    obtain ⟨b, s, hb, hd⟩ := nat_eq_cons k
    refine ⟨b, s, hb, isBlank_of_isDigit hd, ?_⟩
    rintro rfl
    cases hd
  | negSucc k => exact ⟨0x2D, _, rfl, by decide, by decide⟩

namespace Form

variable {α R : Type}

/-- A value with one text and no brackets. -/
def plain (print : α → Octets) (reader : Reader α) (value : α → Value)
    (reads : ∀ a, reader.Reads (print a) a)
    (means : ∀ a n, (Reader.value n).Reads (print a) (value a))
    (begins : ∀ a, IsItem (print a)) : Form α where
  IsText a t := t = print a
  print := print
  reader := reader
  value := value
  depth := 0
  isText_print _ := rfl
  reads h := h ▸ reads _
  means h _ _ := h ▸ means _ _
  begins h := h ▸ begins _

def string : Form String :=
  plain Print.string .string .string reads_string (fun s n => reads_value_string n s) isItem_string

def bool : Form Bool :=
  plain Print.bool .bool .bool reads_bool (fun b n => reads_value_bool n b) isItem_bool

def u64 : Form UInt64 :=
  plain (fun n => Print.nat n.toNat) .u64 (fun n => .number (.whole (.ofU64 n))) reads_u64
    (fun n depth => reads_value_whole depth (.ofU64 n)) fun n => isItem_int n.toNat

def i64 : Form Int64 :=
  plain (fun n => Print.int n.toInt) .i64 (fun n => .number (.whole (.ofI64 n))) reads_i64
    (fun n depth => reads_value_whole depth (.ofI64 n)) fun n => isItem_int n.toInt

/-- A null for no value. No text of a value may be like a null. -/
def option (f : Form α) (given : ∀ {a t}, f.IsText a t → IsGiven t) : Form (Option α) where
  IsText a t := match a with
    | none => t = Print.null
    | some a => f.IsText a t
  print := Print.option f.print
  reader := .option f.reader
  value a := match a with
    | none => .null
    | some a => f.value a
  depth := f.depth
  isText_print a := by
    cases a with
    | none => rfl
    | some a => exact f.isText_print a
  reads {a t} h := by
    cases a with
    | none => exact h ▸ reads_null_option f.reader
    | some a => exact (f.reads h).option (given h)
  means {a t} h n deep := by
    cases a with
    | none => exact h ▸ reads_value_null n
    | some a => exact f.means h deep
  begins {a t} h := by
    cases a with
    | none => exact ⟨0x6E, _, h, by decide, by decide⟩
    | some a => exact f.begins h

def string? : Form (Option String) := string.option fun {a _} h => h ▸ isGiven_string a

def u64? : Form (Option UInt64) := u64.option fun {a _} h => h ▸ isGiven_nat a.toNat

def i64? : Form (Option Int64) := i64.option fun {a _} h => h ▸ isGiven_int a.toInt

def list (f : Form α) : Form (List α) where
  IsText as t := ∃ ts, List.Forall₂ f.IsText as ts ∧ t = Print.array ts
  print as := Print.array (as.map f.print)
  reader := .list f.reader
  value as := .array (as.map f.value)
  depth := f.depth + 1
  isText_print as :=
    ⟨_, List.forall₂_map_right_iff.2 (List.forall₂_same.2 fun a _ => f.isText_print a), rfl⟩
  reads := by
    rintro as t ⟨ts, texts, rfl⟩
    exact reads_list (texts.imp fun a t ht => ⟨f.reads ht, f.begins ht⟩)
  means := by
    rintro as t ⟨ts, texts, rfl⟩ n deep
    cases n with
    | zero => exact absurd deep (Nat.not_succ_le_zero _)
    | succ n =>
      refine reads_value_array (List.forall₂_map_left_iff.2 (texts.imp fun a t ht => ?_))
      exact ⟨f.means ht (Nat.le_of_succ_le_succ deep), f.begins ht⟩
  begins := by
    rintro as t ⟨ts, -, rfl⟩
    exact ⟨0x5B, _, rfl, by decide, by decide⟩

/-- An object with one member for each entry, in any order. -/
def dict (f : Form α) : Form (Dict α) where
  IsText d t := ∃ es ms, es.Perm d.entries ∧
    List.Forall₂ (fun e m => m.1 = e.1 ∧ f.IsText e.2 m.2) es ms ∧ t = Print.object ms
  print d := Print.object (d.entries.map fun e => (e.1, f.print e.2))
  reader := .dict f.reader
  value d := .object (d.map f.value).entries
  depth := f.depth + 1
  isText_print d :=
    ⟨d.entries, _, .refl _, List.forall₂_map_right_iff.2
      (List.forall₂_same.2 fun e _ => ⟨rfl, f.isText_print e.2⟩), rfl⟩
  reads := by
    rintro d t ⟨es, ms, all, texts, rfl⟩
    exact reads_dict (texts.imp fun e m hm => ⟨hm.1, f.reads hm.2⟩) all
  means := by
    rintro d t ⟨es, ms, all, texts, rfl⟩ n deep
    cases n with
    | zero => exact absurd deep (Nat.not_succ_le_zero _)
    | succ n =>
      have values : (es.map fun e => (e.1, f.value e.2)).Perm (d.map f.value).entries :=
        all.map _
      have members := reads_value_members
        (List.forall₂_map_left_iff (f := fun e => (e.1, f.value e.2)).2 (texts.imp fun e m hm =>
          ⟨hm.1, f.means hm.2 (Nat.le_of_succ_le_succ deep)⟩))
      rwa [Dict.ofList_eq values] at members
  begins := by
    rintro d t ⟨es, ms, -, -, rfl⟩
    exact ⟨0x7B, _, rfl, by decide, by decide⟩

/-! ## Records -/

/-- Where a value stands in a record: its field, with the form of what it holds. -/
structure Slot (R : Type) where
  {T : Type}
  name : String
  need : Need
  form : Form T
  get : R → T
  set : R → T → R

def Slot.field (x : Slot R) : Field R := .of x.name x.need x.form.reader x.set

/-- The slots of a record make up its shape, and hold all that there is of it. -/
structure Fills (slots : List (Slot R)) (k : Shape R) : Prop where
  fields : k.fields = slots.map Slot.field
  distinct : (slots.map (·.name)).Nodup
  whole : ∀ r, slots.foldl (fun acc x => x.set acc (x.get r)) k.initial = r

section Records

variable {k : Shape R} {slots : List (Slot R)}

theorem find?_field (distinct : (slots.map (·.name)).Nodup) {x : Slot R} (h : x ∈ slots) :
    (slots.map Slot.field).find? (·.name == x.name) = some x.field := by
  induction slots with
  | nil => cases h
  | cons y slots ih =>
    obtain ⟨other, distinct⟩ := List.nodup_cons.1 distinct
    rw [List.map_cons, List.find?_cons]
    rcases List.mem_cons.1 h with rfl | h
    · rw [show (x.field.name == x.name) = true from beq_self_eq_true x.name]
    · have ne : y.name ≠ x.name := fun eq => other (List.mem_map.2 ⟨x, h, eq.symm⟩)
      rw [show (y.field.name == x.name) = false from beq_eq_false_iff_ne.2 ne]
      exact ih distinct h

theorem folds_slots {r : R} {ms : List (String × Octets)}
    (texts : List.Forall₂ (fun x m => m.1 = x.name ∧ x.form.reader.Reads m.2 (x.get r)) slots ms)
    (found : ∀ x ∈ slots, k.fields.find? (·.name == x.name) = some x.field)
    (distinct : (slots.map (·.name)).Nodup) (acc : R) (names : List String)
    (fresh : ∀ x ∈ slots, x.name ∉ names) :
    Folds k.take (acc, names) ms
      (slots.foldl (fun acc x => x.set acc (x.get r)) acc, (slots.map (·.name)).reverse ++ names) := by
  induction texts generalizing acc names with
  | nil => exact .nil
  | @cons x m slots ms this _ ih =>
    obtain ⟨name, t⟩ := m
    obtain ⟨rfl, reads⟩ := this
    obtain ⟨other, distinct⟩ := List.nodup_cons.1 distinct
    have first := Shape.folds_field acc names x.name (found x (List.mem_cons_self ..))
      (fresh x (List.mem_cons_self ..)) reads
    have later := ih (fun y hy => found y (List.mem_cons_of_mem _ hy)) distinct
      (x.set acc (x.get r)) (x.name :: names) fun y hy mem => by
        rcases List.mem_cons.1 mem with eq | mem
        · exact other (List.mem_map.2 ⟨y, hy, eq⟩)
        · exact fresh y (List.mem_cons_of_mem _ hy) mem
    rw [List.map_cons, List.reverse_cons, List.append_assoc]
    exact first.append later

/-- **A record**: an object with one member for each field, in their order. -/
def record (fills : Fills slots k) : Form R where
  IsText r t := ∃ ms : List (String × Octets),
    List.Forall₂ (fun x m => m.1 = x.name ∧ x.form.IsText (x.get r) m.2) slots ms ∧
      t = Print.object ms
  print r := Print.object (slots.map fun x => (x.name, x.form.print (x.get r)))
  reader := k.reader
  value r := .object (Dict.ofList (slots.map fun x => (x.name, x.form.value (x.get r)))).entries
  depth := (slots.map (·.form.depth)).foldr max 0 + 1
  isText_print r :=
    ⟨_, List.forall₂_map_right_iff.2
      (List.forall₂_same.2 fun x _ => ⟨rfl, x.form.isText_print (x.get r)⟩), rfl⟩
  reads := by
    rintro r t ⟨ms, texts, rfl⟩
    have members := folds_slots (k := k) (texts.imp fun x m h => ⟨h.1, x.form.reads h.2⟩)
      (fun x hx => fills.fields ▸ find?_field fills.distinct hx) fills.distinct k.initial []
      fun _ _ => List.not_mem_nil
    rw [fills.whole] at members
    refine Shape.reads_object _ _ members ?_
    -- every field of the record is the field of a slot
    refine Option.map_eq_none_iff.2 (List.find?_eq_none.2 fun f hf => ?_)
    rw [fills.fields] at hf
    obtain ⟨x, hx, rfl⟩ := List.mem_map.1 hf
    have given : ((slots.map Slot.name).reverse ++ []).contains x.field.name = true := by
      rw [List.append_nil, List.contains_iff_mem, List.mem_reverse]
      exact List.mem_map.2 ⟨x, hx, rfl⟩
    rw [given, Bool.not_true, Bool.and_false]
    exact Bool.false_ne_true
  means := by
    rintro r t ⟨ms, texts, rfl⟩ n deep
    cases n with
    | zero => exact absurd deep (Nat.not_succ_le_zero _)
    | succ n =>
      have le : ∀ x ∈ slots, x.form.depth ≤ n := fun x hx =>
        Nat.le_trans (List.le_max_of_le' 0 (List.mem_map_of_mem (f := fun x => x.form.depth) hx)
          (Nat.le_refl _)) (Nat.le_of_succ_le_succ deep)
      have read := ((List.forall₂_and_left _ _).2 ⟨le, texts⟩).imp
        (S := fun x m => m.1 = x.name ∧ (Reader.value n).Reads m.2 (x.form.value (x.get r)))
        fun x m h => ⟨h.2.1, x.form.means h.2.2 h.1⟩
      exact reads_value_members
        (List.forall₂_map_left_iff (f := fun x : Slot R => (x.name, x.form.value (x.get r))).2 read)
  begins := by
    rintro r t ⟨ms, -, rfl⟩
    exact ⟨0x7B, _, rfl, by decide, by decide⟩

end Records

/-- **Whether the texts of a form are read back**, the one that is printed among them: each as
the value that has it, and all texts of a value as one JSON value. -/
def RoundTrips (f : Form α) (reader : Reader α) (print : α → Octets) : Prop :=
  ∀ a, f.IsText a (print a) ∧ ∀ t, f.IsText a t →
    reader.parse t = .ok a ∧ ∀ n, f.depth ≤ n → (Reader.value n).parse t = .ok (f.value a)

theorem roundTrips (f : Form α) : f.RoundTrips f.reader f.print :=
  fun a => ⟨f.isText_print a, fun _ h => ⟨(f.reads h).parse, fun _ deep => (f.means h deep).parse⟩⟩

end Form
end Json
end ImageBuild
