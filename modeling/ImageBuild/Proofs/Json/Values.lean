import ImageBuild.Proofs.Json.Reads
import Mathlib.Data.List.Forall2

/-!
# Any value is read back

A value without floating-point numbers is read back from its text by a reader that
goes as deep as the value does (`Value.reads_print`). The induction is on the depth;
the items of an array and the members of an object are read back one after another,
and the dictionary that collects the members does not depend on their order
(`Dict.ofList_eq`).
-/

namespace ImageBuild

namespace Dict

variable {α : Type}

theorem insertEntry_perm {key : String} (value : α) {es : List (String × α)}
    (fresh : ∀ e ∈ es, e.1 ≠ key) : (insertEntry key value es).Perm ((key, value) :: es) := by
  induction es with
  | nil => exact .refl _
  | cons e es ih =>
    rw [insertEntry]
    split
    · exact .refl _
    · rw [if_neg fun h => fresh e (List.mem_cons_self ..) h.symm]
      exact ((ih fun d hd => fresh d (List.mem_cons_of_mem _ hd)).cons e).trans (.swap ..)

theorem foldl_insert_perm {es : List (String × α)} (d : Dict α)
    (distinct : (d.entries ++ es).Pairwise fun a b => a.1 ≠ b.1) :
    (es.foldl (fun d e => d.insert e.1 e.2) d).entries.Perm (d.entries ++ es) := by
  induction es generalizing d with
  | nil => rw [List.append_nil]; exact .refl _
  | cons e es ih =>
    obtain ⟨-, -, other⟩ := List.pairwise_append.1 distinct
    have put : (d.insert e.1 e.2).entries.Perm (d.entries ++ [e]) :=
      (insertEntry_perm e.2 fun x hx => other x hx e (List.mem_cons_self ..)).trans
        (List.perm_append_singleton e d.entries).symm
    have all : ((d.insert e.1 e.2).entries ++ es).Perm (d.entries ++ e :: es) := by
      rw [List.append_cons]
      exact put.append_right es
    exact (ih _ (all.symm.pairwise distinct fun h => h.symm)).trans all

/-- **A dictionary of its own entries**, in whatever order they are put in. -/
theorem ofList_eq {d : Dict α} {es : List (String × α)} (h : es.Perm d.entries) :
    ofList es = d := by
  have apart : d.entries.Pairwise fun a b => a.1 ≠ b.1 := d.ascending.imp String.ne_of_lt
  have distinct : es.Pairwise fun a b => a.1 ≠ b.1 := h.symm.pairwise apart fun h => h.symm
  have same : (ofList es).entries.Perm d.entries := (foldl_insert_perm empty distinct).trans h
  have entries : (ofList es).entries = d.entries := by
    refine same.eq_of_pairwise (fun a b _ _ lt gt => ?_) (ofList es).ascending d.ascending
    exact absurd (String.lt_trans lt gt) (String.lt_irrefl _)
  cases hd : ofList es
  rw [hd] at entries
  cases d
  cases entries
  rfl

end Dict

namespace Json

/-- **Whether a reader that goes to this depth finds a value again:** it has no floating-point
number, at most `depth` of its brackets are open at once, and the members of its objects are
in ascending order. -/
def Value.fits : Nat → Value → Bool
  | _, .null => true
  | _, .bool _ => true
  | _, .number (.whole _) => true
  | _, .number (.real _) => false
  | _, .string _ => true
  | 0, .array _ => false
  | 0, .object _ => false
  | depth + 1, .array items => items.all (fits depth)
  | depth + 1, .object members =>
    decide (members.Pairwise fun a b => a.1 < b.1) && members.all fun m => fits depth m.2

theorem Value.printItems_eq_map (vs : List Value) : printItems vs = vs.map print := by
  induction vs with
  | nil => rfl
  | cons v vs ih => rw [printItems, ih, List.map_cons]

theorem Value.printMembers_eq_map (ms : List (String × Value)) :
    printMembers ms = ms.map fun m => (m.1, m.2.print) := by
  induction ms with
  | nil => rfl
  | cons m ms ih => rw [printMembers, ih, List.map_cons]

/-- **How a text begins** that is an item of an array, and not like a null unless it is one. -/
theorem Value.begins_print {depth : Nat} {v : Value} (h : v.fits depth = true) :
    ∃ b t, v.print = b :: t ∧ isBlank b = false ∧ b ≠ 0x5D ∧ (b = 0x6E → v = .null) := by
  have digits (n : Nat) {w : Value} :
      ∃ b t, Print.nat n = b :: t ∧ isBlank b = false ∧ b ≠ 0x5D ∧ (b = 0x6E → w = .null) := by
    obtain ⟨b, t, hb, hd⟩ := Reader.nat_eq_cons n
    refine ⟨b, t, hb, Reader.isBlank_of_isDigit hd, ?_, ?_⟩
    · rintro rfl
      cases hd
    · rintro rfl
      cases hd
  cases v with
  | null => exact ⟨0x6E, _, rfl, by decide, by decide, fun _ => rfl⟩
  | bool b =>
    cases b with
    | false => exact ⟨0x66, _, rfl, by decide, by decide, fun h => absurd h (by decide)⟩
    | true => exact ⟨0x74, _, rfl, by decide, by decide, fun h => absurd h (by decide)⟩
  | number n =>
    cases n with
    | real x => cases depth <;> cases h
    | whole n =>
      show ∃ b t, Print.int n.toInt = b :: t ∧ _
      cases n.toInt with
      | ofNat k => exact digits k
      | negSucc k => exact ⟨0x2D, _, rfl, by decide, by decide, fun h => absurd h (by decide)⟩
  | string s => exact ⟨0x22, _, rfl, by decide, by decide, fun h => absurd h (by decide)⟩
  | array vs => exact ⟨0x5B, _, rfl, by decide, by decide, fun h => absurd h (by decide)⟩
  | object ms => exact ⟨0x7B, _, rfl, by decide, by decide, fun h => absurd h (by decide)⟩

namespace Reader

/-! ## Scalars -/

theorem readWord_append (word rest : Octets) : readWord word (word ++ rest) = .ok rest := by
  induction word with
  | nil => rfl
  | cons b word ih =>
    rw [List.cons_append, readWord, if_pos rfl]
    exact ih

theorem reads_null_option {α : Type} (p : Reader α) : (Reader.option p).Reads Print.null none := by
  intro rest _
  show (Reader.option p).run (0x6E :: ([0x75, 0x6C, 0x6C] ++ rest)) = _
  have word := readWord_append [0x75, 0x6C, 0x6C] rest
  simp only [Reader.option, skipBlank_cons (b := 0x6E) (by decide), word]
  rfl

theorem reads_value_null (depth : Nat) : (value depth).Reads Print.null .null := by
  intro rest _
  show (value depth).run (0x6E :: ([0x75, 0x6C, 0x6C] ++ rest)) = _
  rw [run_value_scalar depth (by decide) (by decide) (by decide)]
  show (readWord [0x75, 0x6C, 0x6C] ([0x75, 0x6C, 0x6C] ++ rest)).map _ = _
  rw [readWord_append]
  rfl

theorem reads_value_bool (depth : Nat) (b : Bool) :
    (value depth).Reads (Print.bool b) (.bool b) := by
  intro rest _
  cases b with
  | false =>
    show (value depth).run (0x66 :: ([0x61, 0x6C, 0x73, 0x65] ++ rest)) = _
    rw [run_value_scalar depth (by decide) (by decide) (by decide)]
    show (readWord [0x61, 0x6C, 0x73, 0x65] ([0x61, 0x6C, 0x73, 0x65] ++ rest)).map _ = _
    rw [readWord_append]
    rfl
  | true =>
    show (value depth).run (0x74 :: ([0x72, 0x75, 0x65] ++ rest)) = _
    rw [run_value_scalar depth (by decide) (by decide) (by decide)]
    show (readWord [0x72, 0x75, 0x65] ([0x72, 0x75, 0x65] ++ rest)).map _ = _
    rw [readWord_append]
    rfl

/-- **An integer** of 64 bits is read back, with or without a sign. -/
theorem reads_value_whole (depth : Nat) (n : Whole) :
    (value depth).Reads (Print.int n.toInt) (.number (.whole n)) := by
  intro rest hr
  obtain ⟨i, lower, upper⟩ := n
  cases i with
  | ofNat k =>
    have hk : k ≤ 0xFFFFFFFFFFFFFFFF := Int.ofNat_le.1 upper
    have hread := Numeral.read_nat false hk hr
    obtain ⟨b, s, hb, hd⟩ := nat_eq_cons k
    have first : b ≠ 0x22 ∧ b ≠ 0x2D ∧ b ≠ 0x5B ∧ b ≠ 0x7B := by
      refine ⟨?_, ?_, ?_, ?_⟩ <;> rintro rfl <;> cases hd
    obtain ⟨quote, minus, list, object⟩ := first
    show (value depth).run (Print.nat k ++ rest) = _
    rw [hb, List.cons_append] at hread ⊢
    rw [run_value_scalar depth (isBlank_of_isDigit hd) list object, scalar, if_neg quote,
      if_neg minus, if_pos hd, hread, Numeral.ofSignificand, dif_pos hk]
    rfl
  | negSucc k =>
    have hk : k + 1 ≤ 0xFFFFFFFFFFFFFFFF := by omega
    have signed : 0 < k + 1 ∧ k + 1 ≤ 0x8000000000000000 := by omega
    have hread := Numeral.read_nat true hk hr
    show (value depth).run (0x2D :: (Print.nat (k + 1) ++ rest)) = _
    rw [run_value_scalar depth (by decide) (by decide) (by decide), scalar, if_neg (by decide),
      if_pos rfl, hread, Numeral.ofSignificand, dif_pos hk, if_pos rfl, dif_pos signed]
    rfl

/-! ## Arrays -/

/-- A text that begins like an item of an array. -/
def IsItem (s : Octets) : Prop := ∃ b t, s = b :: t ∧ isBlank b = false ∧ b ≠ 0x5D

variable {α : Type} {p : Reader α}

theorem items_end {first : Bool} {s rest : Octets} (ends : nextItem first s = .ok (.close rest)) :
    items p first s = .ok ([], rest) := by
  rw [items]
  split
  · next h => rw [ends] at h; cases h
  · next h =>
    rw [ends] at h
    cases h
    rfl
  · next h => rw [ends] at h; cases h

theorem items_step {first : Bool} {s t r : Octets} {a : α}
    (begins : nextItem first s = .ok (.part t)) (value : p.run t = .ok (a, r)) :
    items p first s = (items p false r).map fun x => (a :: x.1, x.2) := by
  rw [items]
  split
  · next h => rw [begins] at h; cases h
  · next h => rw [begins] at h; cases h
  · next h =>
    rw [begins] at h
    cases h
    split
    · next h => rw [value] at h; cases h
    · next h =>
      rw [value] at h
      cases h
      cases items p false r <;> rfl

theorem items_part {first : Bool} {s t x : Octets} {a : α}
    (hs : nextItem first s = .ok (.part (x ++ t))) (value : p.Reads x a) (ht : Ends t) :
    items p first s = (items p false t).map fun r => (a :: r.1, r.2) :=
  items_step hs (value t ht)

theorem items_close (p : Reader α) (first : Bool) (rest : Octets) :
    items p first (0x5D :: rest) = .ok ([], rest) := by
  apply items_end
  simp [nextItem, skipBlank_cons (b := 0x5D) (by decide)]

theorem nextItem_first {x : Octets} (hx : IsItem x) (t : Octets) :
    nextItem true (x ++ t) = .ok (.part (x ++ t)) := by
  obtain ⟨b, u, rfl, hb, hc⟩ := hx
  simp [nextItem, skipBlank_cons hb, hc]

theorem nextItem_comma {x : Octets} (hx : IsItem x) (t : Octets) :
    nextItem false (0x2C :: (x ++ t)) = .ok (.part (x ++ t)) := by
  obtain ⟨b, u, rfl, hb, hc⟩ := hx
  simp [nextItem, skipBlank_cons (b := 0x2C) (by decide), skipBlank_cons hb, hc]

theorem ends_items (xs : List Octets) (rest : Octets) :
    Ends (xs.flatMap (0x2C :: ·) ++ 0x5D :: rest) := by
  cases xs with
  | nil => exact ends_cons (by decide)
  | cons x xs => exact ends_cons (by decide)

theorem items_more {as : List α} {ts : List Octets}
    (h : List.Forall₂ (fun a t => p.Reads t a ∧ IsItem t) as ts) (rest : Octets) :
    items p false (ts.flatMap (0x2C :: ·) ++ 0x5D :: rest) = .ok (as, rest) := by
  induction h with
  | nil => exact items_close p false rest
  | @cons a t as ts this _ ih =>
    rw [List.flatMap_cons, List.cons_append, List.cons_append, List.append_assoc,
      items_part (nextItem_comma this.2 _) this.1 (ends_items _ rest), ih]
    rfl

/-- **Written items** are read back. -/
theorem items_commas {as : List α} {ts : List Octets}
    (h : List.Forall₂ (fun a t => p.Reads t a ∧ IsItem t) as ts) (rest : Octets) :
    items p true (Print.commas ts ++ 0x5D :: rest) = .ok (as, rest) := by
  cases h with
  | nil => exact items_close p true rest
  | cons this later =>
    rw [commas_cons, List.append_assoc, items_part (nextItem_first this.2 _) this.1
      (ends_items _ rest), items_more later]
    rfl

theorem reads_value_array {depth : Nat} {vs : List Value} {ts : List Octets}
    (h : List.Forall₂ (fun v t => (value depth).Reads t v ∧ IsItem t) vs ts) :
    (value (depth + 1)).Reads (Print.array ts) (.array vs) := by
  intro rest _
  show (value (depth + 1)).run (0x5B :: (Print.commas _ ++ [0x5D] ++ rest)) = _
  rw [List.append_assoc]
  simp only [value, ofFirst, skipBlank_cons (b := 0x5B) (by decide)]
  rw [if_pos trivial, List.singleton_append, items_commas h]
  rfl

/-! ## Objects -/

/-- **Members are collected** in a dictionary, one after another. -/
theorem folds_insert {es : List (String × α)} {ms : List (String × Octets)}
    (h : List.Forall₂ (fun e m => m.1 = e.1 ∧ p.Reads m.2 e.2) es ms) (d : Dict α) :
    Folds (fun _ name => .ok (p.map fun a d => d.insert name a)) d ms
      (es.foldl (fun d e => d.insert e.1 e.2) d) := by
  induction h generalizing d with
  | nil => exact .nil
  | @cons e m es ms this _ ih =>
    obtain ⟨name, t⟩ := m
    obtain ⟨rfl, reads⟩ := this
    exact .cons rfl (reads.map _) (ih _)

theorem reads_value_members {depth : Nat} {es : List (String × Value)}
    {ms : List (String × Octets)}
    (h : List.Forall₂ (fun e m => m.1 = e.1 ∧ (value depth).Reads m.2 e.2) es ms) :
    (value (depth + 1)).Reads (Print.object ms) (.object (Dict.ofList es).entries) :=
  reads_value_object (folds_insert h .empty)

end Reader

open Reader

/-- **Any value** that fits is read back from its text. -/
theorem Value.reads_print {depth : Nat} {v : Value} (h : v.fits depth = true) :
    (value depth).Reads v.print v := by
  induction depth generalizing v with
  | zero =>
    cases v with
    | null => exact reads_value_null 0
    | bool b => exact reads_value_bool 0 b
    | number n =>
      cases n with
      | whole n => exact reads_value_whole 0 n
      | real x => cases h
    | string s => exact reads_value_string 0 s
    | array vs => cases h
    | object ms => cases h
  | succ depth ih =>
    cases v with
    | null => exact reads_value_null _
    | bool b => exact reads_value_bool _ b
    | number n =>
      cases n with
      | whole n => exact reads_value_whole _ n
      | real x => cases h
    | string s => exact reads_value_string _ s
    | array vs =>
      have fits : ∀ v ∈ vs, v.fits depth = true := List.all_eq_true.1 h
      show (value (depth + 1)).Reads (Print.array (printItems vs)) _
      rw [printItems_eq_map]
      refine reads_value_array ?_
      rw [List.forall₂_map_right_iff, List.forall₂_same]
      refine fun v hv => ⟨ih (fits v hv), ?_⟩
      obtain ⟨b, t, hb, blank, close, -⟩ := begins_print (fits v hv)
      exact ⟨b, t, hb, blank, close⟩
    | object ms =>
      obtain ⟨sorted, fits⟩ := Bool.and_eq_true_iff.1 h
      have ascending : ms.Pairwise fun a b => a.1 < b.1 := of_decide_eq_true sorted
      have reads : ∀ m ∈ ms, (value depth).Reads m.2.print m.2 := by
        intro m hm
        exact ih (List.all_eq_true.1 fits m hm)
      have entries : (Dict.ofList ms).entries = ms :=
        congrArg Dict.entries (Dict.ofList_eq (d := ⟨ms, ascending⟩) (.refl ms))
      show (value (depth + 1)).Reads (Print.object (printMembers ms)) (.object ms)
      rw [printMembers_eq_map]
      have members : List.Forall₂ (fun e m => m.1 = e.1 ∧ (value depth).Reads m.2 e.2) ms
          (ms.map fun m => (m.1, m.2.print)) :=
        List.forall₂_map_right_iff.2 (List.forall₂_same.2 fun m hm => ⟨rfl, reads m hm⟩)
      have read := reads_value_members members
      rwa [entries] at read

end Json
end ImageBuild
