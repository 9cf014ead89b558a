import ImageBuild.Options
import ImageBuild.Proofs.Json.Reads

/-!
# How versions are written

A number may be written with a plus sign and with leading zeros (`IsNumeral`), and a version
is two numbers with a dot between them, maybe behind the letter `v` (`Version.IsSpelled`). The
readers accept these texts and no others (`readUnsigned_eq_ok_iff`, `read_eq_ok_iff`), and a
text that is refused comes back as it is. The text of a version is one of them, so it is read
back, on its own, behind the letter, and as JSON (`Version.read_exact`).
-/

namespace ImageBuild

namespace Text

/-! ## Numbers -/

namespace Decimal

/-- The number that characters stand for, when they are decimal digits. -/
def value (ds : List Char) : Nat := ofDigits (ds.map fun c => c.toNat - '0'.toNat)

theorem value_chars (n : Nat) : value (chars n) = n := by
  have back : ∀ d < 10, (digitChar d).toNat - '0'.toNat = d := by decide
  have each : ∀ d ∈ digits n, (digitChar d).toNat - '0'.toNat = d := by
    intro d hd
    exact back d (lt_ten_of_mem_digits hd)
  rw [value, chars, List.map_map]
  exact (congrArg ofDigits ((List.map_congr_left each).trans (List.map_id _))).trans
    (ofDigits_digits n)

theorem isDigit_of_mem_chars {n : Nat} {c : Char} (h : c ∈ chars n) : c.isDigit = true := by
  have digit : ∀ d < 10, (digitChar d).isDigit = true := by decide
  obtain ⟨d, hd, rfl⟩ := List.mem_map.1 h
  exact digit d (lt_ten_of_mem_digits hd)

theorem chars_ne_nil (n : Nat) : chars n ≠ [] := by
  intro h
  exact digits_ne_nil n (List.map_eq_nil_iff.1 h)

end Decimal

/-- **How a number is written:** one or more decimal digits, maybe with a plus sign before
them. -/
def IsNumeral (cs : List Char) (n : Nat) : Prop :=
  ∃ ds, (cs = ds ∨ cs = '+' :: ds) ∧ ds ≠ [] ∧ (∀ c ∈ ds, c.isDigit = true) ∧ Decimal.value ds = n

theorem isNumeral_chars (n : Nat) : IsNumeral (Decimal.chars n) n :=
  ⟨_, .inl rfl, Decimal.chars_ne_nil n, fun _ => Decimal.isDigit_of_mem_chars,
    Decimal.value_chars n⟩

theorem IsNumeral.mem {cs : List Char} {n : Nat} (h : IsNumeral cs n) {c : Char} (hc : c ∈ cs) :
    c = '+' ∨ c.isDigit = true := by
  obtain ⟨ds, rfl | rfl, -, digits, -⟩ := h
  · exact .inr (digits c hc)
  · rcases List.mem_cons.1 hc with rfl | hc
    · exact .inl rfl
    · exact .inr (digits c hc)

namespace Integer

theorem digit?_eq (c : Char) :
    digit? 10 c = if c.isDigit = true then some (c.toNat - '0'.toNat) else none := by
  have zero : ('0' ≤ c) ↔ '0'.toNat ≤ c.toNat := Iff.rfl
  have digit : c.isDigit = true ↔ '0'.toNat ≤ c.toNat ∧ c.toNat ≤ '9'.toNat := by
    simp only [Char.isDigit, Bool.and_eq_true, decide_eq_true_eq]
    exact Iff.rfl
  have bounds : '0'.toNat = 48 ∧ '9'.toNat = 57 := ⟨rfl, rfl⟩
  unfold digit?
  by_cases h : c.isDigit = true
  · rw [if_pos h, if_pos]
    rw [digit] at h
    rw [zero]
    omega
  · rw [if_neg h, if_neg]
    rw [digit] at h
    rw [zero]
    omega

/-- **Digits are read** onto a number as long as the number stays in range. -/
theorem readDigits_eq_ok_iff {bound : Nat} {beyond : IntegerError} {cs : List Char} {acc n : Nat}
    (h : acc ≤ bound) :
    readDigits 10 bound beyond acc cs = .ok n ↔ (∀ c ∈ cs, c.isDigit = true) ∧
      (cs.map fun c => c.toNat - '0'.toNat).foldl (fun n d => n * 10 + d) acc = n ∧ n ≤ bound := by
  induction cs generalizing acc with
  | nil =>
    simp only [readDigits, Except.ok.injEq, List.map_nil, List.foldl_nil]
    constructor
    · rintro rfl
      exact ⟨by simp, rfl, h⟩
    · rintro ⟨-, rfl, -⟩
      rfl
  | cons c cs ih =>
    rw [readDigits, digit?_eq, List.forall_mem_cons, List.map_cons, List.foldl_cons]
    by_cases hc : c.isDigit = true
    · simp only [if_pos hc]
      split
      · next fits =>
        rw [ih fits]
        simp only [hc, true_and]
      · next tooLarge =>
        -- the number only grows with the digits that follow
        have grows := Decimal.le_foldl (cs.map fun c => c.toNat - '0'.toNat)
          (acc * 10 + (c.toNat - '0'.toNat))
        constructor
        · intro h
          cases h
        · rintro ⟨-, rfl, inRange⟩
          exact absurd (Nat.le_trans grows inRange) tooLarge
    · simp [hc]

/-- **A number is read** from what it may be written as, and from nothing else. -/
theorem readUnsigned_eq_ok_iff {bound n : Nat} {cs : List Char} :
    readUnsigned 10 bound cs = .ok n ↔ IsNumeral cs n ∧ n ≤ bound := by
  have digits (ds : List Char) (some_digit : ds ≠ []) :
      readDigits 10 bound .tooLarge 0 ds = .ok n ↔
        (ds ≠ [] ∧ (∀ c ∈ ds, c.isDigit = true) ∧ Decimal.value ds = n) ∧ n ≤ bound := by
    rw [readDigits_eq_ok_iff (Nat.zero_le _)]
    simp only [some_digit, Decimal.value, Decimal.ofDigits, ne_eq, not_false_eq_true, true_and,
      and_assoc]
  have sign : '+'.isDigit = false := rfl
  unfold readUnsigned
  split
  · simp [IsNumeral]
  · simp [IsNumeral, sign]
  · next ds lone =>
    have some_digit : ds ≠ [] := fun h => lone (by rw [h])
    rw [digits ds some_digit]
    refine and_congr_left fun _ => ⟨fun h => ⟨ds, .inr rfl, h⟩, ?_⟩
    rintro ⟨es, rfl | same, h⟩
    · exact absurd (h.2.1 '+' (List.mem_cons_self ..)) (by simp [sign])
    · rwa [(List.cons.inj same).2]
  · next nonempty _ unsigned =>
    rw [digits cs nonempty]
    refine and_congr_left fun _ => ⟨fun h => ⟨cs, .inl rfl, h⟩, ?_⟩
    rintro ⟨es, rfl | same, h⟩
    · exact h
    · exact absurd same (unsigned es)

end Integer
end Text

/-! ## Versions -/

namespace Version

open Text

variable {v : Version} {s : String}

theorem readNumber?_eq_some_iff {cs : List Char} {n : UInt32} :
    readNumber? cs = some n ↔ IsNumeral cs n.toNat := by
  have inRange : n.toNat ≤ Integer.maxU32 := Nat.le_of_lt_succ n.toNat_lt
  have read : Integer.readUnsigned 10 Integer.maxU32 cs = .ok n.toNat ↔ IsNumeral cs n.toNat := by
    rw [Integer.readUnsigned_eq_ok_iff, and_iff_left inRange]
  rw [← read, readNumber?]
  split
  · next m hm =>
    have fits : m < UInt32.size := Nat.lt_succ_of_le (Integer.readUnsigned_eq_ok_iff.1 hm).2
    rw [hm, Option.some.injEq, Except.ok.injEq, ← UInt32.toNat_inj, UInt32.toNat_ofNat_of_lt' fits]
  · next e he => simp [he]

theorem splitFirst_eq_some_iff {sep : Char} {cs a b : List Char} :
    splitFirst sep cs = some (a, b) ↔ cs = a ++ sep :: b ∧ sep ∉ a := by
  induction cs generalizing a with
  | nil => simp [splitFirst]
  | cons c cs ih =>
    rw [splitFirst]
    by_cases hc : c = sep
    · rw [if_pos hc]
      cases a with
      | nil => simp [hc, eq_comm]
      | cons d a =>
        have other : ¬ (c = d ∧ sep ∉ d :: a) := by
          rintro ⟨rfl, h⟩
          exact h (hc ▸ List.mem_cons_self ..)
        simp_all
    · rw [if_neg hc]
      cases a with
      | nil => simp [hc]
      | cons d a =>
        simp only [Option.map_eq_some_iff, Prod.exists, Prod.mk.injEq, List.cons.injEq,
          List.cons_append, List.mem_cons, not_or]
        constructor
        · rintro ⟨a', b', h, ⟨rfl, rfl⟩, rfl⟩
          obtain ⟨rfl, none⟩ := ih.1 h
          exact ⟨⟨rfl, rfl⟩, Ne.symm hc, none⟩
        · rintro ⟨⟨rfl, rfl⟩, -, none⟩
          exact ⟨a, b, ih.2 ⟨rfl, none⟩, ⟨rfl, rfl⟩, rfl⟩

/-- **How a version is written:** a number, a dot and a number, maybe behind the letter. Both
numbers are those of a version, so they are below 2 ^ 32. -/
def IsSpelled (v : Version) (s : String) : Prop :=
  ∃ a b, (s.toList = a ++ '.' :: b ∨ s.toList = 'v' :: (a ++ '.' :: b)) ∧
    IsNumeral a v.major.toNat ∧ IsNumeral b v.minor.toNat

theorem dropLetter_eq_iff {cs a b : List Char} {n : Nat} (h : IsNumeral a n) :
    dropLetter cs = a ++ '.' :: b ↔ cs = a ++ '.' :: b ∨ cs = 'v' :: (a ++ '.' :: b) := by
  have letter : a ++ '.' :: b ≠ 'v' :: (cs.drop 1) := by
    intro same
    have first : 'v' ∈ a ∨ 'v' = '.' := by
      cases a with
      | nil => exact .inr (List.cons.inj same).1.symm
      | cons c a => exact .inl ((List.cons.inj same).1 ▸ List.mem_cons_self ..)
    rcases first with first | first
    · exact absurd (h.mem first) (by decide)
    · exact absurd first (by decide)
  unfold dropLetter
  split
  · next cs =>
    simp only [List.cons.injEq, true_and]
    rw [or_iff_right (fun h => letter h.symm)]
  · next cs plain =>
    rw [or_iff_left (plain _)]

/-- **A version is read** from what it may be written as. -/
theorem read_eq_ok_iff : read s = .ok v ↔ v.IsSpelled s := by
  have point {a : List Char} {n : Nat} (h : IsNumeral a n) : '.' ∉ a := by
    intro hp
    exact absurd (h.mem hp) (by decide)
  constructor
  · intro h
    unfold read at h
    split at h
    · cases h
    next a b split =>
    split at h
    · cases h
    next major hmajor =>
    split at h
    · cases h
    next minor hminor =>
    cases h
    have ha := readNumber?_eq_some_iff.1 hmajor
    exact ⟨a, b, (dropLetter_eq_iff ha).1 (splitFirst_eq_some_iff.1 split).1, ha,
      readNumber?_eq_some_iff.1 hminor⟩
  · rintro ⟨a, b, written, ha, hb⟩
    have split := splitFirst_eq_some_iff.2 ⟨(dropLetter_eq_iff ha).2 written, point ha⟩
    simp only [read, split, readNumber?_eq_some_iff.2 ha, readNumber?_eq_some_iff.2 hb]

/-- **A text that is refused** comes back as it is. -/
theorem text_of_read_error {e : Invalid} (h : read s = .error e) : e.text = s := by
  unfold read at h
  split at h
  · cases h
    rfl
  split at h
  · cases h
    rfl
  split at h
  · cases h
    rfl
  · cases h

theorem read_eq_error_iff {e : Invalid} :
    read s = .error e ↔ e.text = s ∧ ∀ v : Version, ¬ v.IsSpelled s := by
  constructor
  · intro h
    refine ⟨text_of_read_error h, fun v written => ?_⟩
    rw [read_eq_ok_iff.2 written] at h
    cases h
  · rintro ⟨same, none⟩
    cases h : read s with
    | ok v => exact absurd (read_eq_ok_iff.1 h) (none v)
    | error e' =>
      cases e
      cases e'
      exact congrArg _ (congrArg _ ((text_of_read_error h).trans same.symm))

theorem toList_text (v : Version) :
    v.text.toList = Decimal.chars v.major.toNat ++ '.' :: Decimal.chars v.minor.toNat := by
  simp [text, Decimal.text]

theorem isSpelled_text (v : Version) : v.IsSpelled v.text :=
  ⟨_, _, .inl v.toList_text, isNumeral_chars _, isNumeral_chars _⟩

theorem isSpelled_letter_text (v : Version) : v.IsSpelled ("v" ++ v.text) := by
  refine ⟨_, _, .inr ?_, isNumeral_chars _, isNumeral_chars _⟩
  rw [String.toList_append, v.toList_text]
  rfl

/-- **A version** is read back from its text. -/
theorem parse?_text (v : Version) : parse? v.text = some v := by
  rw [parse?, read_eq_ok_iff.2 v.isSpelled_text]
  rfl

/-- **A version with the letter** before it is read back as well. -/
theorem parse?_letter_text (v : Version) : parse? ("v" ++ v.text) = some v := by
  rw [parse?, read_eq_ok_iff.2 v.isSpelled_letter_text]
  rfl

/-- **A version as JSON** is read back. -/
theorem ofJson_print (v : Version) : ofJson v.print = .ok v := by
  have string : Json.Reader.string.run v.print = .ok (v.text, []) := by
    have := Json.Reader.reads_string v.text [] (by simp [Json.Ends])
    rwa [List.append_nil] at this
  have whole : Json.Reader.string.parse v.print = .ok v.text := by
    simp only [Json.Reader.parse, string]
    rfl
  simp only [ofJson, string, read_eq_ok_iff.2 v.isSpelled_text, whole]

/-- **Reading is exact.** A text is read as a version exactly when it is a number, a dot and a
number, maybe behind one letter `v`, and the version has these two numbers. Any other text is
refused and comes back whole. A version is read back from its text, with the letter and
without it, and from its JSON form. -/
theorem read_exact :
    (∀ (s : String) (v : Version), read s = .ok v ↔ v.IsSpelled s) ∧
    (∀ (s : String) (e : Invalid),
      read s = .error e ↔ e.text = s ∧ ∀ v : Version, ¬ v.IsSpelled s) ∧
    ∀ v : Version, read v.text = .ok v ∧ read ("v" ++ v.text) = .ok v ∧ ofJson v.print = .ok v := by
  refine ⟨?_, ?_, ?_⟩
  · intro s v
    exact read_eq_ok_iff
  · intro s e
    exact read_eq_error_iff
  · intro v
    exact ⟨read_eq_ok_iff.2 v.isSpelled_text, read_eq_ok_iff.2 v.isSpelled_letter_text,
      v.ofJson_print⟩

end Version
end ImageBuild
