import ImageBuild.Json.Printer
import ImageBuild.Json.Reader

/-!
# Written strings and numbers are read back

A string is escaped octet by octet, and every escape is read as the octet that
it was written for (`collect_escape`). A number is written in decimal digits;
what follows it must not look like a part of it (`Ends`).
-/

namespace ImageBuild.Json

/-! ## Strings -/

namespace Quoted

theorem hexValue?_octet : ∀ d < 16, hexValue? (Print.octet (Text.Decimal.hexChar d)) = some d := by
  decide

theorem utf8EncodeChar_ofNat : ∀ n < 0x80, String.utf8EncodeChar (Char.ofNat n) = [UInt8.ofNat n] := by
  decide

theorem collect_plain (acc : Octets) {b : UInt8} (s : Octets) (hq : b ≠ 0x22) (hb : b ≠ 0x5C)
    (hc : ¬ b < 0x20) : collect acc (b :: s) = collect (b :: acc) s := by
  rw [collect, if_neg hq, if_neg hb, if_neg hc]

theorem collect_quote (acc s : Octets) : collect acc (0x22 :: s) = .ok (acc.reverse, s) := by
  rw [collect, if_pos rfl]

theorem collect_of_readEscape (acc : Octets) {s o r : Octets} (h : readEscape s = .ok (o, r)) :
    collect acc (0x5C :: s) = collect (o.reverse ++ acc) r := by
  rw [collect, if_neg (by decide), if_pos rfl]
  split
  · next f hf => rw [h] at hf; cases hf
  · next o' r' hf =>
    rw [h] at hf
    cases hf
    rfl

theorem collect_named (acc : Octets) {l o : UInt8} (s : Octets) (hl : l ≠ 0x75)
    (h : named? l = some o) : collect acc (0x5C :: l :: s) = collect (o :: acc) s :=
  collect_of_readEscape acc (o := [o]) (by rw [readEscape, if_neg hl, h])

theorem collect_control (acc : Octets) {b : UInt8} (s : Octets) (h : b < 0x20) :
    collect acc (0x5C :: 0x75 :: 0x30 :: 0x30 ::
        Print.octet (Text.Decimal.hexChar (b.toNat / 16)) ::
        Print.octet (Text.Decimal.hexChar (b.toNat % 16)) :: s) =
      collect (b :: acc) s := by
  have hn : b.toNat < 0x20 := h
  have unit : readUnit (0x30 :: 0x30 :: Print.octet (Text.Decimal.hexChar (b.toNat / 16)) ::
      Print.octet (Text.Decimal.hexChar (b.toNat % 16)) :: s) = .ok (b.toNat, s) := by
    have h0 : hexValue? 0x30 = some 0 := rfl
    simp only [readUnit, h0, hexValue?_octet (b.toNat / 16) (by omega),
      hexValue?_octet (b.toNat % 16) (by omega)]
    congr 2
    omega
  have point : readCodePoint (0x30 :: 0x30 :: Print.octet (Text.Decimal.hexChar (b.toNat / 16)) ::
      Print.octet (Text.Decimal.hexChar (b.toNat % 16)) :: s) = .ok (Char.ofNat b.toNat, s) := by
    rw [readCodePoint, unit]
    dsimp only
    rw [if_neg (by omega), if_neg (by omega)]
  refine collect_of_readEscape acc (o := [b]) ?_
  rw [readEscape, if_pos rfl, point]
  dsimp only
  rw [utf8EncodeChar_ofNat _ (by omega), UInt8.ofNat_toNat]

/-- **An escape** stands for the octet that was escaped. -/
theorem collect_escape (acc : Octets) (b : UInt8) (s : Octets) :
    collect acc (Print.escape b ++ s) = collect (b :: acc) s := by
  unfold Print.escape
  iterate 7
    split
    · next h =>
      subst h
      exact collect_named acc s (by decide) rfl
  split
  · next h => exact collect_control acc s h
  · next hq hb _ _ _ _ _ hc => exact collect_plain acc s hq hb hc

/-- **A written string** is collected up to its closing quote. -/
theorem collect_escapes (acc o s : Octets) :
    collect acc (o.flatMap Print.escape ++ 0x22 :: s) = .ok (acc.reverse ++ o, s) := by
  induction o generalizing acc with
  | nil => simp [collect_quote]
  | cons b o ih =>
    rw [List.flatMap_cons, List.append_assoc, collect_escape, ih]
    simp

/-- **Written text** is read back. -/
theorem read_escapes (t : String) (s : Octets) :
    read ((Text.encode t).flatMap Print.escape ++ 0x22 :: s) = .ok (t, s) := by
  rw [read, collect_escapes]
  simp [Text.decode?_encode]

end Quoted

/-! ## Numbers -/

namespace Numeral

def isPart (b : UInt8) : Bool := isDigit b || b == 0x2E || b == 0x65 || b == 0x45

end Numeral

/-- **What follows** a value does not look like a part of a number. -/
def Ends (s : Octets) : Prop := ∀ b ∈ s.head?, Numeral.isPart b = false

theorem ends_cons {b : UInt8} {s : Octets} (h : Numeral.isPart b = false) : Ends (b :: s) := by
  intro c hc
  cases hc
  exact h

namespace Numeral

theorem isDigit_octet : ∀ d < 10, isDigit (Print.octet (Text.Decimal.digitChar d)) = true := by
  decide

theorem digitValue_octet : ∀ d < 10, digitValue (Print.octet (Text.Decimal.digitChar d)) = d := by
  decide

theorem octet_ne_zero : ∀ d < 10, d ≠ 0 → Print.octet (Text.Decimal.digitChar d) ≠ 0x30 := by
  decide

def octets (ds : List Nat) : Octets := ds.map fun d => Print.octet (Text.Decimal.digitChar d)

theorem nat_eq (n : Nat) : Print.nat n = octets (Text.Decimal.digits n) := by
  simp [Print.nat, Print.ascii, Text.Decimal.chars, octets]

theorem all_isDigit {ds : List Nat} (h : ∀ d ∈ ds, d < 10) : ∀ b ∈ octets ds, isDigit b = true := by
  intro b hb
  obtain ⟨d, hd, rfl⟩ := List.mem_map.1 hb
  exact isDigit_octet d (h d hd)

theorem digits_eq (n : Nat) :
    n < 10 ∧ Text.Decimal.digits n = [n] ∨
      ∃ d ds, d ≠ 0 ∧ Text.Decimal.digits n = d :: ds := by
  induction n using Nat.strongRecOn with
  | _ n ih =>
    by_cases hn : n < 10
    · refine .inl ⟨hn, ?_⟩
      rw [Text.Decimal.digits, if_pos hn]
    · refine .inr ?_
      rw [Text.Decimal.digits, if_neg hn]
      rcases ih (n / 10) (by omega) with ⟨hlt, he⟩ | ⟨d, ds, hd, he⟩
      · exact ⟨n / 10, [n % 10], by omega, by rw [he]; rfl⟩
      · exact ⟨d, ds ++ [n % 10], hd, by rw [he]; rfl⟩

theorem collectWhole_octets (ds : List Nat) (hd : ∀ d ∈ ds, d < 10) (n : Nat)
    (h : ds.foldl (fun n d => n * 10 + d) n ≤ Text.Integer.maxU64) :
    collectWhole n (octets ds) = ⟨ds.foldl (fun n d => n * 10 + d) n, 0⟩ := by
  induction ds generalizing n with
  | nil => rfl
  | cons d ds ih =>
    have value := digitValue_octet d (hd d (List.mem_cons_self ..))
    -- a number that fits as a whole fits digit by digit
    have fits : n * 10 + d ≤ Text.Integer.maxU64 := Nat.le_trans (Text.Decimal.le_foldl ds _) h
    show collectWhole n (Print.octet (Text.Decimal.digitChar d) :: octets ds) = _
    rw [collectWhole, value, if_pos fits]
    exact ih (fun d hd' => hd d (List.mem_cons_of_mem _ hd')) _ h

theorem readAfter_ends (negative : Bool) {ds s : Octets} (hs : Ends s) {n : Nat}
    (h : collectWhole 0 ds = ⟨n, 0⟩) : readAfter negative ds s = .ok (ofSignificand negative n, s) := by
  unfold readAfter
  rw [h]
  -- a point or an exponent would go on the number
  split
  · exact absurd (hs 0x2E rfl) (by decide)
  · exact absurd (hs 0x65 rfl) (by decide)
  · exact absurd (hs 0x45 rfl) (by decide)
  · rfl

theorem not_isDigit_of_ends {b : UInt8} {s : Octets} (h : Ends (b :: s)) : isDigit b = false := by
  have := h b rfl
  simp only [isPart, Bool.or_eq_false_iff] at this
  exact this.1.1.1

theorem takeWhile_ends {ds s : Octets} (hd : ∀ b ∈ ds, isDigit b = true) (hs : Ends s) :
    (ds ++ s).takeWhile isDigit = ds ∧ (ds ++ s).dropWhile isDigit = s := by
  have stop : s.takeWhile isDigit = [] ∧ s.dropWhile isDigit = s := by
    cases s with
    | nil => exact ⟨rfl, rfl⟩
    | cons b s => simp [not_isDigit_of_ends hs]
  rw [List.takeWhile_append_of_pos hd, List.dropWhile_append_of_pos hd, stop.1, stop.2]
  simp

/-- **A written number** is read back, behind a sign or without one. -/
theorem read_nat (negative : Bool) {n : Nat} (hn : n ≤ Text.Integer.maxU64) {s : Octets}
    (hs : Ends s) : read negative (Print.nat n ++ s) = .ok (ofSignificand negative n, s) := by
  have lt (d) (hd : d ∈ Text.Decimal.digits n) : d < 10 := Text.Decimal.lt_ten_of_mem_digits hd
  have value : Text.Decimal.ofDigits (Text.Decimal.digits n) = n := Text.Decimal.ofDigits_digits n
  have collected : collectWhole 0 (octets (Text.Decimal.digits n)) = ⟨n, 0⟩ := by
    rw [collectWhole_octets _ lt 0 (by rw [← Text.Decimal.ofDigits, value]; exact hn)]
    rw [← Text.Decimal.ofDigits, value]
  rw [nat_eq]
  rcases digits_eq n with ⟨hlt, he⟩ | ⟨d, ds, hd, he⟩
  · by_cases hz : n = 0
    · -- a zero stands alone
      subst hz
      rw [he] at collected ⊢
      show read negative (0x30 :: s) = _
      unfold read
      dsimp only
      rw [if_pos rfl]
      cases s with
      | nil => exact readAfter_ends negative hs collected
      | cons b s =>
        dsimp only
        rw [not_isDigit_of_ends hs, if_neg (by decide)]
        exact readAfter_ends negative hs collected
    · rw [he] at collected ⊢
      show read negative (Print.octet (Text.Decimal.digitChar n) :: s) = _
      have none : ∀ b ∈ ([] : Octets), isDigit b = true := by simp
      obtain ⟨ht, hr⟩ := takeWhile_ends none hs
      rw [List.nil_append] at ht hr
      unfold read
      dsimp only
      rw [if_neg (octet_ne_zero n hlt hz), if_pos (isDigit_octet n hlt), ht, hr]
      exact readAfter_ends negative hs collected
  · rw [he] at collected lt ⊢
    have hlt := lt d (List.mem_cons_self ..)
    obtain ⟨ht, hr⟩ := takeWhile_ends
      (all_isDigit fun c hc => lt c (List.mem_cons_of_mem _ hc)) hs
    -- the first digit is not zero, so the other ones belong to it
    show read negative (Print.octet (Text.Decimal.digitChar d) :: (octets ds ++ s)) = _
    unfold read
    dsimp only
    rw [if_neg (octet_ne_zero d hlt hd), if_pos (isDigit_octet d hlt), ht, hr]
    exact readAfter_ends negative hs collected

end Numeral
end ImageBuild.Json
