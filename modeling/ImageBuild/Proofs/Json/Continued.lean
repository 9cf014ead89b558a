import ImageBuild.Json.Record
import ImageBuild.Proofs.Json.Scalars

/-!
# Tokens in a text that goes on

What was read from the front of a text is read from every longer text that begins with it.
Strings end with their quotes, so this holds of them without more (`Quoted.read_append`). A
number ends where an octet comes that cannot go on it, so it holds of a number that was
not the last thing in the text (`Numeral.read_append`).
-/

namespace ImageBuild.Json

theorem ne_nil_of_length_le {s r : Octets} (hr : r ≠ []) (h : r.length ≤ s.length) : s ≠ [] :=
  List.ne_nil_of_length_pos (Nat.lt_of_lt_of_le (List.length_pos_iff.2 hr) h)

/-! ## Numbers -/

namespace Numeral

theorem span_append {p : UInt8 → Bool} {s : Octets} (h : s.dropWhile p ≠ []) (t : Octets) :
    (s ++ t).takeWhile p = s.takeWhile p ∧ (s ++ t).dropWhile p = s.dropWhile p ++ t := by
  induction s with
  | nil => exact absurd rfl h
  | cons b s ih =>
    by_cases hb : p b = true
    · rw [List.dropWhile_cons_of_pos hb] at h ⊢
      obtain ⟨taken, dropped⟩ := ih h
      rw [List.cons_append, List.takeWhile_cons_of_pos hb, List.takeWhile_cons_of_pos hb,
        List.dropWhile_cons_of_pos hb, taken, dropped]
      exact ⟨rfl, rfl⟩
    · rw [List.cons_append, List.takeWhile_cons_of_neg hb, List.takeWhile_cons_of_neg hb,
        List.dropWhile_cons_of_neg hb, List.dropWhile_cons_of_neg hb]
      exact ⟨rfl, rfl⟩

section Numbers

variable {negative expNegative : Bool} {d : Decimal} {e : Nat} {s r : Octets} {n : Number}

theorem finish_append (h : readExponent.finish negative expNegative d s e = .ok (n, r))
    (t : Octets) :
    readExponent.finish negative expNegative d (s ++ t) e = .ok (n, r ++ t) := by
  unfold readExponent.finish at h ⊢
  dsimp only at h ⊢
  split at h
  · cases h
    rfl
  · cases h

theorem readExponent_append (h : readExponent negative expNegative d e s = .ok (n, r))
    (hr : r ≠ []) (t : Octets) :
    readExponent negative expNegative d e (s ++ t) = .ok (n, r ++ t) := by
  fun_induction readExponent negative expNegative d e s with
  | case1 e =>
    -- the exponent would end with the text
    unfold readExponent.finish at h
    dsimp only at h
    split at h <;> cases h
    exact absurd rfl hr
  | case2 e b rest digit small ih =>
    rw [List.cons_append, readExponent, if_pos digit, if_pos small]
    exact ih h
  | case3 => cases h
  | case4 e b rest digit large zero =>
    cases h
    rw [List.cons_append, readExponent, if_pos digit, if_neg large, if_neg zero,
      (span_append hr t).2]
  | case5 e b rest digit =>
    rw [List.cons_append, readExponent, if_neg digit]
    exact finish_append h t

theorem splitSign_append (hs : s ≠ []) (t : Octets) :
    splitSign (s ++ t) = ((splitSign s).1, (splitSign s).2 ++ t) := by
  obtain ⟨b, s, rfl⟩ := List.exists_cons_of_ne_nil hs
  rw [List.cons_append]
  by_cases plus : b = 0x2B
  · subst plus
    rfl
  by_cases minus : b = 0x2D
  · subst minus
    rfl
  · simp [splitSign, plus, minus]

theorem readScaled_append (h : readScaled negative d s = .ok (n, r)) (hr : r ≠ [])
    (t : Octets) : readScaled negative d (s ++ t) = .ok (n, r ++ t) := by
  have hs : s ≠ [] := by
    rintro rfl
    cases h
  unfold readScaled at h ⊢
  rw [splitSign_append hs]
  split at h
  · cases h
  · next b rest hb =>
    rw [hb]
    dsimp only [List.cons_append]
    split at h
    · next digit =>
      rw [if_pos digit]
      exact readExponent_append h hr t
    · cases h

theorem readTail_append (h : readTail negative d s = .ok (n, r)) (hr : r ≠ []) (t : Octets) :
    readTail negative d (s ++ t) = .ok (n, r ++ t) := by
  unfold readTail at h
  split at h
  · next rest => exact readScaled_append h hr t
  · next rest => exact readScaled_append h hr t
  · next small large =>
    split at h
    · next hn =>
      cases h
      obtain ⟨b, s, rfl⟩ := List.exists_cons_of_ne_nil hr
      have e : b ≠ 0x65 := by
        rintro rfl
        exact small _ rfl
      have E : b ≠ 0x45 := by
        rintro rfl
        exact large _ rfl
      simp [readTail, e, E, hn]
    · cases h

theorem readFraction_append (h : readFraction negative d s = .ok (n, r)) (hr : r ≠ [])
    (t : Octets) : readFraction negative d (s ++ t) = .ok (n, r ++ t) := by
  unfold readFraction at h
  split at h
  · cases h
  · next ds some =>
    have rest := ne_nil_of_length_le hr (length_readTail h)
    obtain ⟨taken, dropped⟩ := span_append rest t
    unfold readFraction
    rw [taken, dropped]
    split
    · next none => exact absurd none some
    · exact readTail_append h hr t

theorem readAfter_append {ds : Octets} (h : readAfter negative ds s = .ok (n, r)) (hr : r ≠ [])
    (t : Octets) : readAfter negative ds (s ++ t) = .ok (n, r ++ t) := by
  unfold readAfter at h
  dsimp only at h
  split at h
  · exact readFraction_append h hr t
  · exact readTail_append h hr t
  · exact readTail_append h hr t
  · next point small large =>
    split at h
    · next whole =>
      cases h
      obtain ⟨b, s, rfl⟩ := List.exists_cons_of_ne_nil hr
      have point : b ≠ 0x2E := fun h => point s (h ▸ rfl)
      have small : b ≠ 0x65 := fun h => small s (h ▸ rfl)
      have large : b ≠ 0x45 := fun h => large s (h ▸ rfl)
      simp [readAfter, point, small, large, whole]
    · next scaled =>
      obtain ⟨b, s, rfl⟩ := List.exists_cons_of_ne_nil (ne_nil_of_length_le hr (length_readTail h))
      have point : b ≠ 0x2E := fun h => point s (h ▸ rfl)
      have small : b ≠ 0x65 := fun h => small s (h ▸ rfl)
      have large : b ≠ 0x45 := fun h => large s (h ▸ rfl)
      have later := readTail_append h hr t
      simpa [readAfter, point, small, large, scaled] using later

/-- **A number** that ends before the text does. -/
theorem read_append (h : read negative s = .ok (n, r)) (hr : r ≠ []) (t : Octets) :
    read negative (s ++ t) = .ok (n, r ++ t) := by
  unfold read at h
  split at h
  · cases h
  · next b rest =>
    rw [List.cons_append]
    split at h
    · next zero =>
      subst zero
      split at h
      · next c more =>
        split at h
        · cases h
        · next digit =>
          rw [List.cons_append, read, if_pos rfl, if_neg digit]
          exact readAfter_append h hr t
      · exact absurd rfl (ne_nil_of_length_le hr (length_readAfter h))
    · next zero =>
      split at h
      · next digit =>
        have rest := ne_nil_of_length_le hr (length_readAfter h)
        obtain ⟨taken, dropped⟩ := span_append rest t
        unfold read
        dsimp only
        rw [if_neg zero, if_pos digit, taken, dropped]
        exact readAfter_append h hr t
      · cases h

theorem skipFraction_append (h : skipFraction s = .ok r) (hr : r ≠ []) (t : Octets) :
    skipFraction (s ++ t) = .ok (r ++ t) := by
  unfold skipFraction at h
  split at h
  · next rest =>
    split at h
    · cases h
    · next some =>
      cases h
      obtain ⟨taken, dropped⟩ := span_append hr t
      simp only [List.cons_append, skipFraction, taken, dropped]
  · next point =>
    cases h
    obtain ⟨b, s, rfl⟩ := List.exists_cons_of_ne_nil hr
    have point : b ≠ 0x2E := fun h => point s (h ▸ rfl)
    simp [skipFraction, point]

theorem skipScaled_append (h : skipScaled s = .ok r) (hr : r ≠ []) (t : Octets) :
    skipScaled (s ++ t) = .ok (r ++ t) := by
  have hs := ne_nil_of_length_le hr (length_skipScaled h)
  unfold skipScaled at h ⊢
  rw [splitSign_append hs]
  split at h
  · cases h
  · next b rest hb =>
    split at h
    · next digit =>
      cases h
      rw [hb]
      dsimp only [List.cons_append]
      rw [if_pos digit, (span_append hr t).2]
    · cases h

theorem skipExponent_append (h : skipExponent s = .ok r) (hr : r ≠ []) (t : Octets) :
    skipExponent (s ++ t) = .ok (r ++ t) := by
  unfold skipExponent at h
  split at h
  · exact skipScaled_append h hr t
  · exact skipScaled_append h hr t
  · next small large =>
    cases h
    obtain ⟨b, s, rfl⟩ := List.exists_cons_of_ne_nil hr
    have small : b ≠ 0x65 := fun h => small s (h ▸ rfl)
    have large : b ≠ 0x45 := fun h => large s (h ▸ rfl)
    simp [skipExponent, small, large]

theorem skip_append (h : skip s = .ok r) (hr : r ≠ []) (t : Octets) :
    skip (s ++ t) = .ok (r ++ t) := by
  have both {u : Octets} (h : (skipFraction u >>= skipExponent) = .ok r) :
      (skipFraction (u ++ t) >>= skipExponent) = .ok (r ++ t) ∧ u ≠ [] := by
    cases hf : skipFraction u with
    | error f =>
      rw [hf] at h
      cases h
    | ok v =>
      rw [hf] at h
      have hv := ne_nil_of_length_le hr (length_skipExponent h)
      rw [skipFraction_append hf hv]
      exact ⟨skipExponent_append h hr t, ne_nil_of_length_le hv (length_skipFraction hf)⟩
  unfold skip at h
  split at h
  · cases h
  · next b rest =>
    rw [List.cons_append]
    split at h
    · next zero =>
      subst zero
      split at h
      · next c more =>
        split at h
        · cases h
        · next digit =>
          rw [List.cons_append, skip, if_pos rfl, if_neg digit]
          exact (both h).1
      · cases h
        exact absurd rfl hr
    · next zero =>
      split at h
      · next digit =>
        obtain ⟨later, rest⟩ := both h
        unfold skip
        dsimp only
        rw [if_neg zero, if_pos digit, (span_append rest t).2]
        exact later
      · cases h

end Numbers
end Numeral

/-! ## Strings -/

namespace Quoted

theorem readUnit_append {s r : Octets} {n : Nat} (h : readUnit s = .ok (n, r)) (t : Octets) :
    readUnit (s ++ t) = .ok (n, r ++ t) := by
  unfold readUnit at h
  split at h
  · split at h
    · next ha hb hc hd =>
      cases h
      simp only [List.cons_append, readUnit, ha, hb, hc, hd]
    · cases h
  · cases h

theorem readLow_append {high : Nat} {s r : Octets} {c : Char} (h : readLow high s = .ok (c, r))
    (t : Octets) : readLow high (s ++ t) = .ok (c, r ++ t) := by
  unfold readLow at h ⊢
  split at h
  · cases h
  · next hu =>
    rw [readUnit_append hu]
    dsimp only
    split at h
    · next low =>
      simp only [Except.ok.injEq, Prod.mk.injEq] at h
      rw [if_pos low, h.1, h.2]
    · cases h

theorem expectOctet_append {b : UInt8} {s r : Octets} (h : expectOctet b s = .ok r)
    (t : Octets) : expectOctet b (s ++ t) = .ok (r ++ t) := by
  unfold expectOctet at h
  split at h
  · cases h
  · split at h
    · next same =>
      cases h
      rw [List.cons_append, expectOctet, if_pos same]
    · cases h

theorem readPair_append {high : Nat} {s r : Octets} {c : Char} (h : readPair high s = .ok (c, r))
    (t : Octets) : readPair high (s ++ t) = .ok (c, r ++ t) := by
  unfold readPair at h ⊢
  split at h
  · cases h
  · next first =>
    split at h
    · cases h
    · next second =>
      simp only [expectOctet_append first, expectOctet_append second]
      exact readLow_append h t

theorem readCodePoint_append {s r : Octets} {c : Char} (h : readCodePoint s = .ok (c, r))
    (t : Octets) : readCodePoint (s ++ t) = .ok (c, r ++ t) := by
  unfold readCodePoint at h ⊢
  split at h
  · cases h
  · next hu =>
    rw [readUnit_append hu]
    dsimp only
    split at h
    · cases h
    · next low =>
      rw [if_neg low]
      split at h
      · next high =>
        rw [if_pos high]
        exact readPair_append h t
      · next high =>
        cases h
        rw [if_neg high]

theorem readEscape_append {s r o : Octets} (h : readEscape s = .ok (o, r)) (t : Octets) :
    readEscape (s ++ t) = .ok (o, r ++ t) := by
  unfold readEscape at h
  split at h
  · cases h
  · rw [List.cons_append]
    split at h
    · next unit =>
      split at h
      · cases h
      · next hc =>
        cases h
        rw [readEscape, if_pos unit, readCodePoint_append hc]
    · next unit =>
      split at h
      · next named =>
        cases h
        rw [readEscape, if_neg unit, named]
      · cases h

theorem collect_append {acc s o r : Octets} (h : collect acc s = .ok (o, r)) (t : Octets) :
    collect acc (s ++ t) = .ok (o, r ++ t) := by
  fun_induction collect acc s with
  | case1 => cases h
  | case2 =>
    cases h
    rw [List.cons_append, collect, if_pos rfl]
  | case3 => cases h
  | case4 acc rest o after escape _ ih =>
    rw [List.cons_append, collect_of_readEscape acc (readEscape_append escape t)]
    exact ih h
  | case5 => cases h
  | case6 acc b rest quote escape visible ih =>
    rw [List.cons_append, collect, if_neg quote, if_neg escape, if_neg visible]
    exact ih h

/-- **A string** is read up to its quote. -/
theorem read_append {s r : Octets} {x : String} (h : read s = .ok (x, r)) (t : Octets) :
    read (s ++ t) = .ok (x, r ++ t) := by
  unfold read at h ⊢
  split at h
  · cases h
  · next collected =>
    rw [collect_append collected]
    dsimp only
    split at h
    · cases h
      rfl
    · cases h

theorem skipEscape_append {s r : Octets} (h : skipEscape s = .ok r) (t : Octets) :
    skipEscape (s ++ t) = .ok (r ++ t) := by
  unfold skipEscape at h
  split at h
  · cases h
  · next b rest =>
    rw [List.cons_append]
    split at h
    · next unit =>
      cases hu : readUnit rest with
      | error f =>
        rw [hu] at h
        cases h
      | ok p =>
        rw [hu] at h
        cases h
        rw [skipEscape, if_pos unit, readUnit_append hu]
        rfl
    · next unit =>
      split at h
      · next named =>
        cases h
        rw [skipEscape, if_neg unit, named]
      · cases h

theorem skip_append {s r : Octets} (h : skip s = .ok r) (t : Octets) :
    skip (s ++ t) = .ok (r ++ t) := by
  fun_induction skip s with
  | case1 => cases h
  | case2 =>
    cases h
    rw [List.cons_append, skip, if_pos rfl]
  | case3 => cases h
  | case4 rest after escape _ ih =>
    have later := skipEscape_append escape t
    rw [List.cons_append, skip, if_neg (by decide), if_pos rfl]
    split
    · next f fault =>
      rw [later] at fault
      cases fault
    · next after' passed =>
      rw [later] at passed
      cases passed
      exact ih h
  | case5 => cases h
  | case6 b rest quote escape visible ih =>
    rw [List.cons_append, skip, if_neg quote, if_neg escape, if_neg visible]
    exact ih h

end Quoted
end ImageBuild.Json
