import ImageBuild.Json.Reader

/-!
# Passing over values

A member that a record does not know may hold any value, nested to any
depth. It is passed over with a list of the brackets that are still open.
-/

namespace ImageBuild.Json.Skip

/-- A bracket that is still open. -/
inductive Bracket where
  | list
  | object
  deriving DecidableEq

namespace Bracket

def close : Bracket → UInt8
  | .list => 0x5D
  | .object => 0x7D

/-- The fault of a text that ends before the bracket is closed. -/
def unclosed : Bracket → Cause
  | .list => .endOfList
  | .object => .endOfObject

/-- The fault of a value that neither a comma nor the closing bracket follows. -/
def unseparated : Bracket → Cause
  | .list => .expectedListEnd
  | .object => .expectedObjectEnd

end Bracket

/-- Where in a nested value the reader stands: before a value, or before
another part, which is the first one after an opening bracket. -/
inductive Place where
  | value
  | part (first : Bool)
  deriving DecidableEq

def token (s : Octets) : Except Fault (Option Bracket × Octets) :=
  match skipBlank s with
  | [] => .error ⟨.endOfValue, 0⟩
  | b :: rest =>
    match wordTail? b with
    | some (word, _) => (readWord word rest).map fun r => (none, r)
    | none =>
      if b = 0x2D then (Numeral.skip rest).map fun r => (none, r)
      else if Numeral.isDigit b then (Numeral.skip (b :: rest)).map fun r => (none, r)
      else if b = 0x22 then (Quoted.skip rest).map fun r => (none, r)
      else if b = 0x5B then .ok (some .list, rest)
      else if b = 0x7B then .ok (some .object, rest)
      else .error (.next .expectedValue (b :: rest))

/-- Passes over the name of a member and its colon. -/
def key (s : Octets) : Except Fault Octets :=
  match skipBlank s with
  | [] => .error ⟨.endOfObject, 0⟩
  | b :: rest =>
    if b = 0x22 then
      match Quoted.skip rest with
      | .error f => .error f
      | .ok r => readColon r
    else .error (.next .expectedKey (b :: rest))

/-- Passes over what stands before the value of a part. -/
def intro (o : Bracket) (s : Octets) : Except Fault Ahead :=
  match o with
  | .list => .ok (.part s)
  | .object => (key s).map .part

/-- Looks for the next part of an array or an object, after `first` no comma
being due. -/
def nextPart (o : Bracket) (first : Bool) (s : Octets) : Except Fault Ahead :=
  match skipBlank s with
  | [] => .error ⟨o.unclosed, 0⟩
  | b :: rest =>
    if b = 0x2C ∧ ¬ first then intro o rest
    else if b = o.close then .ok (.close rest)
    else if first then intro o (b :: rest)
    else .error (.next o.unseparated (b :: rest))

theorem length_token {s r : Octets} {o : Option Bracket} (h : token s = .ok (o, r)) :
    r.length < s.length := by
  have hs := length_skipBlank s
  unfold token at h
  split at h
  · cases h
  · next b rest hb =>
    rw [hb] at hs
    refine Nat.lt_of_le_of_lt ?_ hs
    split at h
    · obtain ⟨t, ht, he⟩ := Reader.of_map_ok h
      cases he
      exact length_readWord ht
    · split at h
      · obtain ⟨t, ht, he⟩ := Reader.of_map_ok h
        cases he
        exact Nat.le_of_lt (Numeral.length_skip ht)
      · split at h
        · obtain ⟨t, ht, he⟩ := Reader.of_map_ok h
          cases he
          exact Nat.le_of_lt_succ (Numeral.length_skip ht)
        · split at h
          · obtain ⟨t, ht, he⟩ := Reader.of_map_ok h
            cases he
            exact Nat.le_of_lt (Quoted.length_skip ht)
          · split at h
            · cases h
              exact Nat.le_refl _
            · split at h <;> cases h
              exact Nat.le_refl _

theorem length_key {s r : Octets} (h : key s = .ok r) : r.length < s.length := by
  have hs := length_skipBlank s
  unfold key at h
  split at h
  · cases h
  · next b rest hb =>
    rw [hb] at hs
    split at h
    · split at h
      · cases h
      · next hq =>
        exact Nat.lt_trans (Nat.lt_trans (length_readColon h) (Quoted.length_skip hq)) hs
    · cases h

theorem length_intro {o : Bracket} {s : Octets} {a : Ahead} (h : intro o s = .ok a) :
    a.rest.length ≤ s.length := by
  unfold intro at h
  split at h
  · cases h
    exact Nat.le_refl _
  · obtain ⟨t, ht, he⟩ := Reader.of_map_ok h
    cases he
    exact Nat.le_of_lt (length_key ht)

theorem not_close_of_intro {o : Bracket} {s r : Octets} : intro o s ≠ .ok (.close r) := by
  intro h
  unfold intro at h
  split at h
  · cases h
  · obtain ⟨t, ht, he⟩ := Reader.of_map_ok h
    cases he

theorem length_nextPart {o : Bracket} {first : Bool} {s : Octets} {a : Ahead}
    (h : nextPart o first s = .ok a) : a.rest.length ≤ s.length := by
  have hs := length_skipBlank s
  unfold nextPart at h
  split at h
  · cases h
  · next b rest hb =>
    rw [hb] at hs
    split at h
    · exact Nat.le_trans (length_intro h) (Nat.le_of_succ_le hs)
    · split at h
      · cases h
        exact Nat.le_of_succ_le hs
      · split at h
        · exact Nat.le_trans (length_intro h) hs
        · cases h

theorem length_nextPart_close {o : Bracket} {first : Bool} {s r : Octets}
    (h : nextPart o first s = .ok (.close r)) : r.length < s.length := by
  have hs := length_skipBlank s
  unfold nextPart at h
  split at h
  · cases h
  · next b rest hb =>
    rw [hb] at hs
    split at h
    · exact absurd h not_close_of_intro
    · split at h
      · cases h
        exact hs
      · split at h
        · exact absurd h not_close_of_intro
        · cases h

/-- How much the place counts when no octet is passed. -/
def Place.rank : Place → Nat
  | .value => 0
  | .part _ => 1

/-- Passes over the rest of a nested value with these brackets open. -/
def run (place : Place) (stack : List Bracket) (s : Octets) : Except Fault Octets :=
  match place, stack with
  | .value, stack =>
    match _ht : token s with
    | .error f => .error f
    | .ok (some o, r) => run (.part true) (o :: stack) r
    | .ok (none, r) => run (.part false) stack r
  | .part _, [] => .ok s
  | .part first, o :: stack =>
    match _hn : nextPart o first s with
    | .error f => .error f
    | .ok (.close r) => run (.part false) stack r
    | .ok (.part r) => run .value (o :: stack) r
termination_by (s.length, place.rank)
decreasing_by
  · exact .left _ _ (length_token _ht)
  · exact .left _ _ (length_token _ht)
  · exact .left _ _ (length_nextPart_close _hn)
  · rcases Nat.lt_or_eq_of_le (length_nextPart _hn) with h | h
    · exact .left _ _ h
    · simp only [Ahead.rest] at h
      rw [h]
      exact .right _ Nat.one_pos

theorem length_run {place : Place} {stack : List Bracket} {s r : Octets}
    (h : run place stack s = .ok r) : r.length ≤ s.length := by
  fun_induction run place stack s with
  | case1 => cases h
  | case2 s stack o u ht ih => exact Nat.le_trans (ih h) (Nat.le_of_lt (length_token ht))
  | case3 s stack u ht ih => exact Nat.le_trans (ih h) (Nat.le_of_lt (length_token ht))
  | case4 =>
    cases h
    exact Nat.le_refl _
  | case5 => cases h
  | case6 s first o stack u hn ih => exact Nat.le_trans (ih h) (length_nextPart hn)
  | case7 s first o stack u hn ih => exact Nat.le_trans (ih h) (length_nextPart hn)

end Skip

namespace Reader

def skip : Reader Unit where
  run s := (Skip.run .value [] s).map fun r => ((), r)
  shorter {s a r} h := by
    obtain ⟨t, ht, he⟩ := of_map_ok h
    cases he
    unfold Skip.run at ht
    split at ht
    · cases ht
    · next hk => exact Nat.lt_of_le_of_lt (Skip.length_run ht) (Skip.length_token hk)
    · next hk => exact Nat.lt_of_le_of_lt (Skip.length_run ht) (Skip.length_token hk)

end Reader
end ImageBuild.Json
