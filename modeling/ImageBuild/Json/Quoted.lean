import ImageBuild.Json.Fault
import ImageBuild.Text.Utf8

/-!
# Reading quoted strings

A string runs up to the first quote that is not escaped. Its octets are
collected with the escapes replaced, and must then be UTF-8. An escape by
code unit stands for a character, or for one half of a pair that must be
complete.
-/

namespace ImageBuild.Json.Quoted

def hexValue? (b : UInt8) : Option Nat :=
  if 0x30 ≤ b ∧ b ≤ 0x39 then some (b.toNat - 0x30)
  else if 0x41 ≤ b ∧ b ≤ 0x46 then some (b.toNat - 0x37)
  else if 0x61 ≤ b ∧ b ≤ 0x66 then some (b.toNat - 0x57)
  else none

def readUnit : Octets → Except Fault (Nat × Octets)
  | a :: b :: c :: d :: rest =>
    match hexValue? a, hexValue? b, hexValue? c, hexValue? d with
    | some a, some b, some c, some d => .ok (((a * 16 + b) * 16 + c) * 16 + d, rest)
    | _, _, _, _ => .error (.here .invalidEscape rest)
  | _ => .error ⟨.endOfString, 0⟩

/-- Reads the second code unit of a pair that begins with `high`. -/
def readLow (high : Nat) (s : Octets) : Except Fault (Char × Octets) :=
  match readUnit s with
  | .error f => .error f
  | .ok (low, rest) =>
    if 0xDC00 ≤ low ∧ low ≤ 0xDFFF then
      .ok (Char.ofNat ((high - 0xD800) * 0x400 + (low - 0xDC00) + 0x10000), rest)
    else .error (.here .loneSurrogate rest)

def expectOctet (b : UInt8) : Octets → Except Fault Octets
  | [] => .error ⟨.endOfString, 0⟩
  | a :: rest => if a = b then .ok rest else .error (.here .endOfHexEscape rest)

/-- Reads the escape of the second code unit of a pair. -/
def readPair (high : Nat) (s : Octets) : Except Fault (Char × Octets) :=
  match expectOctet 0x5C s with
  | .error f => .error f
  | .ok s =>
    match expectOctet 0x75 s with
    | .error f => .error f
    | .ok s => readLow high s

def readCodePoint (s : Octets) : Except Fault (Char × Octets) :=
  match readUnit s with
  | .error f => .error f
  | .ok (unit, rest) =>
    if 0xDC00 ≤ unit ∧ unit ≤ 0xDFFF then .error (.here .loneSurrogate rest)
    else if 0xD800 ≤ unit ∧ unit ≤ 0xDBFF then readPair unit rest
    else .ok (Char.ofNat unit, rest)

/-- The octet that an escape by letter stands for. -/
def named? (b : UInt8) : Option UInt8 :=
  if b = 0x22 ∨ b = 0x5C ∨ b = 0x2F then some b
  else if b = 0x62 then some 0x08
  else if b = 0x66 then some 0x0C
  else if b = 0x6E then some 0x0A
  else if b = 0x72 then some 0x0D
  else if b = 0x74 then some 0x09
  else none

def readEscape : Octets → Except Fault (Octets × Octets)
  | [] => .error ⟨.endOfString, 0⟩
  | b :: rest =>
    if b = 0x75 then
      match readCodePoint rest with
      | .error f => .error f
      | .ok (c, rest) => .ok (String.utf8EncodeChar c, rest)
    else
      match named? b with
      | some o => .ok ([o], rest)
      | none => .error (.here .invalidEscape rest)

theorem length_readUnit {s r : Octets} {n : Nat} (h : readUnit s = .ok (n, r)) :
    r.length < s.length := by
  unfold readUnit at h
  split at h
  · split at h
    · simp only [Except.ok.injEq, Prod.mk.injEq] at h
      simp only [← h.2, List.length_cons]
      omega
    · cases h
  · cases h

theorem length_readLow {high : Nat} {s r : Octets} {c : Char}
    (h : readLow high s = .ok (c, r)) : r.length < s.length := by
  unfold readLow at h
  split at h
  · cases h
  · next hu =>
    split at h
    · simp only [Except.ok.injEq, Prod.mk.injEq] at h
      exact h.2 ▸ length_readUnit hu
    · cases h

theorem length_expectOctet {b : UInt8} {s r : Octets} (h : expectOctet b s = .ok r) :
    r.length < s.length := by
  unfold expectOctet at h
  split at h
  · cases h
  · split at h <;> cases h
    exact Nat.lt_succ_self _

theorem length_readPair {high : Nat} {s r : Octets} {c : Char}
    (h : readPair high s = .ok (c, r)) : r.length < s.length := by
  unfold readPair at h
  split at h
  · cases h
  · next h₁ =>
    split at h
    · cases h
    · next h₂ =>
      exact Nat.lt_trans (length_readLow h)
        (Nat.lt_trans (length_expectOctet h₂) (length_expectOctet h₁))

theorem length_readCodePoint {s r : Octets} {c : Char} (h : readCodePoint s = .ok (c, r)) :
    r.length < s.length := by
  unfold readCodePoint at h
  split at h
  · cases h
  · next hu =>
    split at h
    · cases h
    · split at h
      · exact Nat.lt_trans (length_readPair h) (length_readUnit hu)
      · simp only [Except.ok.injEq, Prod.mk.injEq] at h
        exact h.2 ▸ length_readUnit hu

theorem length_readEscape {s r o : Octets} (h : readEscape s = .ok (o, r)) :
    r.length < s.length := by
  unfold readEscape at h
  split at h
  · cases h
  · split at h
    · split at h
      · cases h
      · next hc =>
        cases h
        exact Nat.lt_succ_of_lt (length_readCodePoint hc)
    · split at h <;> cases h
      exact Nat.lt_succ_self _

/-- Collects the octets of a string onto `acc`, last one first, up to the
quote that ends it. -/
def collect (acc : Octets) : Octets → Except Fault (Octets × Octets)
  | [] => .error ⟨.endOfString, 0⟩
  | b :: rest =>
    if b = 0x22 then .ok (acc.reverse, rest)
    else if b = 0x5C then
      match _h : readEscape rest with
      | .error f => .error f
      | .ok (o, after) => collect (o.reverse ++ acc) after
    else if b < 0x20 then .error (.here .controlCharacter rest)
    else collect (b :: acc) rest
termination_by s => s.length
decreasing_by
  · exact Nat.lt_succ_of_lt (length_readEscape _h)
  · exact Nat.lt_succ_self _

theorem length_collect {acc s o r : Octets} (h : collect acc s = .ok (o, r)) :
    r.length < s.length := by
  fun_induction collect acc s with
  | case1 => cases h
  | case2 =>
    cases h
    exact Nat.lt_succ_self _
  | case3 => cases h
  | case4 =>
    rename_i he _ ih
    exact Nat.lt_succ_of_lt (Nat.lt_trans (ih h) (length_readEscape he))
  | case5 => cases h
  | case6 acc b rest _ _ _ ih => exact Nat.lt_succ_of_lt (ih h)

/-- Reads a string whose opening quote is already gone. In a string that is not
UTF-8, the octets from the first one on that begins no character are faulty.
The place of the fault is as many octets before the end of the string, although
an escape among them may have been longer in the text. -/
def read (s : Octets) : Except Fault (String × Octets) :=
  match collect [] s with
  | .error f => .error f
  | .ok (o, rest) =>
    match Text.decode? o with
    | some text => .ok (text, rest)
    | none => .error ⟨.invalidText, rest.length + (Text.Utf8.dropSound o).length⟩

theorem length_read {s r : Octets} {t : String} (h : read s = .ok (t, r)) :
    r.length < s.length := by
  unfold read at h
  split at h
  · cases h
  · next hc =>
    split at h <;> cases h
    exact length_collect hc

/-- Passes over what follows the backslash of an escape. -/
def skipEscape : Octets → Except Fault Octets
  | [] => .error ⟨.endOfString, 0⟩
  | b :: rest =>
    if b = 0x75 then (readUnit rest).map (·.2)
    else
      match named? b with
      | some _ => .ok rest
      | none => .error (.here .invalidEscape rest)

theorem length_skipEscape {s r : Octets} (h : skipEscape s = .ok r) : r.length < s.length := by
  unfold skipEscape at h
  split at h
  · cases h
  · split at h
    · next rest _ =>
      cases hu : readUnit rest with
      | error f => rw [hu] at h; cases h
      | ok p =>
        rw [hu] at h
        cases h
        exact Nat.lt_succ_of_lt (length_readUnit hu)
    · split at h <;> cases h
      exact Nat.lt_succ_self _

/-- Passes over a string whose opening quote is already gone. Its octets need
not be UTF-8. -/
def skip : Octets → Except Fault Octets
  | [] => .error ⟨.endOfString, 0⟩
  | b :: rest =>
    if b = 0x22 then .ok rest
    else if b = 0x5C then
      match _h : skipEscape rest with
      | .error f => .error f
      | .ok after => skip after
    else if b < 0x20 then .error (.here .controlCharacter (b :: rest))
    else skip rest
termination_by s => s.length
decreasing_by
  · exact Nat.lt_succ_of_lt (length_skipEscape _h)
  · exact Nat.lt_succ_self _

theorem length_skip {s r : Octets} (h : skip s = .ok r) : r.length < s.length := by
  fun_induction skip s with
  | case1 => cases h
  | case2 =>
    cases h
    exact Nat.lt_succ_self _
  | case3 => cases h
  | case4 =>
    rename_i he _ ih
    exact Nat.lt_succ_of_lt (Nat.lt_trans (ih h) (length_skipEscape he))
  | case5 => cases h
  | case6 b rest _ _ _ ih => exact Nat.lt_succ_of_lt (ih h)

end ImageBuild.Json.Quoted
