import ImageBuild.Text.Octets

/-!
# Reading damaged UTF-8

Octets from a client need not be well formed. `next` takes one character
from the front, or the longest run of octets that begins a character and
cannot be continued into one. `lossy` replaces every such run by U+FFFD, and
`dropSound` drops the octets before the first of them.
-/

namespace ImageBuild.Text.Utf8

/-- The octets that may follow the first octet of a character: the range of
the second octet and the number of octets after it. -/
structure Lead where
  low : UInt8
  high : UInt8
  more : Nat

/-- What a first octet outside ASCII promises, if it can begin a character. -/
def lead? (b : UInt8) : Option Lead :=
  if 0xC2 ≤ b ∧ b ≤ 0xDF then some ⟨0x80, 0xBF, 0⟩
  else if b = 0xE0 then some ⟨0xA0, 0xBF, 1⟩
  else if b = 0xED then some ⟨0x80, 0x9F, 1⟩
  else if 0xE1 ≤ b ∧ b ≤ 0xEF then some ⟨0x80, 0xBF, 1⟩
  else if b = 0xF0 then some ⟨0x90, 0xBF, 2⟩
  else if 0xF1 ≤ b ∧ b ≤ 0xF3 then some ⟨0x80, 0xBF, 2⟩
  else if b = 0xF4 then some ⟨0x80, 0x8F, 2⟩
  else none

/-- The bits of the code point that a first octet carries. -/
def leadBits (b : UInt8) : Nat :=
  if b < 0xE0 then b.toNat - 0xC0
  else if b < 0xF0 then b.toNat - 0xE0
  else b.toNat - 0xF0

/-- Reads `more` continuation octets onto the code point begun in `acc`. -/
def continued (acc : Nat) : Nat → Octets → Option Char × Octets
  | 0, bs => (some (Char.ofNat acc), bs)
  | _ + 1, [] => (none, [])
  | more + 1, b :: bs =>
    if 0x80 ≤ b ∧ b ≤ 0xBF then continued (acc * 64 + (b.toNat - 0x80)) more bs
    else (none, b :: bs)

/-- The character that begins with `b`, or nothing when the octets do not
form one, with the octets that are left. -/
def next (b : UInt8) (bs : Octets) : Option Char × Octets :=
  if b < 0x80 then (some (Char.ofNat b.toNat), bs)
  else
    match lead? b, bs with
    | none, bs => (none, bs)
    | some _, [] => (none, [])
    | some l, c :: rest =>
      if l.low ≤ c ∧ c ≤ l.high then
        continued (leadBits b * 64 + (c.toNat - 0x80)) l.more rest
      else (none, c :: rest)

theorem length_continued_le (acc more : Nat) (bs : Octets) :
    (continued acc more bs).2.length ≤ bs.length := by
  induction more generalizing acc bs with
  | zero => simp [continued]
  | succ more ih =>
    cases bs with
    | nil => simp [continued]
    | cons b bs =>
      simp only [continued]
      split
      · exact Nat.le_succ_of_le (ih _ bs)
      · simp

theorem length_next_le (b : UInt8) (bs : Octets) : (next b bs).2.length ≤ bs.length := by
  unfold next
  split
  · simp
  · split
    · simp
    · simp
    · split
      · exact Nat.le_succ_of_le (length_continued_le ..)
      · simp

/-- The characters of a sequence of octets, with U+FFFD for every run that
forms none. -/
def lossy : Octets → List Char
  | [] => []
  | b :: bs =>
    (next b bs).1.getD '\uFFFD' :: lossy (next b bs).2
termination_by bs => bs.length
decreasing_by exact Nat.lt_succ_of_le (length_next_le b bs)

/-- The octets from the first one on that begins no character. -/
def dropSound : Octets → Octets
  | [] => []
  | b :: bs =>
    match (next b bs).1 with
    | none => b :: bs
    | some _ => dropSound (next b bs).2
termination_by bs => bs.length
decreasing_by exact Nat.lt_succ_of_le (length_next_le b bs)

end ImageBuild.Text.Utf8
