import ImageBuild.Text.Decimal
import ImageBuild.Text.Integer
import ImageBuild.Text.Quoted

/-!
# API versions

A version is a pair of numbers, written `1.44`. Versions are ordered by their
numbers, the first one first. A text may carry one leading `v`, so that the
segment of a request path can be read as it stands.
-/

namespace ImageBuild

structure Version where
  major : UInt32
  minor : UInt32
  deriving DecidableEq, Repr

namespace Version

/-- The newest version that the service speaks. -/
def newest : Version := ⟨1, 47⟩

/-- The oldest version that is accepted unless the settings say otherwise. -/
def oldest : Version := ⟨1, 24⟩

instance : Inhabited Version := ⟨newest⟩

instance : LT Version where
  lt a b := a.major < b.major ∨ a.major = b.major ∧ a.minor < b.minor

instance : LE Version where
  le a b := a.major < b.major ∨ a.major = b.major ∧ a.minor ≤ b.minor

instance (a b : Version) : Decidable (a < b) :=
  inferInstanceAs (Decidable (a.major < b.major ∨ a.major = b.major ∧ a.minor < b.minor))

instance (a b : Version) : Decidable (a ≤ b) :=
  inferInstanceAs (Decidable (a.major < b.major ∨ a.major = b.major ∧ a.minor ≤ b.minor))

instance : Ord Version where
  compare a b := if a < b then .lt else if a = b then .eq else .gt

theorem lt_iff {a b : Version} : a < b ↔ a.major.toNat < b.major.toNat ∨
    a.major.toNat = b.major.toNat ∧ a.minor.toNat < b.minor.toNat := by
  change (a.major < b.major ∨ a.major = b.major ∧ a.minor < b.minor) ↔ _
  rw [UInt32.lt_iff_toNat_lt, UInt32.lt_iff_toNat_lt, ← UInt32.toNat_inj]

theorem le_iff {a b : Version} : a ≤ b ↔ a.major.toNat < b.major.toNat ∨
    a.major.toNat = b.major.toNat ∧ a.minor.toNat ≤ b.minor.toNat := by
  change (a.major < b.major ∨ a.major = b.major ∧ a.minor ≤ b.minor) ↔ _
  rw [UInt32.lt_iff_toNat_lt, UInt32.le_iff_toNat_le, ← UInt32.toNat_inj]

theorem not_lt {a b : Version} : ¬ a < b ↔ b ≤ a := by
  rw [lt_iff, le_iff]
  omega

def text (v : Version) : String :=
  Text.Decimal.text v.major.toNat ++ "." ++ Text.Decimal.text v.minor.toNat

instance : ToString Version := ⟨text⟩

def readNumber? (cs : List Char) : Option UInt32 :=
  match Text.Integer.readUnsigned 10 Text.Integer.maxU32 cs with
  | .ok n => some (UInt32.ofNat n)
  | .error _ => none

/-- The characters before the first occurrence of `sep` and those after it. -/
def splitFirst (sep : Char) : List Char → Option (List Char × List Char)
  | [] => none
  | c :: cs =>
    if c = sep then some ([], cs)
    else (splitFirst sep cs).map fun (a, b) => (c :: a, b)

/-- A text without the `v` at its front, if there is one. -/
def dropLetter : List Char → List Char
  | 'v' :: cs => cs
  | cs => cs

structure Invalid where
  text : String
  deriving DecidableEq, Repr

/-- Reads a version, with or without a leading `v`. A text that is no version is
given back as it came. -/
def read (s : String) : Except Invalid Version :=
  match splitFirst '.' (dropLetter s.toList) with
  | none => .error ⟨s⟩
  | some (a, b) =>
    match readNumber? a with
    | none => .error ⟨s⟩
    | some major =>
      match readNumber? b with
      | none => .error ⟨s⟩
      | some minor => .ok ⟨major, minor⟩

def parse? (s : String) : Option Version := (read s).toOption

def invalidMessage (s : String) : String :=
  "invalid API version: " ++ Text.quote s

end Version
end ImageBuild
