/-!
# Integers in text

An integer is an optional sign and digits of a radix. It is read from left
to right and the first fault found decides the error, so a text that leaves
the target range before its first foreign character counts as too large.
-/

namespace ImageBuild.Text

/-- Why a text is not an integer of the target range. -/
inductive IntegerError where
  | empty
  | invalidDigit
  | tooLarge
  | tooSmall
  deriving DecidableEq, Repr

namespace IntegerError

def message : IntegerError → String
  | .empty => "cannot parse integer from empty string"
  | .invalidDigit => "invalid digit found in string"
  | .tooLarge => "number too large to fit in target type"
  | .tooSmall => "number too small to fit in target type"

end IntegerError

namespace Integer

def digit? (radix : Nat) (c : Char) : Option Nat :=
  if '0' ≤ c ∧ c.toNat - '0'.toNat < radix then some (c.toNat - '0'.toNat) else none

/-- Reads digits onto `acc`, with `beyond` as the error past `bound`. -/
def readDigits (radix bound : Nat) (beyond : IntegerError) (acc : Nat) :
    List Char → Except IntegerError Nat
  | [] => .ok acc
  | c :: cs =>
    match digit? radix c with
    | none => .error .invalidDigit
    | some d =>
      if acc * radix + d ≤ bound then readDigits radix bound beyond (acc * radix + d) cs
      else .error beyond

/-- A number up to `bound`, with an optional plus sign. -/
def readUnsigned (radix bound : Nat) : List Char → Except IntegerError Nat
  | [] => .error .empty
  | ['+'] => .error .invalidDigit
  | '+' :: cs => readDigits radix bound .tooLarge 0 cs
  | cs => readDigits radix bound .tooLarge 0 cs

/-- A decimal number from `-(bound + 1)` to `bound`, with an optional sign. -/
def readSigned (bound : Nat) : List Char → Except IntegerError Int
  | [] => .error .empty
  | ['+'] | ['-'] => .error .invalidDigit
  | '+' :: cs => (readDigits 10 bound .tooLarge 0 cs).map Int.ofNat
  | '-' :: cs => (readDigits 10 (bound + 1) .tooSmall 0 cs).map fun n => -Int.ofNat n
  | cs => (readDigits 10 bound .tooLarge 0 cs).map Int.ofNat

def maxU32 : Nat := 0xFFFFFFFF

def maxU64 : Nat := 0xFFFFFFFFFFFFFFFF

def maxI64 : Nat := 0x7FFFFFFFFFFFFFFF

end Integer
end ImageBuild.Text
