import ImageBuild.Text.Decimal

/-!
# Sizes for people

A number of bytes is written with the largest unit that it holds at least
once. Bytes are written as they are, larger units with two places after the
point.
-/

namespace ImageBuild.Text.ByteSize

/-- The units; each is 1024 times the one before. -/
def units : List String := ["KiB", "MiB", "GiB", "TiB"]

/-- The quotient rounded to the nearest number, or to the even one of two. -/
def roundDiv (n d : Nat) : Nat :=
  let q := n / d
  let r := n % d
  if 2 * r < d then q
  else if d < 2 * r then q + 1
  else q + q % 2

def places (hundredths : Nat) : String :=
  Decimal.text (hundredths / 100) ++ "." ++
    String.ofList [Decimal.digitChar (hundredths / 10 % 10), Decimal.digitChar (hundredths % 10)]

/-- The text of `bytes` in the largest of these units that fits, where the
first unit is `1024 * unit` bytes. -/
def inUnits (bytes unit : Nat) : List String → Option String
  | [] => none
  | name :: rest =>
    if bytes < 1024 * unit then none
    else
      some ((inUnits bytes (1024 * unit) rest).getD
        (places (roundDiv (100 * bytes) (1024 * unit)) ++ name))

def text (bytes : Nat) : String :=
  (inUnits bytes 1 units).getD (Decimal.text bytes ++ "B")

end ImageBuild.Text.ByteSize
