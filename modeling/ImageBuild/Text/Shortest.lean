import ImageBuild.Text.Decimal

/-!
# The shortest decimal of a floating-point number

A finite double is `significand * 2 ^ exponent`. Every real number nearer to
it than to its neighbours reads back as it, and a half-way point does so when
the significand is even. `shortest` is the decimal with the fewest digits in
that interval, and of those with equally many digits the nearest one.
-/

namespace ImageBuild.Text

/-- A double, given by its 64 bits. -/
structure Double where
  bits : UInt64
  deriving DecidableEq, Repr

namespace Double

def ofFloat (x : Float) : Double := ⟨x.toBits⟩

def toFloat (x : Double) : Float := Float.ofBits x.bits

def isNegative (x : Double) : Bool := x.bits >>> 63 == 1

def exponentBits (x : Double) : Nat := (x.bits >>> 52).toNat % 2048

def fractionBits (x : Double) : Nat := x.bits.toNat % 0x10000000000000

/-- The integer significand of a finite double. -/
def significand (x : Double) : Nat :=
  if x.exponentBits = 0 then x.fractionBits else x.fractionBits + 0x10000000000000

/-- The power of two that scales the significand. -/
def exponent (x : Double) : Int :=
  if x.exponentBits = 0 then -1074 else (x.exponentBits : Int) - 1075

end Double

/-- A decimal `digits * 10 ^ scale`. -/
structure Scaled where
  digits : Nat
  scale : Int
  deriving DecidableEq, Repr

namespace Shortest

/-- A positive double with the interval that rounds to it. All numbers are
quarters of the unit of its significand over a common denominator:
`low / unit < value / unit < high / unit`. -/
structure Interval where
  low : Nat
  value : Nat
  high : Nat
  unit : Nat
  closed : Bool

/-- The interval of the reals that round to a positive double. -/
def interval (x : Double) : Interval :=
  let m := x.significand
  let below := if x.fractionBits = 0 ∧ 1 < x.exponentBits then 1 else 2
  let e := x.exponent - 2
  let up := if 0 ≤ e then Nat.pow 2 e.toNat else 1
  let down := if 0 ≤ e then 1 else Nat.pow 2 (-e).toNat
  ⟨(4 * m - below) * up, 4 * m * up, (4 * m + 2) * up, down, m % 2 = 0⟩

/-- Whether the decimal `c * 10 ^ k` lies in the interval. -/
def Interval.contains (i : Interval) (c : Nat) (k : Int) : Bool :=
  let c := if 0 ≤ k then c * Nat.pow 10 k.toNat * i.unit else c * i.unit
  let s := if 0 ≤ k then 1 else Nat.pow 10 (-k).toNat
  if i.closed then i.low * s ≤ c ∧ c ≤ i.high * s else i.low * s < c ∧ c < i.high * s

/-- The multiples of `10 ^ k` on either side of the value: the lower one, and
twice the distance of the value from it next to the width of the grid. -/
def Interval.below (i : Interval) (k : Int) : Nat × Nat × Nat :=
  let n := if 0 ≤ k then i.value else i.value * Nat.pow 10 (-k).toNat
  let d := if 0 ≤ k then i.unit * Nat.pow 10 k.toNat else i.unit
  (n / d, 2 * (n % d), d)

/-- The multiple of `10 ^ k` in the interval that is nearest to the value, an
even one when two are equally near. -/
def Interval.nearest? (i : Interval) (k : Int) : Option Nat :=
  let (c, twice, width) := i.below k
  match i.contains c k && 0 < c, i.contains (c + 1) k with
  | true, false => some c
  | false, true => some (c + 1)
  | false, false => none
  | true, true =>
    if twice < width then some c
    else if width < twice then some (c + 1)
    else if c % 2 = 0 then some c else some (c + 1)

/-- An exponent of ten with `n / d < 10 ^ k`. The quotient is below
`2 ^ (log2 n - log2 d + 1)`, and 0.30103 is the decimal logarithm of two up to an
error that the rounding makes good for. -/
def bound (n d : Nat) : Int := ((n.log2 : Int) - d.log2 + 1) * 30103 / 100000 + 1

/-- The position of the first digit of `n / d`, searched downwards from `k`. -/
def leading (n d : Nat) : Nat → Int → Int
  | 0, k => k
  | fuel + 1, k =>
    let below := if 0 ≤ k then n < d * Nat.pow 10 k.toNat else n * Nat.pow 10 (-k).toNat < d
    if below then leading n d fuel (k - 1) else k

/-- The first grid, from coarse to fine, that has a point in the interval. -/
def search (i : Interval) : Nat → Int → Scaled
  | 0, k => ⟨(i.below k).1, k⟩
  | fuel + 1, k =>
    match i.nearest? k with
    | some c => ⟨c, k⟩
    | none => search i fuel (k - 1)

end Shortest

/-- A decimal without zeros at the end of its digits. -/
def Scaled.strip : Nat → Scaled → Scaled
  | 0, s => s
  | fuel + 1, s =>
    if s.digits % 10 = 0 ∧ s.digits ≠ 0 then strip fuel ⟨s.digits / 10, s.scale + 1⟩ else s

/-- The shortest decimal that reads back as a positive finite double. -/
def Double.shortest (x : Double) : Scaled :=
  let i := Shortest.interval x
  let first := Shortest.leading i.value i.unit 640 (Shortest.bound i.value i.unit)
  Scaled.strip 20 (Shortest.search i 17 first)

/-- How a floating-point number is written: the exponents that are written
positionally, from `least` to `most`. -/
structure DoubleFormat where
  least : Int
  most : Int

/-- Numbers from `10 ^ -5` up to `10 ^ 16` are written positionally. -/
def DoubleFormat.wire : DoubleFormat := ⟨-5, 15⟩

def DoubleFormat.unsigned (f : DoubleFormat) (s : Scaled) : List Char :=
  let ds := Decimal.chars s.digits
  let exponent : Int := s.scale + ds.length - 1
  if exponent < f.least ∨ f.most < exponent then
    let mantissa :=
      match ds with
      | [d] => [d]
      | d :: rest => d :: '.' :: rest
      | [] => []
    let sign := if exponent < 0 then '-' else '+'
    mantissa ++ ['e', sign] ++ Decimal.chars exponent.natAbs
  else if exponent < 0 then
    ['0', '.'] ++ List.replicate (-exponent - 1).toNat '0' ++ ds
  else if 0 ≤ s.scale then
    ds ++ List.replicate s.scale.toNat '0' ++ ['.', '0']
  else
    ds.take (exponent.toNat + 1) ++ '.' :: ds.drop (exponent.toNat + 1)

def DoubleFormat.chars (f : DoubleFormat) (x : Double) : List Char :=
  let sign := if x.isNegative then ['-'] else []
  if x.significand = 0 then sign ++ ['0', '.', '0']
  else sign ++ f.unsigned x.shortest

end ImageBuild.Text
