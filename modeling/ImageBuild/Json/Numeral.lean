import ImageBuild.Json.Fault
import ImageBuild.Text.Integer

/-!
# Reading numbers

The digits of a number are collected in a significand of 64 bits. Integers
that fit stay integers. Any other number is the significand scaled by a
power of ten in floating-point arithmetic; digits that no longer fit the
significand only move the point.
-/

namespace ImageBuild.Json.Numeral

def isDigit (b : UInt8) : Bool := 0x30 ≤ b && b ≤ 0x39

def digitValue (b : UInt8) : Nat := b.toNat - 0x30

/-- A significand and the power of ten that scales it. -/
structure Decimal where
  significand : Nat
  exponent : Int

/-- Collects the digits before the point. Once a digit does not fit, it and
all later ones only count for the exponent. -/
def collectWhole (significand : Nat) : Octets → Decimal
  | [] => ⟨significand, 0⟩
  | b :: ds =>
    if significand * 10 + digitValue b ≤ Text.Integer.maxU64 then
      collectWhole (significand * 10 + digitValue b) ds
    else ⟨significand, ds.length + 1⟩

/-- Collects the digits after the point, up to the first that does not fit. -/
def collectFraction (d : Decimal) : Octets → Decimal
  | [] => d
  | b :: ds =>
    if d.significand * 10 + digitValue b ≤ Text.Integer.maxU64 then
      collectFraction ⟨d.significand * 10 + digitValue b, d.exponent - 1⟩ ds
    else d

def maxExponent : Int := 0x7FFFFFFF

def clamp (e : Int) : Int := max (-maxExponent - 1) (min maxExponent e)

def pow10 (n : Nat) : Float := Float.ofScientific 1 false n

/-- Scales a number by a power of ten, or nothing when it grows too large. -/
def scale (f : Float) : Nat → Int → Option Float
  | 0, _ => some f
  | fuel + 1, e =>
    if e.natAbs ≤ 308 then
      if 0 ≤ e then
        if (f * pow10 e.natAbs).isInf then none else some (f * pow10 e.natAbs)
      else some (f / pow10 e.natAbs)
    else if f == 0.0 then some f
    else if 0 ≤ e then none
    else scale (f / pow10 308) fuel (e + 308)

/-- The floating-point number of a decimal, or nothing when it is too large.
Four divisions take every significand to zero. -/
def Decimal.toReal? (negative : Bool) (d : Decimal) : Option Number :=
  (scale (UInt64.ofNat d.significand).toFloat 5 d.exponent).map fun f =>
    .real (.ofFloat (if negative then -f else f))

/-- The number of an integer significand. A negative one that does not fit
63 bits, and minus zero, are floating-point numbers. -/
def ofSignificand (negative : Bool) (n : Nat) : Number :=
  if h : n ≤ 0xFFFFFFFFFFFFFFFF then
    if negative then
      if h : 0 < n ∧ n ≤ 0x8000000000000000 then .whole ⟨-n, by omega, by omega⟩
      else .real (.ofFloat (-(UInt64.ofNat n).toFloat))
    else .whole ⟨n, by omega, by omega⟩
  else .real (.ofFloat (UInt64.ofNat n).toFloat)

/-- Reads the digits of an exponent onto `e`. Past the range of exponents a
number other than zero is out of range or vanishes. -/
def readExponent (negative expNegative : Bool) (d : Decimal) (e : Nat) :
    Octets → Except Fault (Number × Octets)
  | [] => finish [] e
  | b :: rest =>
    if isDigit b then
      if e * 10 + digitValue b ≤ maxExponent.toNat then
        readExponent negative expNegative d (e * 10 + digitValue b) rest
      else if d.significand ≠ 0 ∧ ¬ expNegative then
        .error (.here .numberOutOfRange rest)
      else
        .ok (.real (.ofFloat (if negative then -0.0 else 0.0)), rest.dropWhile isDigit)
    else finish (b :: rest) e
where
  /-- Scales by the exponent that has been read. -/
  finish (rest : Octets) (e : Nat) : Except Fault (Number × Octets) :=
    let e := clamp (d.exponent + (if expNegative then -(e : Int) else e))
    match Decimal.toReal? negative ⟨d.significand, e⟩ with
    | some n => .ok (n, rest)
    | none => .error (.here .numberOutOfRange rest)

/-- Whether an exponent is negative, and the octets after its sign. -/
def splitSign : Octets → Bool × Octets
  | 0x2B :: rest => (false, rest)
  | 0x2D :: rest => (true, rest)
  | s => (false, s)

/-- Reads an exponent whose letter is already gone. -/
def readScaled (negative : Bool) (d : Decimal) (s : Octets) :
    Except Fault (Number × Octets) :=
  match (splitSign s).2 with
  | [] => .error ⟨.endOfValue, 0⟩
  | b :: rest =>
    if isDigit b then readExponent negative (splitSign s).1 d (digitValue b) rest
    else .error (.here .invalidNumber rest)

/-- Reads what follows the digits of a number that is no integer: an exponent
or nothing. -/
def readTail (negative : Bool) (d : Decimal) (s : Octets) : Except Fault (Number × Octets) :=
  match s with
  | 0x65 :: rest | 0x45 :: rest => readScaled negative d rest
  | s =>
    match d.toReal? negative with
    | some n => .ok (n, s)
    | none => .error (.here .numberOutOfRange s)

def readFraction (negative : Bool) (d : Decimal) (s : Octets) :
    Except Fault (Number × Octets) :=
  match s.takeWhile isDigit with
  | [] => .error (.next (if s = [] then .endOfValue else .invalidNumber) s)
  | ds => readTail negative (collectFraction d ds) (s.dropWhile isDigit)

/-- Reads a number whose first digits are `ds`. -/
def readAfter (negative : Bool) (ds s : Octets) : Except Fault (Number × Octets) :=
  let d := collectWhole 0 ds
  match s with
  | 0x2E :: rest => readFraction negative d rest
  | 0x65 :: _ | 0x45 :: _ => readTail negative d s
  | s =>
    if d.exponent = 0 then .ok (ofSignificand negative d.significand, s)
    else readTail negative d s

/-- Reads a number whose sign is already gone. -/
def read (negative : Bool) : Octets → Except Fault (Number × Octets)
  | [] => .error ⟨.endOfValue, 0⟩
  | b :: rest =>
    if b = 0x30 then
      match rest with
      | c :: _ =>
        if isDigit c then .error (.next .invalidNumber rest) else readAfter negative [b] rest
      | [] => readAfter negative [b] rest
    else if isDigit b then
      readAfter negative (b :: rest.takeWhile isDigit) (rest.dropWhile isDigit)
    else .error (.here .invalidNumber rest)

def skipFraction : Octets → Except Fault Octets
  | 0x2E :: rest =>
    match rest.takeWhile isDigit with
    | [] => .error (.next .invalidNumber rest)
    | _ => .ok (rest.dropWhile isDigit)
  | s => .ok s

/-- Passes over an exponent whose letter is already gone. -/
def skipScaled (s : Octets) : Except Fault Octets :=
  match (splitSign s).2 with
  | [] => .error (.here .invalidNumber [])
  | b :: rest =>
    if isDigit b then .ok (rest.dropWhile isDigit) else .error (.here .invalidNumber rest)

def skipExponent : Octets → Except Fault Octets
  | 0x65 :: rest => skipScaled rest
  | 0x45 :: rest => skipScaled rest
  | s => .ok s

/-- Passes over a number whose sign is already gone. -/
def skip : Octets → Except Fault Octets
  | [] => .error (.here .invalidNumber [])
  | b :: rest =>
    if b = 0x30 then
      match rest with
      | c :: _ =>
        if isDigit c then .error (.next .invalidNumber rest)
        else skipFraction rest >>= skipExponent
      | [] => .ok []
    else if isDigit b then skipFraction (rest.dropWhile isDigit) >>= skipExponent
    else .error (.here .invalidNumber rest)

theorem length_dropWhile_le (p : UInt8 → Bool) (s : Octets) :
    (s.dropWhile p).length ≤ s.length :=
  (List.dropWhile_sublist p).length_le

theorem length_readExponent {negative expNegative : Bool} {d : Decimal} {e : Nat} {s r : Octets}
    {n : Number} (h : readExponent negative expNegative d e s = .ok (n, r)) :
    r.length ≤ s.length := by
  have finish : ∀ {t : Octets} {e : Nat},
      readExponent.finish negative expNegative d t e = .ok (n, r) → r = t := by
    intro t e ht
    unfold readExponent.finish at ht
    dsimp only at ht
    split at ht <;> simp_all
  fun_induction readExponent negative expNegative d e s with
  | case1 e => simp [finish h]
  | case2 e b rest _ _ ih => exact Nat.le_succ_of_le (ih h)
  | case3 => cases h
  | case4 e b rest =>
    cases h
    exact Nat.le_succ_of_le (length_dropWhile_le ..)
  | case5 e b rest => simp [finish h]

theorem length_splitSign (s : Octets) : (splitSign s).2.length ≤ s.length := by
  unfold splitSign
  split <;> simp

theorem length_readScaled {negative : Bool} {d : Decimal} {s r : Octets} {n : Number}
    (h : readScaled negative d s = .ok (n, r)) : r.length < s.length := by
  refine Nat.lt_of_lt_of_le ?_ (length_splitSign s)
  unfold readScaled at h
  split at h
  · cases h
  · next hs =>
    rw [hs]
    split at h
    · exact Nat.lt_succ_of_le (length_readExponent h)
    · cases h

theorem length_readTail {negative : Bool} {d : Decimal} {s r : Octets} {n : Number}
    (h : readTail negative d s = .ok (n, r)) : r.length ≤ s.length := by
  unfold readTail at h
  split at h
  · exact Nat.le_succ_of_le (Nat.le_of_lt (length_readScaled h))
  · exact Nat.le_succ_of_le (Nat.le_of_lt (length_readScaled h))
  · split at h <;> cases h
    exact Nat.le_refl _

theorem length_readFraction {negative : Bool} {d : Decimal} {s r : Octets} {n : Number}
    (h : readFraction negative d s = .ok (n, r)) : r.length ≤ s.length := by
  unfold readFraction at h
  split at h
  · cases h
  · exact Nat.le_trans (length_readTail h) (length_dropWhile_le ..)

theorem length_readAfter {negative : Bool} {ds s r : Octets} {n : Number}
    (h : readAfter negative ds s = .ok (n, r)) : r.length ≤ s.length := by
  unfold readAfter at h
  dsimp only at h
  split at h
  · exact Nat.le_succ_of_le (length_readFraction h)
  · exact length_readTail h
  · exact length_readTail h
  · split at h
    · cases h
      exact Nat.le_refl _
    · exact length_readTail h

theorem length_read {negative : Bool} {s r : Octets} {n : Number}
    (h : read negative s = .ok (n, r)) : r.length < s.length := by
  unfold read at h
  split at h
  · cases h
  · refine Nat.lt_succ_of_le ?_
    split at h
    · split at h
      · split at h
        · cases h
        · exact length_readAfter h
      · exact length_readAfter h
    · split at h
      · exact Nat.le_trans (length_readAfter h) (length_dropWhile_le ..)
      · cases h

theorem length_skipFraction {s r : Octets} (h : skipFraction s = .ok r) :
    r.length ≤ s.length := by
  unfold skipFraction at h
  split at h
  · split at h <;> cases h
    exact Nat.le_succ_of_le (length_dropWhile_le ..)
  · cases h
    exact Nat.le_refl _

theorem length_skipScaled {s r : Octets} (h : skipScaled s = .ok r) :
    r.length ≤ s.length := by
  refine Nat.le_trans ?_ (length_splitSign s)
  unfold skipScaled at h
  split at h
  · cases h
  · next hs =>
    rw [hs]
    split at h <;> cases h
    exact Nat.le_succ_of_le (length_dropWhile_le ..)

theorem length_skipExponent {s r : Octets} (h : skipExponent s = .ok r) :
    r.length ≤ s.length := by
  unfold skipExponent at h
  split at h
  · exact Nat.le_succ_of_le (length_skipScaled h)
  · exact Nat.le_succ_of_le (length_skipScaled h)
  · cases h
    exact Nat.le_refl _

theorem length_skip {s r : Octets} (h : skip s = .ok r) : r.length < s.length := by
  have both : ∀ {t : Octets}, (skipFraction t >>= skipExponent) = .ok r → r.length ≤ t.length := by
    intro t ht
    cases hf : skipFraction t with
    | error e => rw [hf] at ht; cases ht
    | ok u =>
      rw [hf] at ht
      exact Nat.le_trans (length_skipExponent ht) (length_skipFraction hf)
  unfold skip at h
  split at h
  · cases h
  · refine Nat.lt_succ_of_le ?_
    split at h
    · split at h
      · split at h
        · cases h
        · exact both h
      · cases h
        exact Nat.le_refl _
    · split at h
      · exact Nat.le_trans (both h) (length_dropWhile_le ..)
      · cases h

end ImageBuild.Json.Numeral
