/-!
# Double-precision numbers

A number is held by the 64 bits of its IEEE 754 encoding: a sign, eleven bits
of exponent and 52 bits of fraction.  A finite number is its significand times
a power of two.  Comparison follows the standard: a NaN differs from every
number, and the two zeros are equal.
-/

namespace SqlBuilder

/-- A number in double precision, by its encoding. -/
structure Double where
  bits : UInt64
  deriving DecidableEq

namespace Double

/-- The sign bit is set. -/
def isNegative (x : Double) : Bool :=
  x.bits >>> 63 == 1

/-- The eleven exponent bits. -/
def exponentField (x : Double) : Nat :=
  (x.bits >>> 52).toNat % 2048

/-- The 52 fraction bits. -/
def fractionField (x : Double) : Nat :=
  x.bits.toNat % Nat.pow 2 52

/-- The encoding stands for no number. -/
def isNaN (x : Double) : Bool :=
  x.exponentField == 2047 && x.fractionField != 0

/-- One of the two infinities. -/
def isInfinite (x : Double) : Bool :=
  x.exponentField == 2047 && x.fractionField == 0

/-- Neither an infinity nor a NaN. -/
def isFinite (x : Double) : Bool :=
  x.exponentField != 2047

/-- One of the two zeros. -/
def isZero (x : Double) : Bool :=
  x.exponentField == 0 && x.fractionField == 0

/-- The significand of a finite number as a whole number. -/
def significand (x : Double) : Nat :=
  if x.exponentField == 0 then x.fractionField else x.fractionField + Nat.pow 2 52

/-- The power of two that scales the significand of a finite number. -/
def scale (x : Double) : Int :=
  if x.exponentField == 0 then -1074 else (x.exponentField : Int) - 1075

/-- The number below is nearer than the number above: a power of two is passed between. -/
def isNarrowBelow (x : Double) : Bool :=
  x.fractionField == 0 && 1 < x.exponentField

/-- Equality of numbers: a NaN has none, and the zeros are equal. -/
def equal (x y : Double) : Bool :=
  if x.isNaN || y.isNaN then false
  else x.bits == y.bits || (x.isZero && y.isZero)

/-- Assemble a number from its three fields. -/
def ofFields (negative : Bool) (exponent fraction : Nat) : Double :=
  ⟨.ofNat ((if negative then Nat.pow 2 63 else 0) + exponent * Nat.pow 2 52 + fraction)⟩

/-- Move a subnormal significand up until its leading bit is the 24th. -/
def normalize (fuel exponent fraction : Nat) : Nat × Nat :=
  match fuel with
  | 0 => (exponent, fraction)
  | fuel + 1 =>
    if Nat.pow 2 23 ≤ fraction then (exponent, fraction)
    else normalize fuel (exponent - 1) (2 * fraction)

/-- The number that a single-precision encoding stands for; a NaN becomes quiet. -/
def ofSingle (bits : UInt32) : Double :=
  let negative := bits >>> 31 == 1
  let exponent := (bits >>> 23).toNat % 256
  let fraction := bits.toNat % Nat.pow 2 23
  if exponent == 255 then
    if fraction == 0 then ofFields negative 2047 0
    else ofFields negative 2047 (Nat.pow 2 51 + fraction % Nat.pow 2 22 * Nat.pow 2 29)
  else if exponent != 0 then ofFields negative (exponent + 896) (fraction * Nat.pow 2 29)
  else if fraction == 0 then ofFields negative 0 0
  else
    let (exponent, fraction) := normalize 23 897 fraction
    ofFields negative exponent ((fraction - Nat.pow 2 23) * Nat.pow 2 29)

end Double

end SqlBuilder
