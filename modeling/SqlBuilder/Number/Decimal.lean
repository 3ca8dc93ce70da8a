import SqlBuilder.Number.Shortest

/-!
# Numbers as text

In statements a number is written positionally, without an exponent and
without a trailing fraction of zero.  Descriptions keep at least one place and
turn to an exponent from `10 ^ 16` on and below `10 ^ -4`.
-/

namespace SqlBuilder

namespace Decimal

/-- Zeros to fill places. -/
def zeros (n : Nat) : String :=
  String.ofList (List.replicate n '0')

/-- A text cut behind its first `n` characters. -/
def splitText (n : Nat) (text : String) : String × String :=
  (String.ofList (text.toList.take n), String.ofList (text.toList.drop n))

/-- The decimal with a point at its place and no exponent. -/
def positional (d : Decimal) : String :=
  let text := toString d.digits
  if 0 ≤ d.exponent then text ++ zeros d.exponent.toNat
  else
    let places := (-d.exponent).toNat
    if text.length ≤ places then "0." ++ zeros (places - text.length) ++ text
    else
      let (whole, part) := splitText (text.length - places) text
      whole ++ "." ++ part

/-- One digit before the point, the others behind it, and the power of ten. -/
def scientific (d : Decimal) : String :=
  let text := toString d.digits
  let (whole, part) := splitText 1 text
  let power := d.exponent + (text.length - 1 : Nat)
  whole ++ (if part.isEmpty then "" else "." ++ part) ++ "e" ++ toString power

/-- The power of ten of the leading digit. -/
def magnitude (d : Decimal) : Int :=
  d.exponent + ((toString d.digits).length - 1 : Nat)

end Decimal

namespace Double

/-- The text of a number that is not finite. -/
def specialText? (x : Double) : Option String :=
  if x.isNaN then some "NaN"
  else if x.isInfinite then some (if x.isNegative then "-inf" else "inf")
  else none

/-- The sign that precedes the digits. -/
def signText (x : Double) : String :=
  if x.isNegative then "-" else ""

/-- The number as a statement shows it. -/
def text (x : Double) : String :=
  match x.specialText? with
  | some special => special
  | none => x.signText ++ if x.isZero then "0" else x.shortest.positional

/-- The number as a description shows it. -/
def describe (x : Double) : String :=
  match x.specialText? with
  | some special => special
  | none =>
    if x.isZero then x.signText ++ "0.0"
    else
      let d := x.shortest
      if d.magnitude < -4 || 16 ≤ d.magnitude then x.signText ++ d.scientific
      else x.signText ++ d.positional ++ if 0 ≤ d.exponent then ".0" else ""

end Double

end SqlBuilder
