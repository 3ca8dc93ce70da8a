import SqlBuilder.Number.Double

/-!
# Shortest decimal digits

A finite number other than zero is written with the fewest digits that read
back as the same number.  The reals that read back form an interval around the
number, closed if its significand is even.  Grids of powers of ten are tried
from the coarsest down; on the first grid that meets the interval the nearer
of the two neighbours is taken, the upper one on a tie.
-/

namespace SqlBuilder

/-- A decimal: the digits of a whole number, and the power of ten that scales it. -/
structure Decimal where
  digits : Nat
  exponent : Int
  deriving DecidableEq

namespace Double

/--
The neighbours of a positive number on one decimal grid.  All quantities are
whole multiples of one unit: the number itself, the two ends of its interval,
and the width of the grid.
-/
def nearestOnGrid (value low high width : Nat) (closed : Bool) : Option Nat :=
  let below := value / width
  let reads (n : Nat) : Bool :=
    if closed then low ≤ n * width && n * width ≤ high else low < n * width && n * width < high
  let rest := value % width
  match reads below, reads (below + 1) with
  | true, true => if 2 * rest < width then some below else some (below + 1)
  | true, false => some below
  | false, true => some (below + 1)
  | false, false => none

/-- Whole-number forms of a quantity at a binary scale and of a power of ten. -/
def overCommonUnit (scale tens : Int) : Nat × Nat :=
  (Nat.pow 2 scale.toNat * Nat.pow 10 (-tens).toNat,
    Nat.pow 10 tens.toNat * Nat.pow 2 (-scale).toNat)

/-- Try the grids from `10 ^ tens` down. -/
def searchGrids (x : Double) (fuel : Nat) (tens : Int) : Decimal :=
  match fuel with
  | 0 => ⟨0, 0⟩
  | fuel + 1 =>
    let (unit, width) := overCommonUnit (x.scale - 2) tens
    let value := 4 * x.significand
    let low := value - (if x.isNarrowBelow then 1 else 2)
    let closed := x.significand % 2 == 0
    match nearestOnGrid (value * unit) (low * unit) ((value + 2) * unit) width closed with
    | some digits => ⟨digits, tens⟩
    | none => searchGrids x fuel (tens - 1)

/-- The fewest digits that read back as a finite number other than zero. -/
def shortest (x : Double) : Decimal :=
  searchGrids x 660 309

end Double

end SqlBuilder
