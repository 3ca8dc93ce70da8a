import SqlBuilder.Number.Decimal

/-!
# Dates and times of day

A date is written as year, month and day, a moment as its date and its time of
day to the second.  Years of up to four digits take exactly four; others show
their sign.  A leap second is held as nanoseconds beyond the whole second.
-/

namespace SqlBuilder

/-- A day of the calendar. -/
structure Date where
  year : Int
  month : Nat
  day : Nat
  deriving DecidableEq

/-- A day and a time of day. -/
structure DateTime where
  date : Date
  hour : Nat
  minute : Nat
  second : Nat
  nanos : Nat
  deriving DecidableEq

namespace Calendar

/-- A number filled with zeros to a width. -/
def padded (width n : Nat) : String :=
  let text := toString n
  Decimal.zeros (width - text.length) ++ text

/-- Four digits for the years 0 to 9999, a sign and at least four digits for the others. -/
def yearText (year : Int) : String :=
  if year < 0 then "-" ++ padded 4 year.natAbs
  else if 9999 < year then "+" ++ padded 4 year.natAbs
  else padded 4 year.natAbs

end Calendar

namespace Date

open Calendar

/-- The date as year, month and day. -/
def text (d : Date) : String :=
  yearText d.year ++ "-" ++ padded 2 d.month ++ "-" ++ padded 2 d.day

end Date

namespace DateTime

open Calendar

/-- The second of the minute, 60 within a leap second. -/
def shownSecond (t : DateTime) : Nat :=
  t.second + t.nanos / 1000000000

/-- The time of day to the second. -/
def clockText (t : DateTime) : String :=
  padded 2 t.hour ++ ":" ++ padded 2 t.minute ++ ":" ++ padded 2 t.shownSecond

/-- The moment as date and time of day. -/
def text (t : DateTime) : String :=
  t.date.text ++ " " ++ t.clockText

/-- The fraction of the second in three, six or nine places, nothing if it is zero. -/
def fractionText (t : DateTime) : String :=
  let nanos := t.nanos % 1000000000
  if nanos == 0 then ""
  else if nanos % 1000000 == 0 then "." ++ padded 3 (nanos / 1000000)
  else if nanos % 1000 == 0 then "." ++ padded 6 (nanos / 1000)
  else "." ++ padded 9 nanos

/-- The moment as a description shows it. -/
def describe (t : DateTime) : String :=
  t.date.text ++ "T" ++ t.clockText ++ t.fractionText

end DateTime

end SqlBuilder
