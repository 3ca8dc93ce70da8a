import SqlBuilder.Statement.Call

/-!
# Group concatenation

A group concatenation joins columns of each group of rows into one string.  It
is a statement that selects, together with the columns to join, the separator
and the name of the result.
-/

namespace SqlBuilder

/-- A statement that joins columns into one string per group. -/
structure GroupConcat where
  statement : Statement
  columns : List Expression := []
  separator : String := ","
  label : String := "concat"

namespace Statement

/-- The statement with its kind fixed; a second kind is refused. -/
def claim (s : Statement) (kind : StatementKind) : Except Error Statement :=
  if s.kind = .undecided then .ok { s with kind }
  else if s.kind = kind then .ok s
  else .error (.kindConflict s.kind kind)

/-- The statement as one that selects. -/
def asSelection (s : Statement) : Except Error Statement :=
  s.claim .select

end Statement

namespace GroupConcat

/-- A fresh concatenation. -/
def ofConfig (config : Config) : GroupConcat :=
  { statement := config.selection }

/-- A concatenation over a statement that selects or is undecided. -/
def ofStatement? (s : Statement) : Except Error GroupConcat := do
  return { statement := ← s.asSelection }

/-- Add columns up to the first blank one, which fails the call. -/
def addColumns (concat : GroupConcat) : List Expression → GroupConcat × Except Error Unit
  | [] => (concat, .ok ())
  | column :: columns =>
    match Expression.checkAll .concatColumn [column] with
    | .error error => (concat, .error error)
    | .ok () => { concat with columns := concat.columns ++ [column] }.addColumns columns

/-- Separate the joined strings by a text. -/
def separatedBy (concat : GroupConcat) (separator : String) : GroupConcat :=
  { concat with separator }

/-- Name the result. -/
def labelled (concat : GroupConcat) (label : String) : Except Error GroupConcat :=
  if Text.isBlank label then .error (.argument .blankLabel) else .ok { concat with label }

end GroupConcat

end SqlBuilder
