import SqlBuilder.Statement.Session

/-!
# Clauses

The first call that says what a statement is for fixes its kind; a call for
another kind is refused from then on.  A read-only statement refuses to write.
Lists of columns and tables take no blank entries.
-/

namespace SqlBuilder

/-- None of the expressions is blank. -/
def Expression.checkAll (place : Place) (items : List Expression) : Except Error Unit :=
  if items.any Expression.isBlank then .error (.argument (.blankExpression place)) else .ok ()

namespace Statement

/-- Words that a read-only statement may not hold as raw text. -/
def writeWords : List String :=
  ["insert", "update", "drop", "delete", "create", "alter"]

/-- Characters that are dropped at the end of raw text. -/
def isRawEnd (c : Char) : Bool :=
  c == ';' || Text.isBlankChar c

/-- Raw text without semicolons and blanks at its end. -/
def trimRaw (sql : String) : String :=
  String.ofList (Text.dropTrailing isRawEnd sql.toList)

end Statement

namespace Build

/-- Fix the kind of the statement; a second kind is refused. -/
def claim (kind : StatementKind) : Build Unit := do
  let current := (← get).statement.kind
  if current = .undecided then
    update fun s => { s with kind }
  else if current ≠ kind then
    throw (.kindConflict current kind)

/-- Add expressions to a list of the statement, none of them blank. -/
def extend (place : Place) (items : List Expression)
    (store : Statement → List Expression → Statement) : Build Unit := do
  ofExcept (Expression.checkAll place items)
  update fun s => store s items

/-- A read-only statement refuses to write, and the refusal is recorded. -/
def requireWritable (kind : WriteKind) : Build Unit := do
  if (← get).statement.config.readOnly then
    observe (Trace.emit (.refusedWrite kind))
    throw (.readOnly (.writes kind))

/-- Select columns; without any, all are selected. -/
def select (columns : List Expression) : Build Unit := do
  claim .select
  extend .select columns fun s items => { s with columns := s.columns ++ items }

/-- Select columns of one row at random. -/
def random (columns : List Expression) : Build Unit := do
  claim .random
  extend .select columns fun s items => { s with columns := s.columns ++ items }

/-- Select each row once only. -/
def distinct : Build Unit :=
  update fun s => { s with distinct := true }

/-- Take rows from tables. -/
def tables (tables : List Expression) : Build Unit :=
  extend .table tables fun s items => { s with tables := s.tables ++ items }

/-- Refuse raw text with a word that writes, on a read-only statement. -/
def requireHarmless (sql : String) : Build Unit := do
  if (← get).statement.config.readOnly then
    match Statement.writeWords.find? (Text.mentions sql) with
    | some word =>
      observe (Trace.emit (.refusedKeyword word))
      throw (.readOnly (.keyword word))
    | none => pure ()

/-- Take the whole statement as text. -/
def raw (sql : String) : Build Unit := do
  requireHarmless sql
  claim .raw
  update fun s => { s with rawText := some (Statement.trimRaw sql) }

/-- Take at most so many rows; whether the count makes sense is seen when rendering. -/
def limit (n : Int64) : Build Unit :=
  update fun s => { s with limit := some n }

/-- Leave out so many rows. -/
def offset (n : Int64) : Build Unit :=
  update fun s => { s with offset := some n }

/-- Lock the selected rows. -/
def lock : Build Unit :=
  update fun s => { s with locked := true }

/-- Group rows by columns. -/
def groupBy (columns : List Expression) : Build Unit :=
  extend .groupBy columns fun s items => { s with groups := s.groups ++ items }

/-- Bind values, named or not. -/
def bind (bindings : List Binding) : Build Unit :=
  update fun s => { s with bindings := s.bindings ++ bindings }

end Build

end SqlBuilder
