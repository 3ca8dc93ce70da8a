import SqlBuilder.Statement.Conditions

/-!
# Writing rows

`INSERT` takes rows of values, `UPDATE` takes assignments, and `DELETE` takes
neither.  A row may be extended or replaced, an assignment overwritten; the
parameter names of what is overwritten are forgotten, the last ones first.
-/

namespace SqlBuilder

namespace Statement

/-- The row that a value leaves in the place of the last row: a list replaces it. -/
def extendedRow (last : List Value) : Value → List Value
  | .list fields => fields
  | field => last ++ [field]

/-- The names that a value makes the last row forget. -/
def replacedNames (last : List Value) : Value → Except ArgumentFault (List String)
  | .list _ => Value.markersOfAll last
  | _ => .ok []

/-- The value that is assigned to a key. -/
def assigned? (s : Statement) (key : String) : Option Value :=
  (s.assignments.find? fun a => a.key = key).map Assignment.value

/-- The values that assignments would overwrite. -/
def overwritten (s : Statement) (assignments : List Assignment) : List Value :=
  assignments.filterMap fun a => s.assigned? a.key

/-- Store an assignment in the place of the old one of its key. -/
def storeAssignment (s : Statement) (assignment : Assignment) : Statement :=
  { s with assignments := Keyed.upsert Assignment.key assignment s.assignments }

end Statement

namespace Assignment

/-- Work out the keys of columns that are set. -/
def resolveAll : List (Column × Value) → EStateM Error Trace (List Assignment)
  | [] => return []
  | (column, value) :: pairs => do
    let key ← column.key
    let assignments ← resolveAll pairs
    return ⟨key, column, value⟩ :: assignments

end Assignment

namespace Build

/-- Insert rows, with named columns or without. -/
def insert (columns : List Expression) : Build Unit := do
  requireWritable .insert
  claim .insert
  extend .insertColumn columns fun s items => { s with insertColumns := s.insertColumns ++ items }

/-- Name the table that is written. -/
def into (target : Expression) : Build Unit := do
  ofExcept (Expression.checkAll .target [target])
  update fun s => { s with target := some target }

/-- Add a row of values. -/
def values (row : List Value) : Build Unit := do
  track row
  update fun s => { s with rows := s.rows ++ [row] }

/-- Extend the last row by a value, or replace it by a list of values. -/
def value (value : Value) : Build Unit := do
  match (← get).statement.rows.getLast? with
  | none => throw (.argument .noRowToExtend)
  | some last =>
    let replaced ← check (Statement.replacedNames last value)
    let mark := (← get).statement.markers.length
    track [value]
    update (·.forget replaced mark)
    update fun s =>
      { s with rows := s.rows.dropLast ++ [Statement.extendedRow last value] }

/-- Update tables; without any, the target is updated. -/
def updateTables (tables : List Expression) : Build Unit := do
  requireWritable .update
  claim .update
  extend .update tables fun s items => { s with updateTables := s.updateTables ++ items }

/-- Set columns to values; what they overwrite is looked up before the first is stored. -/
def set (pairs : List (Column × Value)) : Build Unit := do
  let assignments ← observe (Assignment.resolveAll pairs)
  let s := (← get).statement
  let replaced ← check (Value.markersOfAll (s.overwritten assignments))
  track (assignments.map Assignment.value)
  update (·.forget replaced s.markers.length)
  updateEach Statement.storeAssignment assignments

/-- Delete rows. -/
def delete : Build Unit := do
  requireWritable .delete
  claim .delete
  update fun s => { s with deletes := true }

end Build

end SqlBuilder
