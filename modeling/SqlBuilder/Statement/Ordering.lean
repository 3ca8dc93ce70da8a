import SqlBuilder.Statement.Conditions

/-!
# Ordering

Columns are ordered by one direction each.  A single column takes a single
direction; several columns take one direction for all or one for each.  The
columns of one direction stand together.
-/

namespace SqlBuilder

/-- The columns of an order: one, or a list. -/
inductive OrderColumns where
  | one (column : Column)
  | many (columns : List Column)

/-- The directions of an order: one for all columns, or one for each. -/
inductive OrderDirections where
  | one (text : String)
  | each (texts : List String)

namespace Ordering

/-- Read a direction. -/
def direction (text : String) : Except ArgumentFault Direction :=
  match Direction.parse? text with
  | some direction => .ok direction
  | none => .error (.direction (Text.trim text))

/-- Give each column its direction. -/
def pair : OrderColumns → OrderDirections → Except ArgumentFault (List SortColumn)
  | .one column, .one text => do
    return [⟨← direction text, column⟩]
  | .one _, .each _ => .error .directionsForOneColumn
  | .many columns, .one text => do
    let direction ← direction text
    return columns.map fun column => ⟨direction, column⟩
  | .many columns, .each texts =>
    if columns.length = texts.length then
      (columns.zip texts).mapM fun (column, text) => do
        return ⟨← direction text, column⟩
    else .error (.directionCount columns.length texts.length)

/-- Every column must have a key. -/
def resolveAll : List SortColumn → EStateM Error Trace Unit
  | [] => return ()
  | c :: cs => do
    let _ ← c.column.key
    resolveAll cs

end Ordering

namespace Statement

/-- Store an order column with the others of its direction. -/
def storeOrder (s : Statement) (column : SortColumn) : Statement :=
  { s with orders := Keyed.insertGrouped SortColumn.direction column s.orders }

end Statement

namespace Build

/-- Order by columns. -/
def orderBy (columns : OrderColumns) (directions : OrderDirections) : Build Unit := do
  let pairs ← check (Ordering.pair columns directions)
  observe (Ordering.resolveAll pairs)
  updateEach Statement.storeOrder pairs

end Build

end SqlBuilder
