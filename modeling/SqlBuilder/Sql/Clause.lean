import SqlBuilder.Sql.Scope

/-!
# Clauses as text

The clauses of a statement are put together here from its header and from the
renderings of the parts that hold values.  Those parts are rendered in the
order in which they are written, with one exception: the rows of an `INSERT`
come before its target and columns.
-/

namespace SqlBuilder

/-- A count that is given must not be negative. -/
def Count.check (count : Count) : Option Int64 → Render (Option Nat)
  | none => return none
  | some n => if n.toInt < 0 then throw (.negative count n) else return some n.toInt.toNat

namespace Header

/-- The statement takes one row at random. -/
def isRandom (h : Header) : Bool :=
  h.kind == .random

/-- The rows come in an order. -/
def isOrdered (h : Header) : Bool :=
  h.isRandom || !h.orders.isEmpty

/-- The statement has an order or a count of its own. -/
def isBounded (h : Header) : Bool :=
  !h.orders.isEmpty || h.limit.isSome || h.offset.isSome

/-- The limit of a statement that selects; a random one takes a single row. -/
def selectLimit (h : Header) : Render (Option Nat) :=
  if h.isRandom then return some 1 else Count.limit.check h.limit

end Header

namespace Scope

/-- A keyword and what follows it, or nothing if nothing follows. -/
def clause (keyword : String) (isEmpty : Bool) (rest : Render String) : Render String := do
  if isEmpty then return "" else return keyword ++ (← rest)

/-- A text behind a blank, or nothing if there is no text. -/
def spaced : Option String → String
  | some text => " " ++ text
  | none => ""

/-- The selected columns, all if none are named. -/
def columns (scope : Scope) (h : Header) : Render String :=
  if h.columns.isEmpty then return "*" else scope.expressions h.columns

/-- What follows a table: a hint if rows are locked by hints. -/
def tableHint (scope : Scope) (h : Header) : String :=
  if h.locked then spaced scope.grammar.tableLockHint else ""

/-- The tables, each with its hint. -/
def tables (scope : Scope) (h : Header) : Render String :=
  clause " FROM " h.tables.isEmpty do
    let texts ← scope.expressionTexts h.tables
    return ", ".intercalate (texts.map (· ++ scope.tableHint h))

/-- The columns that rows are grouped by. -/
def groups (scope : Scope) (h : Header) : Render String :=
  clause " GROUP BY " h.groups.isEmpty (scope.expressions h.groups)

/-- From the tables to the groups. -/
def body (scope : Scope) (h : Header) (joins wheres : Render String) : Render String := do
  let tables ← scope.tables h
  let joins ← joins
  let wheres ← wheres
  let groups ← scope.groups h
  return tables ++ joins ++ wheres ++ groups

/-- The order; a random order comes last. -/
def order (scope : Scope) (h : Header) : Render String :=
  clause " ORDER BY " (!h.isOrdered) do
    let texts ← scope.orderTexts h.orders
    let random := if h.isRandom then [scope.grammar.randomOrder] else []
    return ", ".intercalate (texts ++ random)

/-- The pagination that remains for the end of a statement. -/
def pagination (scope : Scope) (limit offset : Option Nat) (ordered : Bool) : String :=
  let limit := if (scope.grammar.selectTop limit offset).isSome then none else limit
  spaced (scope.grammar.pagination limit offset ordered)

/-- What ends a statement that locks rows. -/
def lockSuffix (scope : Scope) (h : Header) : String :=
  if h.locked then spaced scope.grammar.lockSuffix else ""

/-- A statement that selects. -/
def select (scope : Scope) (h : Header) (joins wheres members : Render String) :
    Render String := do
  let limit ← h.selectLimit
  let offset ← Count.offset.check h.offset
  let columns ← scope.columns h
  let body ← scope.body h joins wheres
  let members ← members
  let order ← scope.order h
  return "SELECT" ++ (if h.distinct then " DISTINCT" else "") ++
    spaced (scope.grammar.selectTop limit offset) ++ " " ++ columns ++ body ++ members ++
    order ++ scope.pagination limit offset h.isOrdered ++ scope.lockSuffix h

/-- A member of a union; in parentheses if it has an order or a count of its own. -/
def member (scope : Scope) (h : Header) (statement : Render String) : Render String := do
  if h.locked then throw .lockedMember
  let sql ← statement
  if !(h.isRandom || h.isBounded) then return sql
  else if scope.grammar.parenthesizesMembers then return "(" ++ sql ++ ")"
  else throw (.boundedMember scope.grammar.name)

/-- The target of an `INSERT`. -/
def insertTarget (h : Header) : Render Expression :=
  match h.target with
  | some target => return target
  | none => throw .noInsertTarget

/-- The named columns of the rows, if any. -/
def insertColumns (scope : Scope) (h : Header) : Render String := do
  if h.insertColumns.isEmpty then return ""
  else return " (" ++ (← scope.expressions h.insertColumns) ++ ")"

/-- A row must have as many fields as there are columns, if columns are named. -/
def checkWidth (row fields columns : Nat) : Render Unit :=
  if columns ≠ 0 ∧ fields ≠ columns then throw (.rowWidth row fields columns) else return ()

/-- A statement that inserts. -/
def insert (scope : Scope) (h : Header) (hasRows : Bool) (rows : Render (List String)) :
    Render String := do
  let target ← insertTarget h
  if !hasRows then throw .noRows
  let rows ← rows
  let target ← scope.expression target
  let columns ← scope.insertColumns h
  return "INSERT INTO " ++ target ++ columns ++ " VALUES " ++ ", ".intercalate rows

/-- The order and the limit of a statement that updates or deletes. -/
def writeTail (scope : Scope) (h : Header) (kind : WriteKind) : Render String := do
  let limit ← Count.limit.check h.limit
  if !h.isBounded then return ""
  if !scope.grammar.boundsWrites then throw (.boundedWrite scope.grammar.name kind)
  if h.offset.isSome then throw (.offsetWrite kind)
  let order ← scope.order h
  return order ++ spaced (limit.map fun n => "LIMIT " ++ toString n)

/-- Statements that update or delete have no joins. -/
def checkJoins (kind : WriteKind) (hasJoins : Bool) : Render Unit :=
  if hasJoins then throw (.joined kind) else return ()

/-- The tables that are updated, the target if none are named. -/
def updateTables (scope : Scope) (h : Header) : Render String :=
  if !h.updateTables.isEmpty then scope.expressions h.updateTables
  else match h.target with
    | some target => scope.expression target
    | none => throw .noUpdateTable

/-- A statement that updates. -/
def update (scope : Scope) (h : Header) (hasJoins hasAssignments : Bool)
    (assignments : Render (List String)) (wheres : Render String) : Render String := do
  checkJoins .update hasJoins
  let tables ← scope.updateTables h
  if !hasAssignments then throw .noAssignment
  let assignments ← assignments
  let wheres ← wheres
  let tail ← scope.writeTail h .update
  return "UPDATE " ++ tables ++ " SET " ++ ", ".intercalate assignments ++ wheres ++ tail

/-- The table that rows are deleted from: the target, or the first table. -/
def deleteTable (scope : Scope) (h : Header) : Render String :=
  match h.target <|> h.tables.head? with
  | some table => scope.expression table
  | none => throw .noDeleteTable

/-- A statement that deletes. -/
def delete (scope : Scope) (h : Header) (hasJoins : Bool) (wheres : Render String) :
    Render String := do
  checkJoins .delete hasJoins
  let table ← scope.deleteTable h
  let wheres ← wheres
  let tail ← scope.writeTail h .delete
  return "DELETE FROM " ++ table ++ wheres ++ tail

/-- A statement that was taken as text. -/
def raw (h : Header) : Render String :=
  match h.rawText with
  | some text => return text
  | none => throw .noRawText

end Scope

end SqlBuilder
