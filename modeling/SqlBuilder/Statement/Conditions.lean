import SqlBuilder.Statement.Clauses
import SqlBuilder.Statement.Recording

/-!
# Conditions and joins

A condition compares a column with a value.  Its column is worked out once for
the key; conditions of one key stand together.  A group of conditions is built
as a statement of its own and takes a key of its own.  The conditions of a
join stay in the order in which they are made.
-/

namespace SqlBuilder

/-- The key of a column: its text, which must not be blank. -/
def Column.key (column : Column) : EStateM Error Trace String := do
  let key ← column.read
  if Text.isBlank key then throw (.unresolvable column) else return key

/-- `IN` and `BETWEEN` take certain operands only. -/
def Operator.check : Option Operator → Value → Except ArgumentFault Unit
  | some .isIn, value =>
    match value.shape with
    | .list => .ok ()
    | .query => .ok ()
    | .parameter => .ok ()
    | shape => .error (.inOperand shape)
  | some .between, value =>
    match value with
    | .list [_, _] => .ok ()
    | _ => .error .betweenOperand
  | _, _ => .ok ()

/-- Read an operator, if there is one. -/
def Operator.read : Option String → Except Error (Option Operator)
  | none => .ok none
  | some text =>
    match Operator.parse? text with
    | some op => .ok (some op)
    | none => .error (.operator text)

/-- Make a condition: operator, key and operand are checked in this order. -/
def Predicate.make (column : Column) (operator : Option String) (value : Value)
    (connective : Connective) : EStateM Error Trace Predicate := do
  let operator ← ofExcept (Operator.read operator)
  let key ← column.key
  ofExcept ((Operator.check operator value).mapError Error.argument)
  return { key, column, operator, value, connective }

namespace Statement

/-- Store a condition with the others of its key. -/
def storePredicate (s : Statement) (predicate : Predicate) : Statement :=
  { s with predicates := Keyed.insertGrouped Predicate.key predicate s.predicates }

/-- The key of the last group that was counted. -/
def groupKey (s : Statement) : String :=
  "#group" ++ toString s.groupCount

/-- The condition that holds a group. -/
def groupPredicate (s : Statement) (tag : Nat) (connective : Connective) (inner : Statement) :
    Predicate where
  key := s.groupKey
  column := .name s.groupKey
  operator := none
  value := .group tag inner
  connective := connective

/-- The conditions stored under the key of a column. -/
def predicatesOf (s : Statement) (key : String) : List Predicate :=
  s.predicates.filter fun p => p.key = key

/-- The conditions under the key that a column has now, if there are any. -/
def predicatesOn? (s : Statement) (column : Column) :
    EStateM Error Trace (Option (List Predicate)) := do
  let key ← column.key
  return s.predicateGroups.lookup key

end Statement

/-- A condition as it is given: nothing is checked yet. -/
structure Condition where
  column : Column
  operator : Option String
  value : Value
  connective : Connective := .and

namespace Condition

/-- Check a condition and work out its key. -/
def resolve (c : Condition) : EStateM Error Trace Predicate :=
  Predicate.make c.column c.operator c.value c.connective

/-- Work out conditions from left to right. -/
def resolveAll : List Condition → EStateM Error Trace (List Predicate)
  | [] => return []
  | c :: cs => do
    let predicate ← c.resolve
    let predicates ← resolveAll cs
    return predicate :: predicates

/-- Put together columns, operators and values of equal number. -/
def zip (connective : Connective) (columns : List Column) (operators : List String)
    (values : List Value) : Except ArgumentFault (List Condition) :=
  if columns.length = operators.length ∧ columns.length = values.length then
    .ok ((columns.zip (operators.zip values)).map fun (column, operator, value) =>
      ⟨column, some operator, value, connective⟩)
  else .error (.unequalLengths columns.length operators.length values.length)

end Condition

namespace Build

/-- Add a condition that is worked out. -/
def pushPredicate (predicate : Predicate) : Build Unit := do
  track [predicate.value]
  update (·.storePredicate predicate)

/-- Add one condition. -/
def condition (c : Condition) : Build Unit := do
  let predicate ← observe c.resolve
  pushPredicate predicate

/-- Add several conditions, all of which are checked before the first is stored. -/
def conditions (connective : Connective) (columns : List Column) (operators : List String)
    (values : List Value) : Build Unit := do
  let cs ← check (Condition.zip connective columns operators values)
  let predicates ← observe (Condition.resolveAll cs)
  track (predicates.map Predicate.value)
  updateEach Statement.storePredicate predicates

/-- Add the conditions of a finished group as one condition; an empty group adds nothing. -/
def group (tag : Nat) (connective : Connective) (inner : Statement) : Build Unit := do
  unless inner.predicates.isEmpty do
    update fun s => { s with groupCount := s.groupCount + 1 }
    pushPredicate ((← get).statement.groupPredicate tag connective inner)

/-- Attach a condition to the join at an index. -/
def on (index : Nat) (c : Condition) : Build Unit := do
  let predicate ← observe c.resolve
  track [predicate.value]
  update fun s => { s with joins := s.joins.modify index fun join =>
    { join with predicates := join.predicates ++ [predicate] } }

/-- Attach conditions one after the other; those before a failing one stay. -/
def onAll (index : Nat) : List Condition → Build Unit
  | [] => pure ()
  | c :: cs => do
    on index c
    onAll index cs

/-- Join a table under conditions; the answer is the index of the join. -/
def join (kind : JoinKind) (table : Expression) (ons : List Condition) : Build Nat := do
  ofExcept (Expression.checkAll .join [table])
  update fun s => { s with joins := s.joins ++ [⟨kind, table, []⟩] }
  let index := (← get).statement.joins.length - 1
  onAll index ons
  return index

end Build

end SqlBuilder
