import SqlBuilder.Calendar
import SqlBuilder.Config
import SqlBuilder.Keyed
import SqlBuilder.Parameter

/-!
# Statements

A statement under construction holds the parts it was given.  Values may hold
whole statements: sub-queries and groups of conditions, so that statements are
trees.  The header of a statement is the part that holds no values.
-/

namespace SqlBuilder

/-- A column to order by. -/
structure SortColumn where
  direction : Direction
  column : Column

/-- The part of a statement that holds no values. -/
structure Header where
  config : Config := {}
  kind : StatementKind := .undecided
  distinct : Bool := false
  columns : List Expression := []
  tables : List Expression := []
  groups : List Expression := []
  orders : List SortColumn := []
  limit : Option Int64 := none
  offset : Option Int64 := none
  target : Option Expression := none
  insertColumns : List Expression := []
  updateTables : List Expression := []
  deletes : Bool := false
  locked : Bool := false
  rawText : Option String := none
  /-- The names of the parameters that stored values refer to. -/
  markers : List String := []
  /-- The number of condition groups stored so far. -/
  groupCount : Nat := 0

mutual

/-- Operands of conditions, fields of rows, and bound values. -/
inductive Value where
  | null
  | bool (b : Bool)
  | int (n : Int64)
  | float (x : Double)
  | text (s : String)
  | date (d : Date)
  | dateTime (t : DateTime)
  /-- A named parameter, whose value is bound apart. -/
  | parameter (name : String)
  | column (c : Column)
  | list (items : List Value)
  /-- A sub-query; the tag tells it from other sub-queries. -/
  | query (tag : Nat) (statement : Statement)
  /-- A group of conditions; the tag tells it from other groups. -/
  | group (tag : Nat) (statement : Statement)

/-- A condition of a `WHERE` or an `ON`, under the key of its column. -/
structure Predicate where
  key : String
  column : Column
  operator : Option Operator
  value : Value
  connective : Connective

/-- A joined table with its conditions. -/
structure Join where
  kind : JoinKind
  table : Expression
  predicates : List Predicate

/-- A column that is set to a value, under the key of the column. -/
structure Assignment where
  key : String
  column : Column
  value : Value

/-- A statement that is joined to another by `UNION` or `UNION ALL`. -/
structure UnionMember where
  statement : Statement
  all : Bool

/-- A bound value, by name or by position only. -/
structure Binding where
  name : Option String
  value : Value

/-- A statement under construction. -/
structure Statement extends Header where
  predicates : List Predicate := []
  joins : List Join := []
  rows : List (List Value) := []
  assignments : List Assignment := []
  members : List UnionMember := []
  bindings : List Binding := []

end

namespace Value

/-- The kind of a value. -/
def shape : Value → Shape
  | .null => .null
  | .bool _ => .bool
  | .int _ => .int
  | .float _ => .float
  | .text _ => .text
  | .date _ => .date
  | .dateTime _ => .dateTime
  | .parameter _ => .parameter
  | .column _ => .column
  | .list _ => .list
  | .query _ _ => .query
  | .group _ _ => .group

/-- The value that stands for a missing one. -/
def isNull (value : Value) : Bool :=
  value.shape == .null

mutual

/-- Equality of values; deferred texts and statements are compared by identity. -/
def same : Value → Value → Bool
  | .null, .null => true
  | .bool left, .bool right => left == right
  | .int left, .int right => left == right
  | .float left, .float right => left.equal right
  | .text left, .text right => left == right
  | .date left, .date right => left == right
  | .dateTime left, .dateTime right => left == right
  | .parameter left, .parameter right => left == right
  | .column left, .column right => left.same right
  | .list left, .list right => sameAll left right
  | .query left _, .query right _ => left == right
  | .group left _, .group right _ => left == right
  | _, _ => false
termination_by structural value => value

/-- Lists of values are equal entry by entry. -/
def sameAll : List Value → List Value → Bool
  | [], [] => true
  | left :: lefts, right :: rights => left.same right && sameAll lefts rights
  | _, _ => false
termination_by structural values => values

end

end Value

namespace Binding

/-- A value bound by position only. -/
def positional (value : Value) : Binding :=
  ⟨none, value⟩

/-- A value bound to a name. -/
def named (given : String) (value : Value) : Binding :=
  ⟨some (Parameter.name given), value⟩

end Binding

namespace Config

/-- A fresh statement. -/
def statement (config : Config) : Statement :=
  { config }

/-- A fresh statement that is already known to select. -/
def selection (config : Config) : Statement :=
  { config, kind := .select }

end Config

namespace Statement

/-- The conditions under each key, keys in the order of their first appearance. -/
def predicateGroups (s : Statement) : List (String × List Predicate) :=
  Keyed.groups Predicate.key s.predicates

/-- The order columns of each direction, directions in the order of their first appearance. -/
def orderGroups (s : Statement) : List (Direction × List SortColumn) :=
  Keyed.groups SortColumn.direction s.orders

end Statement

end SqlBuilder
