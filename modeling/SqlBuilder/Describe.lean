import SqlBuilder.Statement.Basic

/-!
# Descriptions of statements

A description shows the main parts of a statement on one line.  It works out
no deferred text and shows nested statements by their kind only.
-/

namespace SqlBuilder

namespace Describe

/-- Entries between brackets. -/
def list (items : List String) : String :=
  "[" ++ ", ".intercalate items ++ "]"

/-- Keys and entries between braces. -/
def keyed (items : List (String × String)) : String :=
  "\x7b" ++ ", ".intercalate (items.map fun (key, item) => key ++ ": " ++ item) ++ "\x7d"

/-- Something that may be missing. -/
def optional : Option String → String
  | some item => "Some(" ++ item ++ ")"
  | none => "None"

/-- Named fields behind the name of what they belong to. -/
def record (name : String) (fields : List (String × String)) : String :=
  name ++ " \x7b " ++ ", ".intercalate (fields.map fun (field, item) => field ++ ": " ++ item) ++
    " \x7d"

end Describe

/-- The name of an operator in descriptions. -/
def Operator.label : Operator → String
  | .equal => "Eq"
  | .less => "Lt"
  | .greater => "Gt"
  | .atMost => "Lte"
  | .atLeast => "Gte"
  | .unequalAnsi => "NotEqAnsi"
  | .unequal => "NotEq"
  | .like => "Like"
  | .likeBinary => "LikeBinary"
  | .notLike => "NotLike"
  | .between => "Between"
  | .ilike => "Ilike"
  | .bitAnd => "BitAnd"
  | .bitOr => "BitOr"
  | .bitXor => "BitXor"
  | .shiftLeft => "ShiftLeft"
  | .shiftRight => "ShiftRight"
  | .rlike => "Rlike"
  | .regexp => "Regexp"
  | .notRegexp => "NotRegexp"
  | .tilde => "Match"
  | .tildeFolded => "MatchInsensitive"
  | .notTilde => "NotMatch"
  | .notTildeFolded => "NotMatchInsensitive"
  | .similarTo => "SimilarTo"
  | .notSimilarTo => "NotSimilarTo"
  | .isIn => "In"

/-- The name of a connective in descriptions. -/
def Connective.label : Connective → String
  | .and => "And"
  | .or => "Or"

/-- The name of a kind of join in descriptions. -/
def JoinKind.label : JoinKind → String
  | .plain => "Join"
  | .left => "Left"
  | .leftOuter => "LeftOuter"
  | .leftInner => "LeftInner"
  | .right => "Right"
  | .rightOuter => "RightOuter"
  | .rightInner => "RightInner"
  | .outer => "Outer"
  | .inner => "Inner"
  | .cross => "Cross"
  | .full => "Full"
  | .fullOuter => "FullOuter"

/-- The name of a direction in descriptions. -/
def Direction.label : Direction → String
  | .ascending => "Asc"
  | .descending => "Desc"

namespace Value

mutual

/-- A value as a description shows it. -/
def describe : Value → String
  | .null => "Null"
  | .bool b => "Bool(" ++ toString b ++ ")"
  | .int n => "Int(" ++ toString n.toInt ++ ")"
  | .float x => "Float(" ++ x.describe ++ ")"
  | .text s => "Text(" ++ Text.escaped s ++ ")"
  | .date d => "Date(" ++ d.text ++ ")"
  | .dateTime t => "DateTime(" ++ t.describe ++ ")"
  | .parameter name => "Param(" ++ Describe.record "Parameter" [("name", Text.escaped name)] ++ ")"
  | .column c => "Column(" ++ c.describe ++ ")"
  | .list items => "List(" ++ Describe.list (describeAll items) ++ ")"
  | .query _ s => "Query(SubQuery(" ++ s.kind.label ++ "))"
  | .group _ s => "Group(SubQuery(" ++ s.kind.label ++ "))"
termination_by structural value => value

/-- Values as a description shows them. -/
def describeAll : List Value → List String
  | [] => []
  | value :: values => value.describe :: describeAll values
termination_by structural values => values

end

end Value

namespace Predicate

/-- A condition as a description shows it. -/
def describe (p : Predicate) : String :=
  Describe.record "Predicate" [
    ("key", Text.escaped p.key),
    ("column", p.column.describe),
    ("operator", Describe.optional (p.operator.map Operator.label)),
    ("value", p.value.describe),
    ("boolean", p.connective.label)]

end Predicate

namespace Join

/-- A join as a description shows it. -/
def describe (join : Join) : String :=
  Describe.record "Join" [
    ("kind", join.kind.label),
    ("table", join.table.describe),
    ("predicates", Describe.list (join.predicates.map Predicate.describe))]

end Join

namespace Binding

/-- A binding as a description shows it. -/
def describe (binding : Binding) : String :=
  Describe.record "Binding" [
    ("name", Describe.optional (binding.name.map Text.escaped)),
    ("value", binding.value.describe)]

end Binding

namespace Statement

/-- The conditions of a statement as a description shows them. -/
def describePredicates (s : Statement) : String :=
  Describe.keyed (s.predicateGroups.map fun (key, predicates) =>
    (Text.escaped key, Describe.list (predicates.map Predicate.describe)))

/-- The order of a statement as a description shows it. -/
def describeOrders (s : Statement) : String :=
  Describe.keyed (s.orderGroups.map fun (direction, columns) =>
    (direction.label, Describe.list (columns.map fun c => c.column.describe)))

/-- A count as a description shows it. -/
def describeCount (count : Option Int64) : String :=
  Describe.optional (count.map fun n => toString n.toInt)

/-- A statement as a description shows it; the dots stand for the parts that are left out. -/
def describe (s : Statement) : String :=
  let fields := [
    ("grammar", Text.escaped s.config.grammar.name),
    ("read_only", toString s.config.readOnly),
    ("kind", s.kind.label),
    ("columns", Describe.list (s.columns.map Expression.describe)),
    ("from", Describe.list (s.tables.map Expression.describe)),
    ("joins", Describe.list (s.joins.map Join.describe)),
    ("wheres", s.describePredicates),
    ("orders", s.describeOrders),
    ("limit", describeCount s.limit),
    ("offset", describeCount s.offset),
    ("rows", Describe.list (s.rows.map fun row => Describe.list (row.map Value.describe))),
    ("bindings", Describe.list (s.bindings.map Binding.describe))]
  let shown := fields.map fun (field, item) => field ++ ": " ++ item
  "QueryBuilder \x7b " ++ ", ".intercalate (shown ++ [".."]) ++ " \x7d"

end Statement

end SqlBuilder
