import SqlBuilder.GroupConcat
import SqlBuilder.Sql.Clause
import SqlBuilder.Sql.Comparison

/-!
# Statements as text

A statement is written by one walk over the tree of its values.  The first
fault ends the walk.
-/

namespace SqlBuilder

namespace Scope

mutual

/-- A value as it stands in a statement. -/
def value (scope : Scope) : Value → Render String
  | .null => return "NULL"
  | .bool b => return scope.grammar.boolLiteral b
  | .int n => return toString n.toInt
  | .float x => number x
  | .text s => return scope.literal s
  | .date d => return "'" ++ d.text ++ "'"
  | .dateTime t => return "'" ++ t.text ++ "'"
  | .parameter name => return scope.marker name
  | .column c => scope.column c
  | .list items => return "(" ++ ", ".intercalate (← values scope items) ++ ")"
  | .query _ s => return "(" ++ (← statement scope s) ++ ")"
  | .group _ ⟨_, predicates, _, _, _, _, _⟩ =>
    return "(" ++ (← conditions scope predicates) ++ ")"
termination_by structural value => value

/-- Values from left to right. -/
def values (scope : Scope) : List Value → Render (List String)
  | [] => return []
  | item :: items => do
    let text ← value scope item
    let texts ← values scope items
    return text :: texts
termination_by structural values => values

/-- The entries of a list; any other value has none. -/
def entries (scope : Scope) : Value → Render (List String)
  | .list items => values scope items
  | _ => return []
termination_by structural value => value

/-- A condition without an operator is a group, or its column alone. -/
def predicate (scope : Scope) : Predicate → Render String
  | ⟨_, column, none, operand, _⟩ =>
    if operand.shape = .group then value scope operand else scope.column column
  | ⟨_, column, some op, operand, _⟩ => do
    let column ← scope.column column
    (Comparison.of op operand).write column (scope.grammar.operator op) (value scope operand)
      (entries scope operand)
termination_by structural predicate => predicate

/-- Conditions, each behind its connective. -/
def furtherConditions (scope : Scope) : List Predicate → Render String
  | [] => return ""
  | p :: ps => do
    let text ← predicate scope p
    let texts ← furtherConditions scope ps
    return " " ++ p.connective.sql ++ " " ++ text ++ texts
termination_by structural predicates => predicates

/-- Conditions, the first without its connective. -/
def conditions (scope : Scope) : List Predicate → Render String
  | [] => return ""
  | p :: ps => do
    let text ← predicate scope p
    let texts ← furtherConditions scope ps
    return text ++ texts
termination_by structural predicates => predicates

/-- Joined tables with their conditions. -/
def joins (scope : Scope) : List Join → Render String
  | [] => return ""
  | ⟨kind, table, predicates⟩ :: others => do
    let table ← scope.expression table
    let on ← clause " ON " predicates.isEmpty (conditions scope predicates)
    let texts ← joins scope others
    return " " ++ kind.sql ++ " " ++ table ++ on ++ texts
termination_by structural joins => joins

/-- Rows of values, numbered from `index`, for a number of columns. -/
def rows (scope : Scope) (columns index : Nat) : List (List Value) → Render (List String)
  | [] => return []
  | row :: others => do
    checkWidth index row.length columns
    let fields ← values scope row
    let texts ← rows scope columns (index + 1) others
    return ("(" ++ ", ".intercalate fields ++ ")") :: texts
termination_by structural rows => rows

/-- Columns that are set, with their values. -/
def assignments (scope : Scope) : List Assignment → Render (List String)
  | [] => return []
  | ⟨_, column, operand⟩ :: others => do
    let column ← scope.column column
    let text ← value scope operand
    let texts ← assignments scope others
    return (column ++ " = " ++ text) :: texts
termination_by structural assignments => assignments

/-- The further members of a union. -/
def members (scope : Scope) : List UnionMember → Render String
  | [] => return ""
  | ⟨s, all⟩ :: others => do
    let text ← member scope s.toHeader (statement scope s)
    let texts ← members scope others
    return (if all then " UNION ALL " else " UNION ") ++ text ++ texts
termination_by structural members => members

/-- A statement, by its kind. -/
def statement (scope : Scope) : Statement → Render String
  | ⟨h, ps, js, rs, as, ms, _⟩ =>
    let wheres := clause " WHERE " ps.isEmpty (conditions scope ps)
    match h.kind with
    | .select => scope.select h (joins scope js) wheres (members scope ms)
    | .random => scope.select h (joins scope js) wheres (members scope ms)
    | .insert => scope.insert h (!rs.isEmpty) (rows scope h.insertColumns.length 0 rs)
    | .update => scope.update h (!js.isEmpty) (!as.isEmpty) (assignments scope as) wheres
    | .delete => scope.delete h (!js.isEmpty) wheres
    | .raw => raw h
    | .undecided => throw .undecided
termination_by structural statement => statement

end

/-- The conditions of a statement behind `WHERE`. -/
def wheres (scope : Scope) (s : Statement) : Render String :=
  clause " WHERE " s.predicates.isEmpty (scope.conditions s.predicates)

/-- A group concatenation as a statement that selects its aggregate. -/
def concat (scope : Scope) (c : GroupConcat) : Render String := do
  if c.columns.isEmpty then throw .noConcatColumn
  let columns ← scope.expressionTexts c.columns
  let s := c.statement
  let body ← scope.body s.toHeader (scope.joins s.joins) (scope.wheres s)
  return "SELECT " ++ scope.grammar.concatAggregate columns (scope.literal c.separator) ++
    " AS " ++ scope.wrapped c.label ++ body

end Scope

namespace Statement

/-- The statement in a given grammar. -/
def sqlIn (s : Statement) (grammar : Grammar) : Render String :=
  (s.scope grammar).statement s

/-- The statement in the grammar it was made with. -/
def sql (s : Statement) : Render String :=
  s.sqlIn s.config.grammar

end Statement

namespace GroupConcat

/-- The group concatenation in a given grammar. -/
def sqlIn (c : GroupConcat) (grammar : Grammar) : Render String :=
  (c.statement.scope grammar).concat c

/-- The group concatenation in the grammar it was made with. -/
def sql (c : GroupConcat) : Render String :=
  c.sqlIn c.statement.config.grammar

end GroupConcat

end SqlBuilder
