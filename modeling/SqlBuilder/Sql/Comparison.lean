import SqlBuilder.Sql.Scope

/-!
# Comparisons

Most comparisons are written as column, operator and operand.  Comparisons
with a missing value, with a list and with two bounds have forms of their own.
-/

namespace SqlBuilder

/-- How a comparison is written. -/
inductive Comparison where
  | isNull
  | isNotNull
  /-- A column is never among no values. -/
  | never
  | among
  | amongMarked
  | between
  | badBetween
  | plain
  deriving DecidableEq

namespace Comparison

/-- The form of a comparison, from its operator and operand. -/
def of : Operator → Value → Comparison
  | .equal, .null => .isNull
  | .unequal, .null => .isNotNull
  | .unequalAnsi, .null => .isNotNull
  | .isIn, .list [] => .never
  | .isIn, .list _ => .among
  | .isIn, .parameter _ => .amongMarked
  | .between, .list [_, _] => .between
  | .between, _ => .badBetween
  | _, _ => .plain

/--
Write a comparison of a column.  The operand, or the entries of the list that
it is, are worked out only if the form shows them.
-/
def write (form : Comparison) (column operator : String) (operand : Render String)
    (entries : Render (List String)) : Render String :=
  match form with
  | .isNull => return column ++ " IS NULL"
  | .isNotNull => return column ++ " IS NOT NULL"
  | .never => return "1 = 0"
  | .among => return column ++ " IN " ++ (← operand)
  | .amongMarked => return column ++ " IN (" ++ (← operand) ++ ")"
  | .between => return column ++ " BETWEEN " ++ " AND ".intercalate (← entries)
  | .badBetween => throw .betweenBounds
  | .plain => return column ++ " " ++ operator ++ " " ++ (← operand)

end Comparison

end SqlBuilder
