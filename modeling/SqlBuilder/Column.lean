import SqlBuilder.Trace
import SqlBuilder.Text.Escaped

/-!
# Columns and expressions

A column names what a condition, an assignment or an order is about.  An
expression stands where a statement lists columns or tables: plain text is
quoted when it is an identifier, raw and deferred text never is.
-/

namespace SqlBuilder

/-- A reference to a column. -/
inductive Column where
  | name (content : String)
  | handle (label : String)
  | deferred (content : Deferred)

namespace Column

/-- Equality of references; deferred texts are compared by identity. -/
def same : Column → Column → Bool
  | .name left, .name right => left == right
  | .handle left, .handle right => left == right
  | .deferred left, .deferred right => left.same right
  | _, _ => false

/-- The text of a reference, worked out if it is deferred. -/
def read {ε : Type} : Column → EStateM ε Trace String
  | .name content => pure content
  | .handle label => pure label
  | .deferred content => content.eval

/-- A reference as a description shows it. -/
def describe : Column → String
  | .name content => "Name(" ++ Text.escaped content ++ ")"
  | .handle label => "Handle(ColumnHandle \x7b name: " ++ Text.escaped label ++ " \x7d)"
  | .deferred _ => "Deferred(Deferred(\"<fn>\"))"

end Column

/-- An entry of a list of columns or tables. -/
inductive Expression where
  | text (content : String)
  | raw (content : String)
  | deferred (content : Deferred)

namespace Expression

/-- Text that is known now and holds blanks only. -/
def isBlank : Expression → Bool
  | .text content => Text.isBlank content
  | .raw content => Text.isBlank content
  | .deferred _ => false

/-- The text of an expression, worked out if it is deferred. -/
def read {ε : Type} : Expression → EStateM ε Trace String
  | .text content => pure content
  | .raw content => pure content
  | .deferred content => content.eval

/-- An expression as a description shows it. -/
def describe : Expression → String
  | .text content => "Text(" ++ Text.escaped content ++ ")"
  | .raw content => "Raw(" ++ Text.escaped content ++ ")"
  | .deferred _ => "Deferred(Deferred(\"<fn>\"))"

end Expression

end SqlBuilder
