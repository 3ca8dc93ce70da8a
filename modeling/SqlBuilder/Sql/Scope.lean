import SqlBuilder.Ident.Wrap
import SqlBuilder.Statement.Basic

/-!
# What a rendering is relative to

Nested statements are written in the grammar of the outermost statement and
with its positions of bindings.  Of the bindings only the names matter: no
bound value can reach the text.  Deferred text is worked out where it is
written.
-/

namespace SqlBuilder

/-- Rendering works out deferred text, and may find a fault. -/
abbrev Render := EStateM RenderFault Trace

/-- The grammar to write in, and the names of the bindings. -/
structure Scope where
  grammar : Grammar
  names : List (Option String)

namespace Scope

/-- The position of the first binding of a name, counted from one. -/
def position? (scope : Scope) (name : String) : Option Nat :=
  (scope.names.findIdx? (· == some name)).map (· + 1)

/-- The marker of a parameter. -/
def marker (scope : Scope) (name : String) : String :=
  scope.grammar.marker name (scope.position? name)

/-- A string literal. -/
def literal (scope : Scope) (text : String) : String :=
  "'" ++ scope.grammar.escape text ++ "'"

/-- Text that is quoted if it is an identifier, with or without an alias. -/
def wrapped (scope : Scope) (text : String) : String :=
  Ident.wrap scope.grammar.quote text

/-- A finite number; there are no literals for the others. -/
def number (x : Double) : Render String :=
  if x.isFinite then return x.text else throw (.notFinite x)

/-- An entry of a list of columns or tables. -/
def expression (scope : Scope) : Expression → Render String
  | .text content => return scope.wrapped content
  | .raw content => return content
  | .deferred content => content.eval

/-- A reference to a column. -/
def column (scope : Scope) : Column → Render String
  | .name content => return scope.wrapped content
  | .handle label => return scope.wrapped label
  | .deferred content => content.eval

/-- The texts of entries, from left to right. -/
def expressionTexts (scope : Scope) : List Expression → Render (List String)
  | [] => return []
  | item :: items => do
    let text ← scope.expression item
    let texts ← scope.expressionTexts items
    return text :: texts

/-- Entries separated by commas. -/
def expressions (scope : Scope) (items : List Expression) : Render String :=
  return ", ".intercalate (← scope.expressionTexts items)

/-- The columns of an order with their directions, from left to right. -/
def orderTexts (scope : Scope) : List SortColumn → Render (List String)
  | [] => return []
  | item :: items => do
    let text ← scope.column item.column
    let texts ← scope.orderTexts items
    return (text ++ " " ++ item.direction.sql) :: texts

end Scope

namespace Statement

/-- The scope of a statement that is rendered in a given grammar. -/
def scope (s : Statement) (grammar : Grammar) : Scope :=
  ⟨grammar, s.bindings.map Binding.name⟩

end Statement

end SqlBuilder
