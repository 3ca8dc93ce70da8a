import SqlBuilder.Dialect
import SqlBuilder.Hook
import SqlBuilder.Text.Escaped

/-!
# Configuration

What every statement is made with: the grammar it is rendered by, whether it
may write, and the hook that is shown its text.
-/

namespace SqlBuilder

/-- The configuration of a statement. -/
structure Config where
  grammar : Grammar := .postgres
  readOnly : Bool := false
  hook : Option Hook := none

namespace Config

/-- A configuration as a description shows it. -/
def describe (config : Config) : String :=
  "BuilderConfig \x7b grammar: " ++ Text.escaped config.grammar.name ++
    ", read_only: " ++ toString config.readOnly ++
    ", hook: " ++ toString config.hook.isSome ++ " \x7d"

end Config

end SqlBuilder
