import SqlBuilder.Keyword
import SqlBuilder.Text.Bytes

/-!
# Observing rendered statements

A hook is shown the text of every statement that is rendered through its
builder.  It observes only: nothing it does can change a statement.  One hook
keeps what it sees as it is, the other writes a log record in which long
statements are cut.
-/

namespace SqlBuilder

/-- How severe a log record is. -/
inductive Level where
  | error
  | warn
  | info
  | debug
  | trace
  deriving DecidableEq

/-- The name of a level in log records. -/
def Level.label : Level → String
  | .error => "ERROR"
  | .warn => "WARN"
  | .info => "INFO"
  | .debug => "DEBUG"
  | .trace => "TRACE"

/-- How statements are logged: the level, and the most bytes of a statement that are shown. -/
structure LogSettings where
  level : Level := .debug
  maxBytes : Option Nat := some 200
  deriving DecidableEq

/-- The statement as the log shows it. -/
def LogSettings.shown (settings : LogSettings) (sql : String) : String :=
  match settings.maxBytes with
  | some limit => Text.shorten limit sql
  | none => sql

/-- An observer of rendered statements. -/
inductive Hook where
  | recorder
  | logger (settings : LogSettings)
  deriving DecidableEq

/-- What a hook is shown for one rendered statement. -/
structure Notice where
  kind : StatementKind
  grammar : String
  bindingCount : Nat
  sql : String
  deriving DecidableEq

end SqlBuilder
