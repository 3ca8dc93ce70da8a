import SqlBuilder.Trace

/-!
# Log records

Of the events of a trace, refusals and the notices of logging hooks are
logged.  A refusal is logged at the finest level.
-/

namespace SqlBuilder

/-- What a log record is about. -/
inductive LogTopic where
  | statements
  | refusals
  deriving DecidableEq

/-- The value of a field of a log record. -/
inductive LogField where
  | text (s : String)
  | number (n : Nat)
  deriving DecidableEq

/-- A record of the log. -/
structure LogRecord where
  level : Level
  topic : LogTopic
  fields : List (String × LogField)
  deriving DecidableEq

namespace LogRecord

/-- The record of a rendered statement. -/
def ofNotice (settings : LogSettings) (notice : Notice) : LogRecord where
  level := settings.level
  topic := .statements
  fields := [
    ("kind", .text notice.kind.label),
    ("dialect", .text notice.grammar),
    ("binding_count", .number notice.bindingCount),
    ("sql", .text (settings.shown notice.sql))]

/-- The record of a refused write. -/
def ofWrite (kind : WriteKind) : LogRecord where
  level := .trace
  topic := .refusals
  fields := [
    ("message", .text "rejected on read-only builder"),
    ("statement", .text kind.keyword)]

/-- The record of refused raw text. -/
def ofKeyword (word : String) : LogRecord where
  level := .trace
  topic := .refusals
  fields := [
    ("message", .text "raw SQL rejected on read-only builder"),
    ("keyword", .text word)]

/-- The record of an event, if it is logged. -/
def ofEvent? : Event → Option LogRecord
  | .refusedWrite kind => some (ofWrite kind)
  | .refusedKeyword word => some (ofKeyword word)
  | .rendered (.logger settings) notice => some (ofNotice settings notice)
  | _ => none

end LogRecord

end SqlBuilder
