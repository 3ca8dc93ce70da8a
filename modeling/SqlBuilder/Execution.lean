import SqlBuilder.Sql.Statement

/-!
# Rendering for use, and running

A statement that is rendered for use is shown to the hook it was made with; a
failing rendering is not.  To run a statement its bindings are turned into
parameters, in their order, and its text is sent with them to a client.  Only
the PostgreSQL grammar can be run.
-/

namespace SqlBuilder

/-- A rendering among the actions that may fail in other ways. -/
def Render.lift {α : Type} (render : Render α) : EStateM Error Trace α := fun trace =>
  match render trace with
  | .ok value trace => .ok value trace
  | .error fault trace => .error (.render fault) trace

namespace BoundParameter

/-- The parameter for a bound value: integers as such, texts and numbers as text. -/
def ofValue : Value → Except Error BoundParameter
  | .int n => .ok (.int n)
  | .text s => .ok (.text s)
  | .float x => .ok (.text x.text)
  | value => .error (.unbindable value.shape)

end BoundParameter

namespace Binding

/-- The parameters for bindings, one each. -/
def parameters (bindings : List Binding) : Except Error (List BoundParameter) :=
  bindings.mapM fun binding => BoundParameter.ofValue binding.value

end Binding

/-- Something that runs statements. -/
structure Client (Row : Type) where
  /-- Run a statement; the answer is the number of rows it changed. -/
  execute : Request → Except Error Nat
  /-- Run a statement that returns rows. -/
  query : Request → Except Error (List Row)

namespace Statement

/-- What the hook of a statement is shown. -/
def notice (s : Statement) (sql : String) : Notice where
  kind := s.kind
  grammar := s.config.grammar.name
  bindingCount := s.bindings.length
  sql := sql

/-- Show a text to the hook, if there is one. -/
def notify (s : Statement) (sql : String) : EStateM Error Trace Unit :=
  match s.config.hook with
  | some hook => Trace.emit (.rendered hook (s.notice sql))
  | none => return ()

/-- Render a statement and show it to the hook. -/
def render (s : Statement) : EStateM Error Trace String := do
  let sql ← s.sql.lift
  s.notify sql
  return sql

/-- Make a statement ready to be sent. -/
def prepare (s : Statement) : EStateM Error Trace Request := do
  if s.config.grammar.name ≠ "postgres" then
    throw (.argument (.grammarCannotExecute s.config.grammar.name))
  let parameters ← ofExcept (Binding.parameters s.bindings)
  let sql ← s.render
  return { sql, parameters }

variable {Row : Type}

/-- Run a statement; the answer is the number of rows it changed. -/
def execute (client : Client Row) (s : Statement) : EStateM Error Trace Nat := do
  let request ← s.prepare
  Trace.emit (.executed request)
  ofExcept (client.execute request)

/-- Run a statement that returns rows. -/
def query (client : Client Row) (s : Statement) : EStateM Error Trace (List Row) := do
  let request ← s.prepare
  Trace.emit (.queried request)
  ofExcept (client.query request)

/-- The first row that a statement returns; there must be one. -/
def queryOne (client : Client Row) (s : Statement) : EStateM Error Trace Row := do
  match ← s.query client with
  | row :: _ => return row
  | [] => throw (.notFound "Expected one row, got none")

/-- The first row that a statement returns, if there is one. -/
def queryOption (client : Client Row) (s : Statement) : EStateM Error Trace (Option Row) := do
  return (← s.query client).head?

end Statement

namespace GroupConcat

/-- Render a group concatenation and show it to the hook. -/
def render (c : GroupConcat) : EStateM Error Trace String := do
  let sql ← c.sql.lift
  c.statement.notify sql
  return sql

end GroupConcat

end SqlBuilder
