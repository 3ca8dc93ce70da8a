import SqlBuilder.Hook
import SqlBuilder.Wire

/-!
# Traces

What building, rendering and running a statement makes visible besides its
result is recorded as a trace, oldest event first: evaluations of deferred
text, refusals on read-only statements, notices to hooks, and requests to a
client.  A trace survives the failure of the action that wrote it.
-/

namespace SqlBuilder

/-- A statement sent to a client, with its parameters. -/
structure Request where
  sql : String
  parameters : List BoundParameter
  deriving DecidableEq

/-- Something that happened besides the result. -/
inductive Event where
  | evaluated (id : Nat)
  | refusedWrite (kind : WriteKind)
  | refusedKeyword (word : String)
  | rendered (hook : Hook) (notice : Notice)
  | executed (request : Request)
  | queried (request : Request)
  deriving DecidableEq

/-- The events so far, oldest first. -/
abbrev Trace := List Event

namespace Trace

/-- Append an event. -/
def emit {ε : Type} (event : Event) : EStateM ε Trace Unit :=
  fun trace => .ok () (trace ++ [event])

/-- How often a deferred text was worked out. -/
def evaluations (trace : Trace) (id : Nat) : Nat :=
  trace.count (.evaluated id)

end Trace

/--
Text that is worked out when it is needed.  Its successive evaluations may
differ: `text n` is what the evaluation after `n` earlier ones gives.  Two
deferred texts are the same only if they have the same identity.
-/
structure Deferred where
  id : Nat
  text : Nat → String

namespace Deferred

/-- Deferred texts are compared by identity. -/
def same (left right : Deferred) : Bool :=
  left.id == right.id

/-- Work out the text once more. -/
def eval {ε : Type} (deferred : Deferred) : EStateM ε Trace String := do
  let trace ← get
  Trace.emit (.evaluated deferred.id)
  return deferred.text (trace.evaluations deferred.id)

/-- An evaluation gives the text that is due and is recorded. -/
theorem eval_run {ε : Type} (deferred : Deferred) (trace : Trace) :
    (deferred.eval : EStateM ε Trace String) trace =
      .ok (deferred.text (trace.evaluations deferred.id)) (trace ++ [.evaluated deferred.id]) :=
  rfl

end Deferred

end SqlBuilder
