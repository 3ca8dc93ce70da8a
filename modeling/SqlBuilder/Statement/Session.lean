import SqlBuilder.Statement.Markers

/-!
# Calls on statements

A call on a statement reads it, checks what it was given, and writes one part
after the other.  It leaves a trace, and may fail: what it wrote before it
failed stays written.
-/

namespace SqlBuilder

/-- A statement under construction with the trace so far. -/
structure Session where
  statement : Statement
  trace : Trace := []

/-- A call on a statement. -/
abbrev Build := EStateM Error Session

namespace Build

/-- Write to the statement, which cannot fail. -/
def update (f : Statement → Statement) : Build Unit :=
  modify fun session => { session with statement := f session.statement }

/-- Write to the statement once for each item. -/
def updateEach {α : Type} (write : Statement → α → Statement) : List α → Build Unit
  | [] => pure ()
  | item :: items => do
    update (write · item)
    updateEach write items

/-- Go on with the answer of a check of arguments, or fail with its fault. -/
def check {α : Type} (checked : Except ArgumentFault α) : Build α :=
  ofExcept (checked.mapError Error.argument)

/-- An action that reads and writes the trace only. -/
def observe {α : Type} (action : EStateM Error Trace α) : Build α := fun session =>
  match action session.trace with
  | .ok value trace => .ok value { session with trace }
  | .error error trace => .error error { session with trace }

end Build

end SqlBuilder
