import SqlBuilder.Statement.Session

/-!
# Recording

Before a value is stored, the names of its parameters are read off, and the
bindings of the statements nested in it are compared with those that the
statement has and with each other.  Only then are they written down.
-/

namespace SqlBuilder

namespace Build

/-- Add the bindings that the statement does not have yet to those that are pending. -/
def mergeBindings (pending : List Binding) : List Binding → Build (List Binding)
  | [] => return pending
  | binding :: bindings => do
    let pending ← check (Binding.takeOver (← get).statement.bindings pending binding)
    mergeBindings pending bindings

/-- The bindings of nested statements that are new to the statement. -/
def newBindings (nested : List Statement) : Build (List Binding) :=
  mergeBindings [] (nested.flatMap Statement.bindings)

/-- Record the parameters of values, and the bindings of statements nested in them. -/
def track (values : List Value) : Build Unit := do
  let names ← check (Value.markersOfAll values)
  let taken ← newBindings (Value.nestedInAll values)
  update fun s => { s with bindings := s.bindings ++ taken }
  update fun s => { s with markers := s.markers ++ names }

end Build

end SqlBuilder
