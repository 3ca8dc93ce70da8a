import SqlBuilder.Statement.Basic

/-!
# Parameters of stored values

A statement keeps the names of all parameters that its stored values refer to,
in the order in which they came in, and takes over the bindings of every
statement that is nested in it.  A name can only be taken over with one value:
a second, different value is refused.
-/

namespace SqlBuilder

namespace Value

mutual

/-- The parameter names in a value, from left to right; a nested statement lists its own. -/
def markers : Value → Except ArgumentFault (List String)
  | .parameter name =>
    if Parameter.isValid name then .ok [name] else .error (.parameterName name)
  | .list items => markersOfAll items
  | .query _ s => .ok s.markers
  | .group _ s => .ok s.markers
  | _ => .ok []
termination_by structural value => value

/-- The parameter names in a list of values. -/
def markersOfAll : List Value → Except ArgumentFault (List String)
  | [] => .ok []
  | value :: values => do
    let names ← value.markers
    let others ← markersOfAll values
    return names ++ others
termination_by structural values => values

end

mutual

/-- The statements that a value holds, from left to right. -/
def nested : Value → List Statement
  | .list items => nestedInAll items
  | .query _ s => [s]
  | .group _ s => [s]
  | _ => []
termination_by structural value => value

/-- The statements that a list of values holds. -/
def nestedInAll : List Value → List Statement
  | [] => []
  | value :: values => value.nested ++ nestedInAll values
termination_by structural values => values

end

end Value

namespace Binding

/-- The first binding of a name. -/
def find? (name : String) (bindings : List Binding) : Option Binding :=
  bindings.find? fun binding => binding.name == some name

/-- Take over one binding unless its name is already bound to the same value. -/
def takeOver (own taken : List Binding) (binding : Binding) :
    Except ArgumentFault (List Binding) :=
  match binding.name with
  | none => .ok (taken ++ [binding])
  | some name =>
    match find? name (own ++ taken) with
    | none => .ok (taken ++ [binding])
    | some earlier =>
      if earlier.value.same binding.value then .ok taken
      else .error (.conflictingBinding name)

/-- The bindings to take over from nested statements. -/
def merge (own : List Binding) (nested : List Statement) : Except ArgumentFault (List Binding) :=
  (nested.flatMap Statement.bindings).foldlM (takeOver own) []

end Binding

namespace Markers

/-- A list without the last occurrence of a name. -/
def eraseLast (name : String) (names : List String) : List String :=
  (names.reverse.erase name).reverse

/-- Remove names, each by its last occurrence, among the first `mark` entries. -/
def forget (names : List String) (mark : Nat) (markers : List String) : List String :=
  names.foldr eraseLast (markers.take mark) ++ markers.drop mark

end Markers

namespace Statement

/-- Forget names that were recorded before the first `mark` entries were complete. -/
def forget (s : Statement) (names : List String) (mark : Nat) : Statement :=
  { s with markers := Markers.forget names mark s.markers }

end Statement

end SqlBuilder
