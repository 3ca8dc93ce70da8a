import SqlBuilder.Statement.Recording

/-!
# Unions

A statement may start a union.  Each further member brings its bindings and
the names of its parameters with it.
-/

namespace SqlBuilder

namespace Build

/-- Join a member by `UNION ALL` or `UNION`. -/
def union (all : Bool) (member : Statement) : Build Unit := do
  let taken ← newBindings [member]
  update fun s => { s with bindings := s.bindings ++ taken }
  update fun s => { s with markers := s.markers ++ member.markers }
  update fun s => { s with members := s.members ++ [⟨member, all⟩] }

/-- Add members one after the other; those before a failing one stay. -/
def unions : List Statement → Build Unit
  | [] => pure ()
  | member :: others => do
    union false member
    unions others

end Build

end SqlBuilder
