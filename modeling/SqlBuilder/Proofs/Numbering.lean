import SqlBuilder.Proofs.Bindings
import SqlBuilder.Proofs.Written

/-!
# Numbers of parameters

A grammar that numbers its parameters marks each by the position of its first
binding in the outermost statement.  A name that a nested statement binds has
such a position, with the value of the nested statement there, and keeps it.
-/

namespace SqlBuilder

namespace Statement

/-- The first binding of a name and its position, counted from one. -/
structure BindsAt (s : Statement) (name : String) (k : Nat) (b : Binding) : Prop where
  positive : 1 ≤ k
  bounded : k ≤ s.bindings.length
  entry : s.bindings[k - 1]? = some b
  first : Binding.find? name s.bindings = some b
  position : ∀ g, (s.scope g).position? name = some k

variable {s s' : Statement} {name : String} {k : Nat} {b : Binding}

/-- A name that is bound has a position. -/
theorem BindsAt.of_find? (found : Binding.find? name s.bindings = some b) :
    ∃ k, s.BindsAt name k b := by
  obtain ⟨named, front, back, split, unnamed⟩ := List.find?_eq_some_iff_append.mp found
  have entry : s.bindings[front.length]? = some b := by
    rw [split]
    simp
  have index : (s.bindings.map Binding.name).findIdx? (· == some name) = some front.length := by
    have none_before : front.findIdx? (fun b => b.name == some name) = none := by
      rw [List.findIdx?_eq_none_iff]
      intro other mem
      simpa using unnamed other mem
    rw [List.findIdx?_map, split, List.findIdx?_append]
    simp only [Function.comp_def, none_before, Option.none_or, List.findIdx?_cons, named, if_true]
    simp
  refine ⟨front.length + 1, Nat.succ_pos _, ?_, entry, found, fun g => ?_⟩
  · have length := congrArg List.length split
    rw [List.length_append, List.length_cons] at length
    omega
  · unfold Scope.position? Statement.scope
    rw [index]
    rfl

/-- Bindings that are added at the end do not move a name. -/
theorem BindsAt.of_prefix (binds : s.BindsAt name k b) (grows : s.bindings <+: s'.bindings) :
    s'.BindsAt name k b := by
  obtain ⟨more, bindings⟩ := grows
  have bounded := binds.bounded
  refine ⟨binds.positive, ?_, ?_, ?_, fun g => ?_⟩
  · rw [← bindings, List.length_append]
    omega
  · rw [← bindings, List.getElem?_append_left (by have := binds.positive; omega)]
    exact binds.entry
  · rw [← bindings]
    exact Binding.find?_append_left more binds.first
  · have position := binds.position g
    unfold Scope.position? Statement.scope at position ⊢
    rw [← bindings, List.map_append, List.findIdx?_append]
    cases index : (s.bindings.map Binding.name).findIdx? (· == some name) with
    | none =>
        rw [index] at position
        cases position
    | some i =>
        rw [index] at position
        exact position

/-- A bound name is marked by its position. -/
theorem BindsAt.marker (binds : s.BindsAt name k b) :
    (s.scope .postgres).marker name = "$" ++ toString k := by
  unfold Scope.marker
  rw [binds.position .postgres]
  rfl

/-- A marker stands in the text where its parameter stands in the statement. -/
theorem marker_in_sql {path : Path .value .statement} (shown : path.isShown = true)
    (place : path.fill (.parameter name) = s) {g : Grammar} {trace left : Trace} {sql : String}
    (rendered : s.sqlIn g trace = .ok sql left) :
    ∃ before after : String, ∀ other,
      (path.fill (.parameter other)).sqlIn g trace =
        .ok (before ++ (s.scope g).marker other ++ after) left := by
  have same (other : String) : (path.fill (.parameter other)).scope g = s.scope g := by
    rw [path.scope_fill g (.parameter other) (.parameter name), place]
  have run : (path.fill (.parameter name)).sqlIn g trace = .ok sql left := by
    rw [place]
    exact rendered
  obtain ⟨context, ⟨before, after, -, eq⟩, all⟩ :=
    path.factors_sqlIn shown same showsValue_parameter name trace sql left run
  refine ⟨before, after, fun other => ?_⟩
  have written := all other
  rw [eq] at written
  exact written

/--
A name that is bound within a reachable statement is bound there at a position
`k` too, to a value that agrees.  Its parameters are written as `$k`, and no
run of calls moves it.
-/
theorem nested_name_numbered {root inner : Statement} (reach : root.Reachable)
    (within : inner.Within root) (bound : Binding.find? name inner.bindings = some b) :
    ∃ k b', root.BindsAt name k b' ∧ b'.value.Agrees b.value ∧
      (∀ (path : Path .value .statement) (trace left : Trace) (sql : String),
        path.isShown = true → path.fill (.parameter name) = root →
        root.sqlIn .postgres trace = .ok sql left →
        ∃ before after : String, sql = before ++ ("$" ++ toString k) ++ after ∧
          ∀ other, (path.fill (.parameter other)).sqlIn .postgres trace =
            .ok (before ++ (root.scope .postgres).marker other ++ after) left) ∧
      ∀ (tolerant : Bool) (calls : List Call) (session : Session), session.statement = root →
        root.bindings <+: ((Call.runAll tolerant calls).after session).statement.bindings ∧
          ((Call.runAll tolerant calls).after session).statement.BindsAt name k b' := by
  obtain ⟨-, covers⟩ := ReachableBy.covers_within reach within
  obtain ⟨b', found, agrees⟩ := covers name b bound
  obtain ⟨k, binds⟩ := BindsAt.of_find? found
  refine ⟨k, b', binds, agrees, ?_, ?_⟩
  · intro path trace left sql shown place rendered
    obtain ⟨before, after, all⟩ := marker_in_sql shown place rendered
    refine ⟨before, after, ?_, all⟩
    have itself := all name
    rw [place, rendered, binds.marker] at itself
    cases itself
    rfl
  · intro tolerant calls session start
    have grows := Call.bindings_grow_runAll tolerant calls session
    rw [start] at grows
    exact ⟨grows, binds.of_prefix grows⟩

/-- A statement that binds a name and does nothing else. -/
def binder (name : String) (n : Int64) : Statement :=
  ((Call.bind [Binding.named name (.int n)]).run.after
    { statement := ({} : Config).selection }).statement

/-- A statement that binds one name, with a sub-query that binds another. -/
def binderOfTwo : Statement :=
  ((Call.condition ⟨.name "id", some "IN", .query 0 (binder "level" 3), .and⟩).run.after
    { statement := binder "id" 1 }).statement

theorem reachable_binder (name : String) (n : Int64) : (binder name n).Reachable :=
  .call _ (.selection {}) rfl trivial (fun _ mem => nomatch mem) (fun _ mem => nomatch mem)

theorem nested_name_numbered_second :
    ∃ b', binderOfTwo.BindsAt "level" 2 b' ∧ b'.value.Agrees (.int 3) := by
  have reach : binderOfTwo.Reachable := by
    refine .call _ (reachable_binder "id" 1) rfl trivial ?_ (fun _ mem => nomatch mem)
    intro value mem inner holds
    rw [List.mem_singleton.mp mem] at holds
    cases holds
    exact reachable_binder "level" 3
  have within : (binder "level" 3).Within binderOfTwo :=
    .single (Or.inl ⟨.query 0 (binder "level" 3), List.mem_singleton_self _, .query 0⟩)
  have bound : Binding.find? "level" (binder "level" 3).bindings =
      some (Binding.named "level" (.int 3)) := rfl
  obtain ⟨k, b', binds, agrees, -⟩ := nested_name_numbered reach within bound
  have second : (binderOfTwo.scope .postgres).position? "level" = some 2 := rfl
  have position := binds.position .postgres
  rw [second] at position
  cases position
  exact ⟨b', binds, agrees⟩

end Statement

end SqlBuilder
