import SqlBuilder.Dialect
import SqlBuilder.Execution
import SqlBuilder.Proofs.Agreement

/-!
# What a rendering does not depend on

The text of a statement depends on the clauses in its tree, on the grammar,
and at most on the names of its own bindings.  The bound values, and all that
nested statements were configured with, have no part in it.
-/

namespace SqlBuilder

/-! ## What is seen of bindings -/

/-- The built-in grammars that mark a parameter by its name alone. -/
inductive Grammar.Unnumbered : Grammar → Prop where
  | dialect (d : Dialect) (named : d ≠ .postgres) : Unnumbered d.grammar
  | plain (name : String) (quote : Quote) (randomOrder : String) :
      Unnumbered { name, quote, randomOrder }

theorem Grammar.Unnumbered.marker {g : Grammar} (unnumbered : g.Unnumbered) (name : String)
    (position position' : Option Nat) : g.marker name position = g.marker name position' := by
  cases unnumbered with
  | plain => rfl
  | dialect d named =>
      cases d with
      | postgres => exact absurd rfl named
      | mysql | sqlite | sqlServer => rfl

/-- A grammar sees at most the names of bindings, each in its position. -/
def Grammar.SeesAlike (g : Grammar) (left right : List Binding) : Prop :=
  left.map Binding.name = right.map Binding.name ∨ g.Unnumbered

theorem Statement.scope_alike {s t : Statement} {g : Grammar}
    (sees : g.SeesAlike s.bindings t.bindings) : (s.scope g).Alike (t.scope g) := by
  refine ⟨rfl, fun name => ?_⟩
  rcases sees with names | unnumbered
  · unfold Statement.scope
    rw [names]
  · exact unnumbered.marker name _ _

/-- The text or the error of a run, without the trace that it leaves. -/
def answer {ε σ α : Type} : EStateM.Result ε σ α → Except ε α
  | .ok a _ => .ok a
  | .error e _ => .error e

/-- What follows a rendering that is shown to a hook has no part in the answer. -/
theorem answer_render {sql : Render String} {notify : String → EStateM Error Trace Unit}
    (shows : ∀ text t, ∃ u, notify text t = .ok () u) (t : Trace) :
    answer ((do
      let text ← sql.lift
      notify text
      return text : EStateM Error Trace String) t) =
      (answer (sql t)).mapError Error.render := by
  cases run : sql t with
  | ok text u =>
      obtain ⟨left, shown⟩ := shows text u
      have lifted : sql.lift t = .ok text u := by
        unfold Render.lift
        rw [run]
      rw [Outcome.bind_of_ok lifted, Outcome.bind_of_ok shown]
      rfl
  | error fault u =>
      have lifted : sql.lift t = .error (.render fault) u := by
        unfold Render.lift
        rw [run]
      rw [Outcome.bind_of_error lifted]
      rfl

theorem Statement.notify_ok (s : Statement) (text : String) (t : Trace) :
    ∃ u, s.notify text t = .ok () u := by
  unfold Statement.notify
  cases s.config.hook with
  | none => exact ⟨_, rfl⟩
  | some hook => exact ⟨_, rfl⟩

theorem Agree.answer {T : Trace → Trace → Prop} {α : Type} {left right : Render α}
    (agree : Agree T left right) {t u : Trace} (traces : T t u) :
    answer (left t) = SqlBuilder.answer (right u) := by
  have same := agree t u traces
  generalize left t = result at same
  generalize right u = result' at same
  cases same <;> rfl

/-! ## Noninterference -/

namespace Statement

/--
Statements that are alike render to the same text or the same error in every
grammar, if their own bindings have the same names in the same places, and in
an unnumbered grammar without regard to bindings.  The same holds of
concatenations.
-/
theorem rendering_ignores_values {D : Deferred → Deferred → Prop} {T : Trace → Trace → Prop}
    (same : SameTexts D T) :
    (∀ (s t : Statement) (g : Grammar), s.Alike D t → g.SeesAlike s.bindings t.bindings →
      Agree T (s.sqlIn g) (t.sqlIn g) ∧
        (s.config.grammar = g → t.config.grammar = g → ∀ before before', T before before' →
          answer (s.render before) = answer (t.render before'))) ∧
    ∀ (c d : GroupConcat) (g : Grammar), c.Alike D d →
      g.SeesAlike c.statement.bindings d.statement.bindings →
      Agree T (c.sqlIn g) (d.sqlIn g) ∧
        (c.statement.config.grammar = g → d.statement.config.grammar = g →
          ∀ before before', T before before' →
            answer (c.render before) = answer (d.render before')) := by
  constructor
  · intro s t g alike sees
    have agree : Agree T (s.sqlIn g) (t.sqlIn g) :=
      Scope.agree_statement same (scope_alike sees) s alike
    refine ⟨agree, fun own own' before before' traces => ?_⟩
    unfold render sql
    rw [answer_render s.notify_ok, answer_render t.notify_ok, own, own', agree.answer traces]
  · intro c d g alike sees
    have agree : Agree T (c.sqlIn g) (d.sqlIn g) :=
      Scope.agree_concat same (scope_alike sees) alike
    refine ⟨agree, fun own own' before before' traces => ?_⟩
    unfold GroupConcat.render GroupConcat.sql
    rw [answer_render c.statement.notify_ok, answer_render d.statement.notify_ok, own, own',
      agree.answer traces]

/-- A statement that filters by a parameter. -/
def ranked (config : Config) (bindings : List Binding) : Statement :=
  { config.selection with
    columns := [.text "id"]
    tables := [.text "ranks"]
    predicates := [⟨"level", .name "level", some .atLeast, .parameter "level", .and⟩]
    bindings }

/-- A statement with a sub-query, and with a binding of its own. -/
def listing (config : Config) (level : Int64) (inner : Statement) : Statement :=
  { config.selection with
    tables := [.text "users"]
    predicates := [⟨"rank", .name "rank", some .isIn, .query 0 inner, .and⟩]
    bindings := [Binding.named "level" (.int level)] }

theorem rendering_ignores_values_nested :
    answer ((listing {} 1 (ranked { grammar := .mysql } [])).render []) =
        .ok ("SELECT * FROM \"users\" WHERE \"rank\" IN " ++
          "(SELECT \"id\" FROM \"ranks\" WHERE \"level\" >= $1)") ∧
      answer ((listing {} 1 (ranked { grammar := .mysql } [])).render []) =
        answer ((listing { readOnly := true, hook := some .recorder } 2
          (ranked { grammar := .sqlServer, readOnly := true }
            [Binding.named "level" (.int 2), Binding.positional .null])).render []) := by
  refine ⟨rfl, ?_⟩
  have itself : ∀ d : Deferred, d = d := fun _ => rfl
  have same : SameTexts Eq Eq := by
    constructor
    · rintro d _ t _ rfl rfl
      rfl
    · rintro d _ t _ rfl rfl
      rfl
  have inner := Statement.Alike.rebuilt itself (ranked { grammar := .mysql } [])
    { grammar := .sqlServer, readOnly := true } false [] 0
    [Binding.named "level" (.int 2), Binding.positional .null]
  have header := Header.Alike.rebuilt itself
    (listing {} 1 (ranked { grammar := .mysql } [])).toHeader
    { readOnly := true, hook := some .recorder } false [] 0
  have filters : List.Forall₂ (Predicate.Alike Eq) _ _ :=
    .cons (.plain "rank" "rank" (some .isIn) .and (.name "rank") (.query 0 0 inner)) .nil
  obtain ⟨statements, -⟩ := rendering_ignores_values same
  obtain ⟨-, answers⟩ := statements _ _ .postgres
    (.mk [Binding.named "level" (.int 1)] [Binding.named "level" (.int 2)] header filters
      .nil .nil .nil .nil) (Or.inl rfl)
  exact answers rfl rfl [] [] rfl

end Statement

end SqlBuilder
