import SqlBuilder.Proofs.ReadOnly
import SqlBuilder.Proofs.Bindings
import SqlBuilder.Proofs.Written

/-!
# Writes within read-only statements

The flag of a statement is its own.  A statement that may write keeps its flag
when it becomes a sub-query or a union member, and it is not looked at again
there.  What writes within a read-only statement was therefore made writable
itself, and a read-only statement whose parts are all read-only writes nowhere.
-/

namespace SqlBuilder

open Factor

namespace Statement

variable {rule : List Assignment → Prop} {s : Statement}

/-- A reachable statement that is read-only is harmless. -/
theorem ReachableBy.harmless (reach : ReachableBy rule s) (readOnly : s.config.readOnly = true) :
    s.Harmless := by
  induction reach with
  | fresh config => exact harmless_statement config
  | selection config => exact harmless_selection config
  | asSelection reach done ih =>
      rw [claim_eq_ok done] at readOnly
      exact (ih readOnly).asSelection done
  | @call session c reach plain obeys values members ih =>
      rw [Call.config_run] at readOnly
      exact Call.harmless_run readOnly (ih readOnly)
  | @group session inner tag connective reach built ih =>
      have keeps {area : Area} (other : area ≠ .conditions) :
          area.Same session.statement
            ((Build.group tag connective inner).after session).statement :=
        Build.keeps_group other tag connective inner session
      have config : ((Build.group tag connective inner).after session).statement.config =
          session.statement.config := keeps (by decide : Area.config ≠ .conditions)
      rw [config] at readOnly
      exact (ih readOnly).of_same (keeps (by decide : Area.intent ≠ .conditions))

/-- A statement of no kind that writes has a text only if it selects or was taken as text. -/
theorem kind_of_yields {g : Grammar} {sql : String} (yields : Yields (s.sqlIn g) sql)
    (reads : s.kind ∉ [.insert, .update, .delete]) : s.kind ∈ [.select, .random, .raw] := by
  obtain ⟨trace, left, run⟩ := yields
  unfold sqlIn at run
  rw [statement_eq] at run
  cases known : s.kind with
  | select | random | raw => decide
  | insert | update | delete =>
      rw [known] at reads
      exact absurd (by decide) reads
  | undecided =>
      rw [known] at run
      cases run

/--
A read-only statement that renders selects or was taken as text.  Whatever is
nested in it, at any depth, writes only if it was itself made writable.
-/
theorem writes_within_are_writable {root : Statement} (reach : root.Reachable)
    (readOnly : root.config.readOnly = true) {g : Grammar} {sql : String}
    (rendered : Yields (root.sqlIn g) sql) :
    root.kind ∈ [.select, .random, .raw] ∧
      ∀ inner : Statement, inner.Within root → inner.kind ∈ [.insert, .update, .delete] →
        inner.config.readOnly = false := by
  refine ⟨kind_of_yields rendered (reach.harmless readOnly).kind, ?_⟩
  intro inner within writes
  obtain ⟨reachInner, -⟩ := ReachableBy.covers_within reach within
  by_contra flag
  exact (reachInner.harmless (Bool.not_eq_false _ ▸ flag)).kind writes

/-! ## A write from elsewhere -/

/-- A statement that may write, and deletes. -/
def remover : Statement :=
  ((Call.tables [.text "users"]).run.after
    { statement :=
        (Call.delete.run.after { statement := Config.statement {} }).statement }).statement

/-- A read-only statement that selects. -/
def reader : Statement :=
  ((Call.tables [.text "users"]).run.after
    { statement := ((Call.select [.text "id"]).run.after
      { statement := Config.statement { readOnly := true } }).statement }).statement

/-- The statement that selects, in a union with the one that deletes. -/
def readerWithRemover : Statement :=
  ((Call.union false remover).run.after { statement := reader }).statement

theorem reachable_remover : remover.Reachable := by
  refine .call _ (.call _ (.fresh {}) rfl trivial ?_ ?_) rfl trivial ?_ ?_ <;>
    exact fun _ mem => nomatch mem

theorem reachable_reader : reader.Reachable := by
  refine .call _ (.call _ (.fresh { readOnly := true }) rfl trivial ?_ ?_) rfl trivial ?_ ?_ <;>
    exact fun _ mem => nomatch mem

theorem reachable_readerWithRemover : readerWithRemover.Reachable := by
  refine .call _ reachable_reader rfl trivial (fun _ mem => nomatch mem) ?_
  intro member mem
  rw [List.mem_singleton.mp mem]
  exact reachable_remover

theorem remover_within : remover.Within readerWithRemover :=
  .single (Or.inr (List.mem_singleton_self remover))

theorem yields_readerWithRemover :
    Yields readerWithRemover.sql "SELECT \"id\" FROM \"users\" UNION DELETE FROM \"users\"" :=
  ⟨[], [], rfl⟩

theorem writes_within_are_writable_union :
    readerWithRemover.kind ∈ [.select, .random, .raw] ∧ remover.config.readOnly = false := by
  obtain ⟨kind, writable⟩ :=
    writes_within_are_writable reachable_readerWithRemover rfl yields_readerWithRemover
  exact ⟨kind, writable remover remover_within (by decide)⟩

/-- A read-only statement can render a write that was made elsewhere. -/
theorem read_only_union_deletes :
    ∃ root : Statement, root.Reachable ∧ root.config.readOnly = true ∧
      Yields root.sql "SELECT \"id\" FROM \"users\" UNION DELETE FROM \"users\"" ∧
      ∃ inner : Statement, inner.Within root ∧ inner.kind = .delete :=
  ⟨readerWithRemover, reachable_readerWithRemover, rfl, yields_readerWithRemover, remover,
    remover_within, rfl⟩

end Statement

end SqlBuilder
