import SqlBuilder.Proofs.CallLog
import SqlBuilder.Proofs.Enclosure

/-!
# Conditions are stored as they were logged

Whatever calls are made on a statement, its conditions are those of the log,
grouped by their keys, and the `WHERE` that is written lists them group by
group.  Its joins are those of the log in call order, each with the conditions
that were attached through its own handle.
-/

namespace SqlBuilder

open Factor

namespace Scope

/-- Conditions with their connectives, written from left to right. -/
def conditionTexts (scope : Scope) : List Predicate → Render (List (Connective × String))
  | [] => return []
  | p :: ps => do
    let text ← scope.predicate p
    let texts ← scope.conditionTexts ps
    return (p.connective, text) :: texts

/-- Texts of conditions, each behind its connective. -/
def connected (texts : List (Connective × String)) : String :=
  String.join (texts.map fun (connective, text) => " " ++ connective.sql ++ " " ++ text)

/-- The texts of conditions as a `WHERE`, the first without its connective. -/
def whereText : List (Connective × String) → String
  | [] => ""
  | (_, first) :: others => " WHERE " ++ first ++ connected others

variable (scope : Scope)

theorem furtherConditions_eq (predicates : List Predicate) :
    scope.furtherConditions predicates = connected <$> scope.conditionTexts predicates := by
  induction predicates with
  | nil => simp [furtherConditions, conditionTexts, connected]
  | cons p ps ih =>
      simp [furtherConditions, conditionTexts, ih, connected, String.append_assoc]

/-- A `WHERE` lists the conditions in the order in which they are stored. -/
theorem wheres_eq (s : Statement) :
    scope.wheres s = whereText <$> scope.conditionTexts s.predicates := by
  unfold wheres
  cases s.predicates with
  | nil => simp [clause, conditionTexts, whereText]
  | cons p ps =>
      simp [clause, conditions, conditionTexts, whereText, furtherConditions_eq,
        String.append_assoc]

variable {scope}

/-- A group concatenation writes the conditions of its statement. -/
theorem writes_concat {c : GroupConcat} :
    Writes (scope.wheres c.statement) (scope.concat c) := by
  intro sql yields
  obtain ⟨-, yields⟩ := yields_guarded yields
  obtain ⟨columns, -, yields⟩ := yields_bind yields
  obtain ⟨body, written, yields⟩ := yields_bind yields
  rw [← yields_pure yields]
  exact ((writes_body_wheres .refl).encloses written).append_left _

end Scope

/-! ## Statements and logs -/

/--
A statement stores the conditions of a log: grouped by key, found by column,
and written group by group.
-/
structure Statement.Refines (s : Statement) (made : List Predicate) : Prop where
  /-- Keys stand in the order of their first appearance, each with its conditions in log order. -/
  groups : s.predicateGroups = Keyed.grouping Predicate.key made
  /-- No condition is lost or doubled. -/
  perm : (s.predicateGroups.flatMap Prod.snd).Perm made
  /-- Under a key stand the conditions of the log with that key. -/
  ofKey : ∀ key, s.predicatesOf key = made.filter fun p => p.key = key
  /-- For a column the conditions under its key are found, if there are any. -/
  found : ∀ column, s.predicatesOn? column = do
    let key ← column.key
    let bucket := made.filter fun p => p.key = key
    return if bucket.isEmpty then none else some bucket
  /-- The `WHERE` lists the conditions group by group, the first without its connective. -/
  written : ∀ scope, Scope.wheres scope s =
    Scope.whereText <$> scope.conditionTexts (s.predicateGroups.flatMap Prod.snd)
  /-- Statements that select, update or delete write that `WHERE`. -/
  rendered : ∀ g, s.kind ∈ [.select, .random, .update, .delete] → Scope.Writes
    (Scope.whereText <$> (s.scope g).conditionTexts (s.predicateGroups.flatMap Prod.snd))
    (s.sqlIn g)
  /-- Group concatenations write that `WHERE`. -/
  concatenated : ∀ c : GroupConcat, c.statement = s → ∀ g, Scope.Writes
    (Scope.whereText <$> (s.scope g).conditionTexts (s.predicateGroups.flatMap Prod.snd))
    (c.sqlIn g)

/-- What is found and written follows from how the conditions are grouped. -/
theorem Statement.refines_of_groups {s : Statement} {made : List Predicate}
    (groups : s.predicateGroups = Keyed.grouping Predicate.key made) : s.Refines made := by
  have stored : s.predicates = Keyed.inGroups Predicate.key made := Keyed.eq_inGroups groups
  have flat : s.predicateGroups.flatMap Prod.snd = s.predicates := Keyed.flatMap_groups _ _
  refine ⟨groups, ?_, ?_, ?_, ?_, ?_, ?_⟩
  · rw [flat, stored]
    exact Keyed.perm_inGroups made
  · intro key
    unfold predicatesOf
    rw [stored]
    exact Keyed.bucket_inGroups made key
  · intro column
    unfold predicatesOn?
    simp only [groups, Keyed.lookup_grouping, Keyed.bucket, List.isEmpty_iff]
    rfl
  · intro scope
    rw [flat]
    exact Scope.wheres_eq scope s
  · intro g kind
    rw [flat, ← Scope.wheres_eq]
    exact Scope.writes_wheres kind .refl
  · rintro c rfl g
    rw [flat, ← Scope.wheres_eq]
    exact Scope.writes_concat

namespace Call

/--
Whatever calls are made, whether they succeed or fail, the statement stores
the conditions of the log, those of earlier calls in front.  Its joins are
those of the log behind the earlier ones, each with the conditions that were
attached through its handle.
-/
theorem storage_refines_log (tolerant : Bool) (cs : List Call) (session : Session)
    (earlier : List Predicate)
    (start : session.statement.predicateGroups = Keyed.grouping Predicate.key earlier) :
    ((runAll tolerant cs).after session).statement.Refines
        (earlier ++ log loggedConditions tolerant cs session) ∧
      ((runAll tolerant cs).after session).statement.joins =
        session.statement.joins ++ log loggedJoins tolerant cs session :=
  ⟨Statement.refines_of_groups (groups_runAll tolerant cs session earlier start),
    joins_runAll tolerant cs session⟩

/-- Calls with repeated keys, with failures in between, with groups and with joins. -/
def mixedCalls : List Call := [
  .condition ⟨.name "status", some "=", .int 1, .and⟩,
  .condition ⟨.name "age", some ">", .int 18, .and⟩,
  .condition ⟨.name " ", some "=", .int 1, .and⟩,
  .conditions .or [.name "status", .name "name"] ["=", "like"] [.int 2, .text "a%"],
  .conditions .and [.name "status"] [] [.int 3],
  .group 0 .or false [.condition ⟨.name "rank", some "=", .int 1, .and⟩],
  .group 1 .and false [],
  .join .left (.text "orders") [
    ⟨.name "orders.user", some "=", .column (.name "id"), .and⟩,
    ⟨.name "orders.total", some "between", .int 1, .and⟩],
  .condition ⟨.name "age", some "<", .int 65, .and⟩,
  .join .inner (.text " ") []]

/-- A fresh statement on which the calls are made. -/
def mixedStart : Session :=
  { statement := ({} : Config).selection }

theorem storage_refines_log_mixed :
    let s := ((runAll true mixedCalls).after mixedStart).statement
    s.Refines (log loggedConditions true mixedCalls mixedStart) ∧
      s.joins = log loggedJoins true mixedCalls mixedStart ∧
      (s.predicateGroups.map fun (key, ps) => (key, ps.map Predicate.connective)) =
        [("status", [.and, .or]), ("age", [.and, .and]), ("name", [.or]), ("#group1", [.or])] ∧
      (s.joins.map fun join => (join.kind, join.predicates.map Predicate.key)) =
        [(.left, ["orders.user"])] := by
  obtain ⟨refines, joins⟩ := storage_refines_log true mixedCalls mixedStart [] rfl
  rw [List.nil_append] at refines
  have fresh : mixedStart.statement.joins = [] := rfl
  rw [fresh, List.nil_append] at joins
  refine ⟨refines, joins, ?_, ?_⟩
  · decide +kernel
  · decide +kernel

end Call

end SqlBuilder
