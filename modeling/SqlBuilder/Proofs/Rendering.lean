import SqlBuilder.Proofs.Place

/-!
# Rendering around a place

What a place holds is written once.  Each clause around it adds fixed texts on
both sides, and each text that a clause puts behind a value ends a literal.
-/

namespace SqlBuilder

open Factor

namespace Scope

variable {α : Type} {scope : Scope} {text : α → String}

/-! ## What stands behind a place -/

theorem ends_clause {keyword : String} {isEmpty : Bool} {rest : Render String} {c : Char}
    (head : keyword.toList.head? = some c) (other : c ≠ '\'') {sql : String}
    (yields : Yields (clause keyword isEmpty rest) sql) : EndsLiteral sql := by
  obtain ⟨trace, left, run⟩ := yields
  cases isEmpty with
  | true =>
      obtain ⟨rfl, -⟩ := Outcome.pure_ok run
      exact endsLiteral_empty
  | false =>
      obtain ⟨text, between, -, run⟩ := Outcome.bind_ok run
      obtain ⟨rfl, -⟩ := Outcome.pure_ok run
      exact endsLiteral_of_head keyword text head other

theorem ends_groups {h : Header} {sql : String} (yields : Yields (scope.groups h) sql) :
    EndsLiteral sql :=
  ends_clause (c := ' ') rfl (by decide) yields

theorem ends_order {h : Header} {sql : String} (yields : Yields (scope.order h) sql) :
    EndsLiteral sql :=
  ends_clause (c := ' ') rfl (by decide) yields

theorem ends_furtherConditions {ps : List Predicate} {sql : String}
    (yields : Yields (scope.furtherConditions ps) sql) : EndsLiteral sql := by
  obtain ⟨trace, left, run⟩ := yields
  cases ps with
  | nil =>
      obtain ⟨rfl, -⟩ := Outcome.pure_ok run
      exact endsLiteral_empty
  | cons p ps =>
      obtain ⟨first, between, -, run⟩ := Outcome.bind_ok run
      obtain ⟨others, between, -, run⟩ := Outcome.bind_ok run
      obtain ⟨rfl, -⟩ := Outcome.pure_ok run
      simp only [String.append_assoc]
      exact endsLiteral_of_head " " _ rfl (by decide)

theorem ends_joins {js : List Join} {sql : String} (yields : Yields (scope.joins js) sql) :
    EndsLiteral sql := by
  obtain ⟨trace, left, run⟩ := yields
  cases js with
  | nil =>
      obtain ⟨rfl, -⟩ := Outcome.pure_ok run
      exact endsLiteral_empty
  | cons j js =>
      cases j
      obtain ⟨table, between, -, run⟩ := Outcome.bind_ok run
      obtain ⟨on, between, -, run⟩ := Outcome.bind_ok run
      obtain ⟨others, between, -, run⟩ := Outcome.bind_ok run
      obtain ⟨rfl, -⟩ := Outcome.pure_ok run
      simp only [String.append_assoc]
      exact endsLiteral_of_head " " _ rfl (by decide)

theorem ends_members {ms : List UnionMember} {sql : String}
    (yields : Yields (scope.members ms) sql) : EndsLiteral sql := by
  obtain ⟨trace, left, run⟩ := yields
  cases ms with
  | nil =>
      obtain ⟨rfl, -⟩ := Outcome.pure_ok run
      exact endsLiteral_empty
  | cons m ms =>
      cases m with
      | mk s all =>
          obtain ⟨first, between, -, run⟩ := Outcome.bind_ok run
          obtain ⟨others, between, -, run⟩ := Outcome.bind_ok run
          obtain ⟨rfl, -⟩ := Outcome.pure_ok run
          rw [String.append_assoc]
          cases all with
          | true => exact endsLiteral_of_head " UNION ALL " _ rfl (by decide)
          | false => exact endsLiteral_of_head " UNION " _ rfl (by decide)

theorem ends_writeTail {h : Header} {kind : WriteKind} {sql : String}
    (yields : Yields (scope.writeTail h kind) sql) : EndsLiteral sql := by
  obtain ⟨trace, left, run⟩ := yields
  obtain ⟨limit, between, -, run⟩ := Outcome.bind_ok run
  split at run
  · obtain ⟨rfl, -⟩ := Outcome.pure_ok run
    exact endsLiteral_empty
  · dsimp only at run
    split at run
    · cases run
    · split at run
      · cases run
      · obtain ⟨order, between', ordered, run⟩ := Outcome.bind_ok run
        obtain ⟨rfl, -⟩ := Outcome.pure_ok run
        exact endsLiteral_append (ends_order ⟨between, between', ordered⟩)
          (endsLiteral_spaced _)

theorem ends_lockSuffix (scope : Scope) (h : Header) : EndsLiteral (scope.lockSuffix h) := by
  unfold lockSuffix
  split
  · exact endsLiteral_spaced _
  · exact endsLiteral_empty

/-! ## Lists with a place -/

/-- A list with a place in it is not empty. -/
theorem isEmpty_around {β : Type} (before : List β) (b : β) (after : List β) :
    (before ++ b :: after).isEmpty = false := by
  cases before <;> rfl

theorem factors_values {v : α → Value} (inner : Factors Around text fun a => scope.value (v a))
    (before after : List Value) :
    Factors Among text fun a => scope.values (before ++ v a :: after) := by
  induction before with
  | nil =>
      apply Factors.bind inner
      intro context around
      apply Factors.after
      intro others _
      exact Factors.done (among_head others around)
  | cons first others ih =>
      apply Factors.after
      intro front _
      apply Factors.bind ih
      intro context among
      exact Factors.done (among_cons front among)

theorem factors_furtherConditions {p : α → Predicate} {connective : Connective}
    (joined : ∀ a, (p a).connective = connective)
    (inner : Factors Around text fun a => scope.predicate (p a))
    (before after : List Predicate) :
    Factors Around text fun a => scope.furtherConditions (before ++ p a :: after) := by
  induction before with
  | nil =>
      simp only [List.nil_append, furtherConditions, joined]
      apply Factors.bind inner
      intro context around
      apply Factors.after
      intro others yields
      exact Factors.done (around_append_right (around_append_left _ around)
        (ends_furtherConditions yields))
  | cons first others ih =>
      apply Factors.after
      intro front _
      apply Factors.bind ih
      intro context around
      exact Factors.done (around_append_left _ around)

theorem factors_conditions {p : α → Predicate} {connective : Connective}
    (joined : ∀ a, (p a).connective = connective)
    (inner : Factors Around text fun a => scope.predicate (p a))
    (before after : List Predicate) :
    Factors Around text fun a => scope.conditions (before ++ p a :: after) := by
  cases before with
  | nil =>
      apply Factors.bind inner
      intro context around
      apply Factors.after
      intro others yields
      exact Factors.done (around_append_right around (ends_furtherConditions yields))
  | cons first others =>
      apply Factors.after
      intro front _
      refine Factors.bind (factors_furtherConditions joined inner others after) fun _ around => ?_
      exact Factors.done (around_append_left _ around)

theorem factors_clause {keyword : String} {run : α → Render String}
    (inner : Factors Around text run) :
    Factors Around text fun a => clause keyword false (run a) := by
  apply Factors.bind inner
  intro context around
  exact Factors.done (around_append_left _ around)

theorem factors_joins {p : α → Predicate} {connective : Connective}
    (joined : ∀ a, (p a).connective = connective)
    (inner : Factors Around text fun a => scope.predicate (p a)) (front : List Join)
    (kind : JoinKind) (table : Expression) (before after : List Predicate) (back : List Join) :
    Factors Around text fun a =>
      scope.joins (front ++ ⟨kind, table, before ++ p a :: after⟩ :: back) := by
  induction front with
  | nil =>
      apply Factors.after
      intro target _
      simp only [isEmpty_around]
      refine Factors.bind (factors_clause (factors_conditions joined inner before after))
        fun context around => ?_
      apply Factors.after
      intro others yields
      exact Factors.done (around_append_right (around_append_left _ around) (ends_joins yields))
  | cons first others ih =>
      cases first
      apply Factors.after
      intro target _
      apply Factors.after
      intro on _
      apply Factors.bind ih
      intro context around
      exact Factors.done (around_append_left _ around)

theorem factors_rows {v : α → Value} (inner : Factors Around text fun a => scope.value (v a))
    (columns index : Nat) (front : List (List Value)) (before after : List Value)
    (back : List (List Value)) :
    Factors Among text fun a =>
      scope.rows columns index (front ++ (before ++ v a :: after) :: back) := by
  induction front generalizing index with
  | nil =>
      simp only [List.nil_append, rows, List.length_append, List.length_cons]
      apply Factors.after
      intro _ _
      refine Factors.bind (factors_values inner before after) fun context among => ?_
      apply Factors.after
      intro others _
      exact Factors.done (among_head others (around_parentheses (around_commas among)))
  | cons first others ih =>
      apply Factors.after
      intro _ _
      apply Factors.after
      intro fields _
      refine Factors.bind (ih (index + 1)) fun context among => ?_
      exact Factors.done (among_cons _ among)

theorem factors_assignments {v : α → Value}
    (inner : Factors Around text fun a => scope.value (v a)) (before : List Assignment)
    (key : String) (column : Column) (after : List Assignment) :
    Factors Among text fun a => scope.assignments (before ++ ⟨key, column, v a⟩ :: after) := by
  induction before with
  | nil =>
      apply Factors.after
      intro target _
      apply Factors.bind inner
      intro context around
      apply Factors.after
      intro others _
      exact Factors.done (among_head others (around_append_left _ around))
  | cons first others ih =>
      cases first
      apply Factors.after
      intro target _
      apply Factors.after
      intro front _
      apply Factors.bind ih
      intro context among
      exact Factors.done (among_cons _ among)

/-! ## Clauses with a place -/

theorem factors_body_joins {h : Header} {joins : α → Render String} {wheres : Render String}
    (inner : Factors Around text joins) (ends : ∀ {x}, Yields wheres x → EndsLiteral x) :
    Factors Around text fun a => scope.body h (joins a) wheres := by
  apply Factors.after
  intro tables _
  apply Factors.bind inner
  intro context around
  apply Factors.after
  intro conditions yields
  apply Factors.after
  intro groups yields'
  exact Factors.done (around_append_right (around_append_right (around_append_left _ around)
    (ends yields)) (ends_groups yields'))

theorem factors_body_wheres {h : Header} {joins : Render String} {wheres : α → Render String}
    (inner : Factors Around text wheres) :
    Factors Around text fun a => scope.body h joins (wheres a) := by
  apply Factors.after
  intro tables _
  apply Factors.after
  intro joined _
  apply Factors.bind inner
  intro context around
  apply Factors.after
  intro groups yields
  exact Factors.done (around_append_right (around_append_left _ around) (ends_groups yields))

theorem factors_select_body {h : Header} {joins wheres : α → Render String}
    {members : Render String}
    (inner : Factors Around text fun a => scope.body h (joins a) (wheres a))
    (ends : ∀ {x}, Yields members x → EndsLiteral x) :
    Factors Around text fun a => scope.select h (joins a) (wheres a) members := by
  apply Factors.after
  intro limit _
  apply Factors.after
  intro offset _
  apply Factors.after
  intro columns _
  apply Factors.bind inner
  intro context around
  apply Factors.after
  intro others yields
  apply Factors.after
  intro order yields'
  refine Factors.done (around_append_right (around_append_right (around_append_right
    (around_append_right (around_append_left _ around) (ends yields)) (ends_order yields')) ?_) ?_)
  · exact endsLiteral_spaced _
  · exact ends_lockSuffix scope h

theorem factors_select_members {h : Header} {joins wheres : Render String}
    {members : α → Render String} (inner : Factors Around text members) :
    Factors Around text fun a => scope.select h joins wheres (members a) := by
  apply Factors.after
  intro limit _
  apply Factors.after
  intro offset _
  apply Factors.after
  intro columns _
  apply Factors.after
  intro front _
  apply Factors.bind inner
  intro context around
  apply Factors.after
  intro order yields
  refine Factors.done (around_append_right (around_append_right (around_append_right
    (around_append_left _ around) (ends_order yields)) ?_) ?_)
  · exact endsLiteral_spaced _
  · exact ends_lockSuffix scope h

theorem factors_member {h : Header} {statement : α → Render String}
    (inner : Factors Around text statement) :
    Factors Around text fun a => scope.member h (statement a) := by
  refine Factors.unless _ ?_
  apply Factors.bind inner
  intro context around
  by_cases plain : (!(h.isRandom || h.isBounded)) = true
  · simp only [plain]
    exact Factors.done around
  · by_cases parentheses : scope.grammar.parenthesizesMembers = true
    · simp only [plain, parentheses]
      exact Factors.done (around_parentheses around)
    · simp only [plain, parentheses]
      exact Factors.throw _

theorem factors_members {s : α → Statement} {h : Header} (header : ∀ a, (s a).toHeader = h)
    (inner : Factors Around text fun a => scope.statement (s a)) (before : List UnionMember)
    (all : Bool) (after : List UnionMember) :
    Factors Around text fun a => scope.members (before ++ ⟨s a, all⟩ :: after) := by
  induction before with
  | nil =>
      simp only [List.nil_append, members, header]
      refine Factors.bind (factors_member inner) fun context around => ?_
      apply Factors.after
      intro others yields
      exact Factors.done (around_append_right (around_append_left _ around) (ends_members yields))
  | cons first others ih =>
      cases first
      apply Factors.after
      intro front _
      apply Factors.bind ih
      intro context around
      exact Factors.done (around_append_left _ around)

theorem factors_insert {h : Header} {hasRows : Bool} {rows : α → Render (List String)}
    (inner : Factors Among text rows) :
    Factors Around text fun a => scope.insert h hasRows (rows a) := by
  apply Factors.after
  intro target _
  refine Factors.unless _ ?_
  apply Factors.bind inner
  intro context among
  apply Factors.after
  intro target _
  apply Factors.after
  intro columns _
  exact Factors.done (around_append_left _ (around_commas among))

theorem factors_update_assignments {h : Header} {hasJoins hasAssignments : Bool}
    {assignments : α → Render (List String)} {wheres : Render String}
    (inner : Factors Among text assignments) (ends : ∀ {x}, Yields wheres x → EndsLiteral x) :
    Factors Around text fun a =>
      scope.update h hasJoins hasAssignments (assignments a) wheres := by
  apply Factors.after
  intro _ _
  apply Factors.after
  intro tables _
  refine Factors.unless _ ?_
  apply Factors.bind inner
  intro context among
  apply Factors.after
  intro conditions yields
  apply Factors.after
  intro tail yields'
  exact Factors.done (around_append_right (around_append_right
    (around_append_left _ (around_commas among)) (ends yields)) (ends_writeTail yields'))

theorem factors_update_wheres {h : Header} {hasJoins hasAssignments : Bool}
    {assignments : Render (List String)} {wheres : α → Render String}
    (inner : Factors Around text wheres) :
    Factors Around text fun a =>
      scope.update h hasJoins hasAssignments assignments (wheres a) := by
  apply Factors.after
  intro _ _
  apply Factors.after
  intro tables _
  refine Factors.unless _ ?_
  apply Factors.after
  intro assigned _
  apply Factors.bind inner
  intro context around
  apply Factors.after
  intro tail yields
  exact Factors.done (around_append_right (around_append_left _ around) (ends_writeTail yields))

theorem factors_delete {h : Header} {hasJoins : Bool} {wheres : α → Render String}
    (inner : Factors Around text wheres) :
    Factors Around text fun a => scope.delete h hasJoins (wheres a) := by
  apply Factors.after
  intro _ _
  apply Factors.after
  intro table _
  apply Factors.bind inner
  intro context around
  apply Factors.after
  intro tail yields
  exact Factors.done (around_append_right (around_append_left _ around) (ends_writeTail yields))

end Scope

end SqlBuilder
