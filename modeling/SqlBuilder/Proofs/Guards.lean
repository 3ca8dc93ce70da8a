import SqlBuilder.Proofs.Bindings
import SqlBuilder.Proofs.Directions
import SqlBuilder.Sql.Statement

/-!
# Faults that are guarded against

Rendering guards against raw statements without a text, and against `BETWEEN`
without exactly two bounds.  No statement that calls lead to has either, at
any depth, so that its rendering never ends in one of these faults, whatever
else it ends in.
-/

namespace SqlBuilder

/-- Faults that no calls lead to. -/
@[simp]
def RenderFault.guarded : List RenderFault :=
  [.noRawText, .betweenBounds]

/-- The rendering never ends in a fault that no calls lead to. -/
def Spares {α : Type} (run : Render α) : Prop :=
  ∀ trace fault left, run trace = .error fault left → fault ∉ RenderFault.guarded

namespace Spares

variable {α β : Type} {first : Render α} {next : α → Render β}

theorem pure (a : α) : Spares (pure a : Render α) := by
  intro trace fault left run
  cases run

theorem throw {fault : RenderFault} (other : fault ∉ RenderFault.guarded) :
    Spares (throw fault : Render α) := by
  intro trace fault' left run
  cases run
  exact other

theorem bind (spares : Spares first) (follows : ∀ a, Spares (next a)) : Spares (first >>= next) := by
  intro trace fault left run
  rcases Outcome.bind_error run with failed | ⟨a, between, -, failed⟩
  · exact spares trace fault left failed
  · exact follows a between fault left failed

/-- What is made of the answer has no part in it. -/
theorem map {f : α → β} (spares : Spares first) : Spares (first >>= fun a => Pure.pure (f a)) :=
  spares.bind fun a => pure (f a)

/-- A check in front fails by itself, or lets pass. -/
theorem check {c : Prop} [Decidable c] {fault : RenderFault} {run : Render α}
    (other : fault ∉ RenderFault.guarded) (spares : Spares run) :
    Spares (if c then MonadExceptOf.throw fault else run) := by
  split
  · exact throw other
  · exact spares

end Spares

theorem Deferred.spares_eval (d : Deferred) : Spares (d.eval : Render String) := by
  intro trace fault left run
  cases run

theorem Count.spares_check (count : Count) (n : Option Int64) : Spares (count.check n) := by
  cases n with
  | none => exact Spares.pure none
  | some n => exact Spares.check (by simp) (Spares.pure _)

namespace Scope

variable {scope : Scope} {h : Header}

/-! ## Clauses without values -/

theorem spares_expression (item : Expression) : Spares (scope.expression item) := by
  cases item with
  | text content | raw content => exact Spares.pure _
  | deferred content => exact content.spares_eval

theorem spares_column (c : Column) : Spares (scope.column c) := by
  cases c with
  | name content | handle content => exact Spares.pure _
  | deferred content => exact content.spares_eval

theorem spares_expressionTexts (items : List Expression) :
    Spares (scope.expressionTexts items) := by
  induction items with
  | nil => exact Spares.pure []
  | cons item items ih => exact (spares_expression item).bind fun text => ih.map

theorem spares_expressions (items : List Expression) : Spares (scope.expressions items) :=
  (spares_expressionTexts items).map

theorem spares_orderTexts (items : List SortColumn) : Spares (scope.orderTexts items) := by
  induction items with
  | nil => exact Spares.pure []
  | cons item items ih => exact (spares_column item.column).bind fun text => ih.map

theorem spares_clause {keyword : String} {isEmpty : Bool} {rest : Render String}
    (spares : Spares rest) : Spares (clause keyword isEmpty rest) := by
  unfold clause
  split
  · exact Spares.pure ""
  · exact spares.map

theorem spares_order : Spares (scope.order h) :=
  spares_clause (spares_orderTexts h.orders).map

theorem spares_columns : Spares (scope.columns h) := by
  unfold columns
  split
  · exact Spares.pure "*"
  · exact spares_expressions h.columns

theorem spares_body {joins wheres : Render String} (joined : Spares joins)
    (filtered : Spares wheres) : Spares (scope.body h joins wheres) := by
  refine (spares_clause (spares_expressionTexts h.tables).map).bind fun tables => ?_
  refine joined.bind fun joins => filtered.bind fun wheres => ?_
  exact (spares_clause (spares_expressions h.groups)).map

theorem spares_select {joins wheres members : Render String} (joined : Spares joins)
    (filtered : Spares wheres) (united : Spares members) :
    Spares (scope.select h joins wheres members) := by
  have rows : Spares h.selectLimit := by
    unfold Header.selectLimit
    split
    · exact Spares.pure (some 1)
    · exact Count.limit.spares_check h.limit
  refine rows.bind fun limit => (Count.offset.spares_check h.offset).bind fun offset => ?_
  refine spares_columns.bind fun columns => (spares_body joined filtered).bind fun body => ?_
  exact united.bind fun others => spares_order.map

theorem spares_member {statement : Render String} (spares : Spares statement) :
    Spares (scope.member h statement) := by
  unfold member
  refine Spares.check (by simp) (spares.bind fun sql => ?_)
  split
  · exact Spares.pure sql
  · split
    · exact Spares.pure _
    · exact Spares.throw (by simp)

theorem spares_insert {rows : Render (List String)} {hasRows : Bool} (spares : Spares rows) :
    Spares (scope.insert h hasRows rows) := by
  have named : Spares (insertTarget h) := by
    unfold insertTarget
    split
    · exact Spares.pure _
    · exact Spares.throw (by simp)
  have columns : Spares (scope.insertColumns h) := by
    unfold insertColumns
    split
    · exact Spares.pure ""
    · exact (spares_expressions h.insertColumns).map
  refine named.bind fun target => ?_
  refine Spares.check (by simp) (spares.bind fun rows => ?_)
  exact (spares_expression target).bind fun target => columns.map

theorem spares_writeTail {kind : WriteKind} : Spares (scope.writeTail h kind) := by
  refine (Count.limit.spares_check h.limit).bind fun limit => ?_
  split
  · exact Spares.pure ""
  · refine Spares.check (by simp) ?_
    exact Spares.check (by simp) spares_order.map

theorem spares_checkJoins {kind : WriteKind} {hasJoins : Bool} :
    Spares (checkJoins kind hasJoins) := by
  unfold checkJoins
  exact Spares.check (by simp) (Spares.pure ())

theorem spares_update {assignments : Render (List String)} {wheres : Render String}
    {hasJoins hasAssignments : Bool} (assigned : Spares assignments) (filtered : Spares wheres) :
    Spares (scope.update h hasJoins hasAssignments assignments wheres) := by
  have tables : Spares (scope.updateTables h) := by
    unfold updateTables
    split
    · exact spares_expressions h.updateTables
    · split
      · exact spares_expression _
      · exact Spares.throw (by simp)
  refine spares_checkJoins.bind fun _ => tables.bind fun tables => ?_
  refine Spares.check (by simp) (assigned.bind fun assignments => ?_)
  exact filtered.bind fun wheres => spares_writeTail.map

theorem spares_delete {wheres : Render String} {hasJoins : Bool} (filtered : Spares wheres) :
    Spares (scope.delete h hasJoins wheres) := by
  have table : Spares (scope.deleteTable h) := by
    unfold deleteTable
    split
    · exact spares_expression _
    · exact Spares.throw (by simp)
  refine spares_checkJoins.bind fun _ => table.bind fun table => ?_
  exact filtered.bind fun wheres => spares_writeTail.map

end Scope

/-- A comparison that is made with bounds, if its operator is `BETWEEN`. -/
theorem Comparison.spares_write {op : Operator} {v : Value} {column operator : String}
    {operand : Render String} {entries : Render (List String)}
    (bounds : op = .between → ∃ low high, v = .list [low, high])
    (alone : Spares operand) (all : Spares entries) :
    Spares ((Comparison.of op v).write column operator operand entries) := by
  cases form : Comparison.of op v with
  | isNull | isNotNull | never => exact Spares.pure _
  | among | amongMarked | plain => exact alone.map
  | between => exact all.map
  | badBetween =>
      -- only `BETWEEN` with an operand other than two bounds is compared in this way
      unfold Comparison.of at form
      split at form <;> try contradiction
      next other =>
        obtain ⟨low, high, rfl⟩ := bounds rfl
        exact absurd rfl (other low high)

/-! ## Statements that are sound throughout -/

/-- A statement is sound, and so is every statement within it. -/
def Statement.SoundThroughout (s : Statement) : Prop :=
  s.Sound ∧ ∀ inner : Statement, inner.Within s → inner.Sound

namespace Statement.SoundThroughout

variable {s : Statement}

theorem predicate {p : Predicate} (sound : s.SoundThroughout) (mem : p ∈ s.predicates) :
    p.Valid ∧ p.value.HoldsOnly SoundThroughout :=
  ⟨sound.1.conditions p (List.mem_append_left _ mem), Throughout.predicate sound mem⟩

theorem joinPredicate {join : Join} {p : Predicate} (sound : s.SoundThroughout)
    (outer : join ∈ s.joins) (mem : p ∈ join.predicates) :
    p.Valid ∧ p.value.HoldsOnly SoundThroughout := by
  have joined : p ∈ s.joins.flatMap Join.predicates := List.mem_flatMap.mpr ⟨join, outer, mem⟩
  exact ⟨sound.1.conditions p (List.mem_append_right _ joined),
    Throughout.joinPredicate sound outer mem⟩

end Statement.SoundThroughout

/-! ## What is sound throughout is spared -/

namespace Scope

open Statement (SoundThroughout)

variable {scope : Scope}

mutual

theorem spares_value : ∀ v : Value, v.HoldsOnly SoundThroughout → Spares (scope.value v)
  | .float x, _ => by
      unfold value number
      split
      · exact Spares.pure x.text
      · exact Spares.throw (by simp)
  | .column c, _ => spares_column c
  | .list items, only => (spares_values items only.entries).map
  | .query tag s, only => (spares_statement s (only s (.query tag))).map
  | .group tag ⟨h, ps, js, rs, as, ms, bs⟩, only => by
      have sound := only ⟨h, ps, js, rs, as, ms, bs⟩ (.group tag)
      exact (spares_conditions ps fun p mem => sound.predicate mem).map
  | .null, _ | .bool _, _ | .int _, _ | .text _, _ | .date _, _ | .dateTime _, _
  | .parameter _, _ => Spares.pure _
termination_by structural v => v

theorem spares_values : ∀ items : List Value, (∀ item ∈ items, item.HoldsOnly SoundThroughout) →
    Spares (scope.values items)
  | [], _ => Spares.pure []
  | item :: items, only => by
      refine (spares_value item (only item List.mem_cons_self)).bind fun text => ?_
      exact (spares_values items fun other mem => only other (List.mem_cons_of_mem item mem)).map
termination_by structural items => items

theorem spares_entries : ∀ v : Value, v.HoldsOnly SoundThroughout → Spares (scope.entries v)
  | .list items, only => spares_values items only.entries
  | .null, _ | .bool _, _ | .int _, _ | .float _, _ | .text _, _ | .date _, _ | .dateTime _, _
  | .parameter _, _ | .column _, _ | .query _ _, _ | .group _ _, _ => Spares.pure []
termination_by structural v => v

theorem spares_predicate : ∀ p : Predicate, p.Valid ∧ p.value.HoldsOnly SoundThroughout →
    Spares (scope.predicate p)
  | ⟨_, column, none, operand, _⟩, ⟨_, only⟩ => by
      unfold predicate
      split
      · exact spares_value operand only
      · exact spares_column column
  | ⟨_, column, some op, operand, _⟩, ⟨valid, only⟩ => by
      refine (spares_column column).bind fun column => ?_
      refine Comparison.spares_write ?_ (spares_value operand only) (spares_entries operand only)
      rintro rfl
      exact valid.bounds rfl
termination_by structural p => p

theorem spares_furtherConditions : ∀ ps : List Predicate,
    (∀ p ∈ ps, p.Valid ∧ p.value.HoldsOnly SoundThroughout) → Spares (scope.furtherConditions ps)
  | [], _ => Spares.pure ""
  | p :: ps, all => by
      refine (spares_predicate p (all p List.mem_cons_self)).bind fun text => ?_
      exact (spares_furtherConditions ps fun q mem => all q (List.mem_cons_of_mem p mem)).map
termination_by structural ps => ps

theorem spares_conditions : ∀ ps : List Predicate,
    (∀ p ∈ ps, p.Valid ∧ p.value.HoldsOnly SoundThroughout) → Spares (scope.conditions ps)
  | [], _ => Spares.pure ""
  | p :: ps, all => by
      refine (spares_predicate p (all p List.mem_cons_self)).bind fun text => ?_
      exact (spares_furtherConditions ps fun q mem => all q (List.mem_cons_of_mem p mem)).map
termination_by structural ps => ps

theorem spares_joins : ∀ js : List Join,
    (∀ join ∈ js, ∀ p ∈ join.predicates, p.Valid ∧ p.value.HoldsOnly SoundThroughout) →
    Spares (scope.joins js)
  | [], _ => Spares.pure ""
  | ⟨kind, table, ps⟩ :: js, all => by
      have on := spares_conditions ps (all ⟨kind, table, ps⟩ List.mem_cons_self)
      refine (spares_expression table).bind fun table => (spares_clause on).bind fun on => ?_
      exact (spares_joins js fun join mem => all join (List.mem_cons_of_mem _ mem)).map
termination_by structural js => js

theorem spares_rows (columns index : Nat) : ∀ rs : List (List Value),
    (∀ row ∈ rs, ∀ v ∈ row, v.HoldsOnly SoundThroughout) → Spares (scope.rows columns index rs)
  | [], _ => Spares.pure []
  | row :: rs, all => by
      have width : Spares (checkWidth index row.length columns) :=
        Spares.check (by simp) (Spares.pure ())
      refine width.bind fun _ => ?_
      refine (spares_values row (all row List.mem_cons_self)).bind fun fields => ?_
      exact (spares_rows columns (index + 1) rs
        fun other mem => all other (List.mem_cons_of_mem row mem)).map
termination_by structural rs => rs

theorem spares_assignments : ∀ as : List Assignment,
    (∀ a ∈ as, a.value.HoldsOnly SoundThroughout) → Spares (scope.assignments as)
  | [], _ => Spares.pure []
  | ⟨key, column, operand⟩ :: as, all => by
      have value := spares_value operand (all ⟨key, column, operand⟩ List.mem_cons_self)
      refine (spares_column column).bind fun column => value.bind fun text => ?_
      exact (spares_assignments as fun a mem => all a (List.mem_cons_of_mem _ mem)).map
termination_by structural as => as

theorem spares_members : ∀ ms : List UnionMember,
    (∀ m ∈ ms, m.statement.SoundThroughout) → Spares (scope.members ms)
  | [], _ => Spares.pure ""
  | ⟨s, keepAll⟩ :: ms, all => by
      have first := spares_statement s (all ⟨s, keepAll⟩ List.mem_cons_self)
      refine (spares_member first).bind fun text => ?_
      exact (spares_members ms fun m mem => all m (List.mem_cons_of_mem _ mem)).map
termination_by structural ms => ms

/-- A statement that is sound throughout is spared the guarded faults. -/
theorem spares_statement : ∀ s : Statement, s.SoundThroughout → Spares (scope.statement s)
  | ⟨h, ps, js, rs, as, ms, bs⟩, sound => by
      have wheres : Spares (clause " WHERE " ps.isEmpty (scope.conditions ps)) :=
        spares_clause (spares_conditions ps fun p mem => sound.predicate mem)
      have joins : Spares (scope.joins js) :=
        spares_joins js fun join outer p mem => sound.joinPredicate outer mem
      have members : Spares (scope.members ms) :=
        spares_members ms fun m mem => Statement.Throughout.member sound mem
      unfold statement
      dsimp only
      cases known : h.kind with
      | undecided => exact Spares.throw (by simp)
      | select => exact spares_select joins wheres members
      | random => exact spares_select joins wheres members
      | insert =>
          refine spares_insert (spares_rows h.insertColumns.length 0 rs fun row outer v mem => ?_)
          exact Statement.Throughout.field sound outer mem
      | update =>
          refine spares_update (spares_assignments as fun a mem => ?_) wheres
          exact Statement.Throughout.assignment sound mem
      | delete => exact spares_delete wheres
      | raw =>
          have given : h.rawText ≠ none := sound.1.rawText.mp known
          obtain ⟨text, given⟩ := Option.ne_none_iff_exists'.mp given
          unfold raw
          rw [given]
          exact Spares.pure text
termination_by structural s => s

end

/-- So is a group concatenation over such a statement. -/
theorem spares_concat {c : GroupConcat} (sound : c.statement.SoundThroughout) :
    Spares (scope.concat c) := by
  unfold concat
  refine Spares.check (by simp) ?_
  refine (spares_expressionTexts c.columns).bind fun columns => ?_
  refine (spares_body ?_ ?_).map
  · exact spares_joins _ fun join outer p mem => sound.joinPredicate outer mem
  · exact spares_clause (spares_conditions _ fun p mem => sound.predicate mem)

end Scope

/-- Every reachable statement is sound throughout. -/
theorem Statement.ReachableBy.soundThroughout {rule : List Assignment → Prop} {s : Statement}
    (reach : ReachableBy rule s) : s.SoundThroughout :=
  ⟨reach.sound, fun _ within => (reach.covers_within within).1.sound⟩

namespace Statement

/--
The representation invariant of statements.  A kind that is decided is kept by
every run of calls, and a call for another kind fails.  Every call, failing
ones too, changes the two maps of a reachable statement only by pushing
conditions and order columns, each on the bucket of its key.  Every reachable
statement stores what fits its kind, fills its expressions and conditions,
keeps one bucket for each key, with entries of that key, and never ends in a
guarded fault when it is rendered, in whatever grammar.  Groups of conditions
and group concatenations select.
-/
theorem representation_invariant :
    (∀ (tolerant : Bool) (calls : List Call), (Call.runAll tolerant calls).Moves KeepsKind) ∧
    (∀ (c : Call) (kind : StatementKind) (session : Session), c.intent? = some kind →
      ¬ session.statement.Admits kind → Build.FailsFor kind c.run session) ∧
    (∀ (c : Call) (session : Session), session.statement.Reachable →
      (c.run.after session).statement.predicateGroups =
        Keyed.pushAll Predicate.key (c.loggedConditions session)
          session.statement.predicateGroups ∧
      (c.run.after session).statement.orderGroups =
        Keyed.pushAll SortColumn.direction (c.loggedOrders session)
          session.statement.orderGroups) ∧
    (∀ s : Statement, s.Reachable → s.Sound ∧
      Keyed.BucketMap Predicate.key s.predicateGroups ∧
      (∀ bucket ∈ s.predicateGroups, bucket.2 ≠ [] ∧ Text.isBlank bucket.1 = false ∧
        ∀ p ∈ bucket.2, p.key = bucket.1) ∧
      Keyed.BucketMap SortColumn.direction s.orderGroups ∧
      (∀ bucket ∈ s.orderGroups, bucket.2 ≠ [] ∧ ∀ c ∈ bucket.2, c.direction = bucket.1) ∧
      ∀ (g : Grammar) (trace left : Trace) (fault : RenderFault),
        s.sqlIn g trace = .error fault left → fault ≠ .noRawText ∧ fault ≠ .betweenBounds) ∧
    (∀ s : Statement, s.MadeSelection → s.Reachable ∧ s.kind = .select) ∧
    ∀ c : GroupConcat, c.Made → c.statement.Reachable ∧ c.statement.kind = .select ∧
      Expression.AllFilled c.columns ∧
      ∀ (g : Grammar) (trace left : Trace) (fault : RenderFault),
        c.sqlIn g trace = .error fault left → fault ≠ .noRawText ∧ fault ≠ .betweenBounds := by
  have spared {run : Render String} (spares : Spares run) (trace left : Trace)
      (fault : RenderFault) (failed : run trace = .error fault left) :
      fault ≠ .noRawText ∧ fault ≠ .betweenBounds := by
    have other := spares trace fault left failed
    simpa using other
  refine ⟨Call.keepsKind_runAll, ?_, ?_, ?_, ?_, ?_⟩
  · intro c kind session intent refuses
    exact Call.failsFor_intent intent refuses
  · intro c session reach
    exact ⟨c.predicateGroups_run reach.arranged, c.orderGroups_run reach.arranged⟩
  · intro s reach
    have conditions := reach.arranged.bucketMap_predicates
    have orders := reach.arranged.bucketMap_orders
    have visible := reach.sound.visibleKeys reach.arranged
    refine ⟨reach.sound, conditions, fun bucket mem => ?_, orders, fun bucket mem => ?_,
      fun g => ?_⟩
    · exact ⟨conditions.filled bucket mem, visible bucket mem, conditions.keyed bucket mem⟩
    · exact ⟨orders.filled bucket mem, orders.keyed bucket mem⟩
    exact spared (Scope.spares_statement s reach.soundThroughout)
  · intro s made
    exact made.selects
  · intro c made
    obtain ⟨selection, filled⟩ := made.selects
    obtain ⟨reach, selects⟩ := selection.selects
    refine ⟨reach, selects, filled, fun g => ?_⟩
    exact spared (Scope.spares_concat reach.soundThroughout)

/-- A raw statement. -/
def rawOne : Statement :=
  ((Call.raw "SELECT 1").run.after { statement := ({} : Config).statement }).statement

theorem representation_invariant_raw :
    rawOne.Reachable ∧ rawOne.Sound ∧ rawOne.rawText = some "SELECT 1" ∧
      Build.FailsFor .select (Call.select []).run { statement := rawOne } ∧
      (GroupConcat.ofConfig {}).statement.kind = .select := by
  obtain ⟨-, conflicts, -, reachable, -, concats⟩ := representation_invariant
  have reach : rawOne.Reachable :=
    .call _ (.fresh {}) rfl trivial (fun _ mem => nomatch mem) (fun _ mem => nomatch mem)
  have kind : rawOne.kind = .raw := rfl
  refine ⟨reach, (reachable rawOne reach).1, rfl, ?_, (concats _ (.fresh {})).2.1⟩
  refine conflicts (.select []) .select _ rfl ?_
  rintro (undecided | same)
  · rw [kind] at undecided
    cases undecided
  · rw [kind] at same
    cases same

end Statement

end SqlBuilder
