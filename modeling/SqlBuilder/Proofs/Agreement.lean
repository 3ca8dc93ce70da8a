import SqlBuilder.Proofs.Alike
import SqlBuilder.Proofs.Outcome
import SqlBuilder.Sql.Statement

/-!
# Two renderings

Two renderings agree if they give the same text or the same fault whenever
their traces correspond.  Each clause is followed through both of them, so
that statements that are alike agree in scopes that mark parameters alike.
-/

namespace SqlBuilder

/-! ## Two runs -/

section Runs

variable (T : Trace → Trace → Prop) {ε α β : Type}

/-- One answer or one fault, and traces that correspond. -/
inductive SameResult : EStateM.Result ε Trace α → EStateM.Result ε Trace α → Prop where
  | ok (answer : α) {t u : Trace} (traces : T t u) : SameResult (.ok answer t) (.ok answer u)
  | error (fault : ε) {t u : Trace} (traces : T t u) : SameResult (.error fault t) (.error fault u)

/-- Two renderings have one result on traces that correspond. -/
def Agree (left right : Render α) : Prop :=
  ∀ t u, T t u → SameResult T (left t) (right u)

variable {T} {left right : Render α}

theorem Agree.pure (answer : α) : Agree T (pure answer) (pure answer) :=
  fun _ _ traces => .ok answer traces

theorem Agree.throw (fault : RenderFault) :
    Agree T (throw fault : Render α) (throw fault) :=
  fun _ _ traces => .error fault traces

theorem Agree.bind {next next' : α → Render β} (agree : Agree T left right)
    (follows : ∀ answer, Agree T (next answer) (next' answer)) :
    Agree T (left >>= next) (right >>= next') := by
  intro t u traces
  have first := agree t u traces
  cases leftRun : left t with
  | ok answer t' =>
      cases rightRun : right u with
      | ok answer' u' =>
          rw [leftRun, rightRun] at first
          cases first with
          | ok _ traces' =>
              rw [Outcome.bind_of_ok leftRun, Outcome.bind_of_ok rightRun]
              exact follows answer t' u' traces'
      | error fault u' =>
          rw [leftRun, rightRun] at first
          cases first
  | error fault t' =>
      cases rightRun : right u with
      | ok answer u' =>
          rw [leftRun, rightRun] at first
          cases first
      | error fault' u' =>
          rw [leftRun, rightRun] at first
          cases first with
          | error _ traces' =>
              rw [Outcome.bind_of_error leftRun, Outcome.bind_of_error rightRun]
              exact .error fault traces'

/-- A check in front of both runs ends both or neither. -/
theorem Agree.unless (fails : Prop) [Decidable fails] {fault : RenderFault}
    {next next' : β → Render α} (agree : Agree T left right) :
    Agree T (if fails then ((MonadExcept.throw fault : Render β) >>= next) else left)
      (if fails then ((MonadExcept.throw fault : Render β) >>= next') else right) := by
  by_cases failed : fails
  · simp only [failed, if_true]
    intro t u traces
    exact .error fault traces
  · simp only [failed, if_false]
    exact agree

end Runs

theorem SameTexts.agree_eval {D : Deferred → Deferred → Prop} {T : Trace → Trace → Prop}
    (same : SameTexts D T) {d e : Deferred} (corresponds : D d e) :
    Agree T (d.eval : Render String) e.eval := by
  intro t u traces
  rw [Deferred.eval_run, Deferred.eval_run, same.text corresponds traces]
  exact .ok _ (same.next corresponds traces)

theorem Scope.agree_number {T : Trace → Trace → Prop} (x : Double) :
    Agree T (Scope.number x) (Scope.number x) := by
  unfold Scope.number
  split
  · exact Agree.pure _
  · exact Agree.throw _

theorem Count.agree_check {T : Trace → Trace → Prop} (count : Count) (n : Option Int64) :
    Agree T (count.check n) (count.check n) := by
  cases n with
  | none => exact Agree.pure _
  | some n =>
      unfold Count.check
      dsimp only
      split
      · exact Agree.throw _
      · exact Agree.pure _

/-! ## Scopes and headers -/

/-- One grammar, and the same marker for each parameter. -/
structure Scope.Alike (left right : Scope) : Prop where
  grammar : left.grammar = right.grammar
  marker : ∀ name, left.marker name = right.marker name

/-- Lists that correspond entry by entry are both empty or both not. -/
theorem isEmpty_of_forall₂ {α β : Type} {R : α → β → Prop} {left : List α} {right : List β}
    (all : List.Forall₂ R left right) : left.isEmpty = right.isEmpty := by
  cases all <;> rfl

namespace Header.Alike

variable {D : Deferred → Deferred → Prop} {h h' : Header}

theorem isRandom (headers : h.Alike D h') : h.isRandom = h'.isRandom := by
  unfold Header.isRandom
  rw [headers.kind]

theorem isOrdered (headers : h.Alike D h') : h.isOrdered = h'.isOrdered := by
  unfold Header.isOrdered
  rw [headers.isRandom, isEmpty_of_forall₂ headers.orders]

theorem isBounded (headers : h.Alike D h') : h.isBounded = h'.isBounded := by
  unfold Header.isBounded
  rw [isEmpty_of_forall₂ headers.orders, headers.limit, headers.offset]

end Header.Alike

/-! ## Clauses -/

namespace Scope

variable {D : Deferred → Deferred → Prop} {T : Trace → Trace → Prop} {left right : Scope}
  {h h' : Header}

theorem agree_expression (same : SameTexts D T) (scopes : left.Alike right)
    {item item' : Expression} (items : item.Alike D item') :
    Agree T (left.expression item) (right.expression item') := by
  cases items with
  | text content =>
      unfold expression wrapped
      rw [scopes.grammar]
      exact Agree.pure _
  | raw content => exact Agree.pure _
  | deferred corresponds => exact same.agree_eval corresponds

theorem agree_column (same : SameTexts D T) (scopes : left.Alike right) {c c' : Column}
    (columns : c.Alike D c') : Agree T (left.column c) (right.column c') := by
  cases columns with
  | name content | handle content =>
      unfold column wrapped
      rw [scopes.grammar]
      exact Agree.pure _
  | deferred corresponds => exact same.agree_eval corresponds

theorem agree_expressionTexts (same : SameTexts D T) (scopes : left.Alike right)
    {items items' : List Expression} (all : List.Forall₂ (Expression.Alike D) items items') :
    Agree T (left.expressionTexts items) (right.expressionTexts items') := by
  induction all with
  | nil => exact Agree.pure _
  | cons first _ ih =>
      refine Agree.bind (agree_expression same scopes first) fun text => ?_
      exact Agree.bind ih fun texts => Agree.pure _

theorem agree_expressions (same : SameTexts D T) (scopes : left.Alike right)
    {items items' : List Expression} (all : List.Forall₂ (Expression.Alike D) items items') :
    Agree T (left.expressions items) (right.expressions items') :=
  Agree.bind (agree_expressionTexts same scopes all) fun _ => Agree.pure _

theorem agree_orderTexts (same : SameTexts D T) (scopes : left.Alike right)
    {items items' : List SortColumn} (all : List.Forall₂ (SortColumn.Alike D) items items') :
    Agree T (left.orderTexts items) (right.orderTexts items') := by
  induction all with
  | nil => exact Agree.pure _
  | cons first _ ih =>
      unfold orderTexts
      rw [first.direction]
      refine Agree.bind (agree_column same scopes first.column) fun text => ?_
      exact Agree.bind ih fun texts => Agree.pure _

theorem agree_clause (keyword : String) {isEmpty isEmpty' : Bool} {rest rest' : Render String}
    (empty : isEmpty = isEmpty') (agree : Agree T rest rest') :
    Agree T (clause keyword isEmpty rest) (clause keyword isEmpty' rest') := by
  subst empty
  unfold clause
  split
  · exact Agree.pure _
  · exact Agree.bind agree fun _ => Agree.pure _

theorem agree_columns (same : SameTexts D T) (scopes : left.Alike right)
    (headers : h.Alike D h') : Agree T (left.columns h) (right.columns h') := by
  unfold columns
  rw [isEmpty_of_forall₂ headers.columns]
  split
  · exact Agree.pure _
  · exact agree_expressions same scopes headers.columns

theorem agree_tables (same : SameTexts D T) (scopes : left.Alike right)
    (headers : h.Alike D h') : Agree T (left.tables h) (right.tables h') := by
  unfold tables tableHint
  rw [headers.locked, scopes.grammar]
  refine agree_clause " FROM " (isEmpty_of_forall₂ headers.tables) ?_
  exact Agree.bind (agree_expressionTexts same scopes headers.tables) fun _ => Agree.pure _

theorem agree_groups (same : SameTexts D T) (scopes : left.Alike right)
    (headers : h.Alike D h') : Agree T (left.groups h) (right.groups h') :=
  agree_clause " GROUP BY " (isEmpty_of_forall₂ headers.groups)
    (agree_expressions same scopes headers.groups)

theorem agree_body (same : SameTexts D T) (scopes : left.Alike right) (headers : h.Alike D h')
    {joins joins' wheres wheres' : Render String} (joined : Agree T joins joins')
    (filtered : Agree T wheres wheres') :
    Agree T (left.body h joins wheres) (right.body h' joins' wheres') := by
  refine Agree.bind (agree_tables same scopes headers) fun tables => ?_
  refine Agree.bind joined fun joins => ?_
  refine Agree.bind filtered fun wheres => ?_
  exact Agree.bind (agree_groups same scopes headers) fun groups => Agree.pure _

theorem agree_order (same : SameTexts D T) (scopes : left.Alike right)
    (headers : h.Alike D h') : Agree T (left.order h) (right.order h') := by
  unfold order
  rw [headers.isRandom, scopes.grammar]
  refine agree_clause " ORDER BY " (by rw [headers.isOrdered]) ?_
  exact Agree.bind (agree_orderTexts same scopes headers.orders) fun texts => Agree.pure _

theorem agree_select (same : SameTexts D T) (scopes : left.Alike right)
    (headers : h.Alike D h') {joins joins' wheres wheres' members members' : Render String}
    (joined : Agree T joins joins') (filtered : Agree T wheres wheres')
    (united : Agree T members members') :
    Agree T (left.select h joins wheres members) (right.select h' joins' wheres' members') := by
  unfold select pagination lockSuffix Header.selectLimit
  rw [headers.isRandom, headers.isOrdered, headers.limit, headers.offset, headers.distinct,
    headers.locked, scopes.grammar]
  refine Agree.bind ?_ fun limit => ?_
  · split
    · exact Agree.pure _
    · exact Count.agree_check .limit _
  refine Agree.bind (Count.agree_check .offset _) fun offset => ?_
  refine Agree.bind (agree_columns same scopes headers) fun columns => ?_
  refine Agree.bind (agree_body same scopes headers joined filtered) fun body => ?_
  refine Agree.bind united fun members => ?_
  exact Agree.bind (agree_order same scopes headers) fun order => Agree.pure _

theorem agree_member (scopes : left.Alike right) (headers : h.Alike D h')
    {statement statement' : Render String} (agree : Agree T statement statement') :
    Agree T (left.member h statement) (right.member h' statement') := by
  unfold member
  rw [headers.locked, headers.isRandom, headers.isBounded, scopes.grammar]
  refine Agree.unless _ ?_
  refine Agree.bind agree fun sql => ?_
  split
  · exact Agree.pure _
  · split
    · exact Agree.pure _
    · exact Agree.throw _

theorem agree_insertColumns (same : SameTexts D T) (scopes : left.Alike right)
    (headers : h.Alike D h') : Agree T (left.insertColumns h) (right.insertColumns h') := by
  unfold insertColumns
  rw [isEmpty_of_forall₂ headers.insertColumns]
  split
  · exact Agree.pure _
  · exact Agree.bind (agree_expressions same scopes headers.insertColumns) fun _ => Agree.pure _

theorem agree_insert (same : SameTexts D T) (scopes : left.Alike right) (headers : h.Alike D h')
    (hasRows : Bool) {rows rows' : Render (List String)} (agree : Agree T rows rows') :
    Agree T (left.insert h hasRows rows) (right.insert h' hasRows rows') := by
  have targets := headers.target
  unfold insert insertTarget
  generalize h.target = target at targets
  generalize h'.target = target' at targets
  cases targets with
  | none => exact fun t u traces => .error RenderFault.noInsertTarget traces
  | some target =>
      simp only [pure_bind]
      refine Agree.unless _ ?_
      refine Agree.bind agree fun rows => ?_
      refine Agree.bind (agree_expression same scopes target) fun target => ?_
      exact Agree.bind (agree_insertColumns same scopes headers) fun columns => Agree.pure _

theorem agree_writeTail (same : SameTexts D T) (scopes : left.Alike right)
    (headers : h.Alike D h') (kind : WriteKind) :
    Agree T (left.writeTail h kind) (right.writeTail h' kind) := by
  unfold writeTail
  rw [headers.limit, headers.isBounded, headers.offset, scopes.grammar]
  refine Agree.bind (Count.agree_check .limit _) fun limit => ?_
  split
  · exact Agree.pure _
  · refine Agree.unless _ (Agree.unless _ ?_)
    exact Agree.bind (agree_order same scopes headers) fun order => Agree.pure _

theorem agree_checkJoins (kind : WriteKind) (hasJoins : Bool) :
    Agree T (checkJoins kind hasJoins) (checkJoins kind hasJoins) := by
  unfold checkJoins
  split
  · exact Agree.throw _
  · exact Agree.pure _

theorem agree_updateTables (same : SameTexts D T) (scopes : left.Alike right)
    (headers : h.Alike D h') : Agree T (left.updateTables h) (right.updateTables h') := by
  unfold updateTables
  rw [isEmpty_of_forall₂ headers.updateTables]
  split
  · exact agree_expressions same scopes headers.updateTables
  · have targets := headers.target
    generalize h.target = target at targets
    generalize h'.target = target' at targets
    cases targets with
    | none => exact Agree.throw _
    | some target => exact agree_expression same scopes target

theorem agree_update (same : SameTexts D T) (scopes : left.Alike right) (headers : h.Alike D h')
    (hasJoins hasAssignments : Bool) {assignments assignments' : Render (List String)}
    {wheres wheres' : Render String} (assigned : Agree T assignments assignments')
    (filtered : Agree T wheres wheres') :
    Agree T (left.update h hasJoins hasAssignments assignments wheres)
      (right.update h' hasJoins hasAssignments assignments' wheres') := by
  refine Agree.bind (agree_checkJoins .update hasJoins) fun _ => ?_
  refine Agree.bind (agree_updateTables same scopes headers) fun tables => ?_
  refine Agree.unless _ ?_
  refine Agree.bind assigned fun assignments => ?_
  refine Agree.bind filtered fun wheres => ?_
  exact Agree.bind (agree_writeTail same scopes headers .update) fun tail => Agree.pure _

theorem agree_deleteTable (same : SameTexts D T) (scopes : left.Alike right)
    (headers : h.Alike D h') : Agree T (left.deleteTable h) (right.deleteTable h') := by
  have targets := headers.target
  have tables := headers.tables
  unfold deleteTable
  generalize h.target = target at targets
  generalize h'.target = target' at targets
  cases targets with
  | some target => exact agree_expression same scopes target
  | none =>
      generalize h.tables = items at tables
      generalize h'.tables = items' at tables
      cases tables with
      | nil => exact Agree.throw _
      | cons first _ => exact agree_expression same scopes first

theorem agree_delete (same : SameTexts D T) (scopes : left.Alike right) (headers : h.Alike D h')
    (hasJoins : Bool) {wheres wheres' : Render String} (filtered : Agree T wheres wheres') :
    Agree T (left.delete h hasJoins wheres) (right.delete h' hasJoins wheres') := by
  refine Agree.bind (agree_checkJoins .delete hasJoins) fun _ => ?_
  refine Agree.bind (agree_deleteTable same scopes headers) fun table => ?_
  refine Agree.bind filtered fun wheres => ?_
  exact Agree.bind (agree_writeTail same scopes headers .delete) fun tail => Agree.pure _

theorem agree_raw (headers : h.Alike D h') : Agree T (raw h) (raw h') := by
  unfold raw
  rw [headers.rawText]
  cases h'.rawText with
  | none => exact Agree.throw _
  | some text => exact Agree.pure _

theorem agree_checkWidth (row fields columns : Nat) :
    Agree T (checkWidth row fields columns) (checkWidth row fields columns) := by
  unfold checkWidth
  split
  · exact Agree.throw _
  · exact Agree.pure _

end Scope

/-! ## Comparisons -/

namespace Comparison

variable {D : Deferred → Deferred → Prop} {T : Trace → Trace → Prop}

/-- The form of a comparison does not depend on what its operand holds. -/
theorem of_alike (op : Operator) {v w : Value} (values : v.Alike D w) :
    Comparison.of op v = Comparison.of op w := by
  cases values with
  | list all =>
      rcases all with _ | ⟨_, _ | ⟨_, _ | ⟨_, _⟩⟩⟩ <;> cases op <;> rfl
  | _ => cases op <;> rfl

theorem agree_write (form : Comparison) (column operator : String)
    {operand operand' : Render String} {entries entries' : Render (List String)}
    (operands : Agree T operand operand') (all : Agree T entries entries') :
    Agree T (form.write column operator operand entries)
      (form.write column operator operand' entries') := by
  cases form with
  | isNull | isNotNull | never => exact Agree.pure _
  | among | amongMarked | plain => exact Agree.bind operands fun _ => Agree.pure _
  | between => exact Agree.bind all fun _ => Agree.pure _
  | badBetween => exact Agree.throw _

end Comparison

/-! ## Statements -/

namespace Scope

variable {D : Deferred → Deferred → Prop} {T : Trace → Trace → Prop} {left right : Scope}

mutual

theorem agree_value (same : SameTexts D T) (scopes : left.Alike right) :
    ∀ (v : Value) {w : Value}, v.Alike D w → Agree T (left.value v) (right.value w)
  | .null, _, .null => Agree.pure _
  | .bool b, _, .bool _ => by
      unfold value
      rw [scopes.grammar]
      exact Agree.pure _
  | .int n, _, .int _ => Agree.pure _
  | .float x, _, .float _ => agree_number x
  | .text s, _, .text _ => by
      unfold value literal
      rw [scopes.grammar]
      exact Agree.pure _
  | .date d, _, .date _ => Agree.pure _
  | .dateTime t, _, .dateTime _ => Agree.pure _
  | .parameter name, _, .parameter _ => by
      unfold value
      rw [scopes.marker]
      exact Agree.pure _
  | .column c, _, .column columns => agree_column same scopes columns
  | .list items, _, .list all =>
      Agree.bind (agree_values same scopes items all) fun _ => Agree.pure _
  | .query tag s, _, .query _ _ inner =>
      Agree.bind (agree_statement same scopes s inner) fun _ => Agree.pure _
  | .group tag ⟨_, ps, _, _, _, _, _⟩, _, .group _ _ (.mk _ _ _ predicates _ _ _ _) =>
      Agree.bind (agree_conditions same scopes ps predicates) fun _ => Agree.pure _
termination_by structural v => v

theorem agree_values (same : SameTexts D T) (scopes : left.Alike right) :
    ∀ (items : List Value) {others : List Value}, List.Forall₂ (Value.Alike D) items others →
      Agree T (left.values items) (right.values others)
  | [], _, .nil => Agree.pure _
  | item :: items, _, .cons first rest => by
      refine Agree.bind (agree_value same scopes item first) fun text => ?_
      exact Agree.bind (agree_values same scopes items rest) fun texts => Agree.pure _
termination_by structural items => items

theorem agree_entries (same : SameTexts D T) (scopes : left.Alike right) :
    ∀ (v : Value) {w : Value}, v.Alike D w → Agree T (left.entries v) (right.entries w)
  | .list items, _, .list all => agree_values same scopes items all
  | .null, _, .null | .bool _, _, .bool _ | .int _, _, .int _ | .float _, _, .float _
  | .text _, _, .text _ | .date _, _, .date _ | .dateTime _, _, .dateTime _
  | .parameter _, _, .parameter _ | .column _, _, .column _ | .query _ _, _, .query _ _ _
  | .group _ _, _, .group _ _ _ => Agree.pure _
termination_by structural v => v

theorem agree_predicate (same : SameTexts D T) (scopes : left.Alike right) :
    ∀ (p : Predicate) {q : Predicate}, p.Alike D q → Agree T (left.predicate p) (right.predicate q)
  | ⟨_, column, none, operand, _⟩, _, .plain _ _ _ _ columns values => by
      unfold predicate
      rw [values.shape]
      split
      · exact agree_value same scopes operand values
      · exact agree_column same scopes columns
  | ⟨_, column, some op, operand, _⟩, _, .plain _ _ _ _ columns values => by
      unfold predicate
      refine Agree.bind (agree_column same scopes columns) fun column => ?_
      rw [Comparison.of_alike op values, scopes.grammar]
      exact Comparison.agree_write _ column _ (agree_value same scopes operand values)
        (agree_entries same scopes operand values)
  | ⟨_, column, none, .group tag ⟨_, ps, _, _, _, _, _⟩, _⟩, _,
      .group _ _ _ _ _ _ _ (.mk _ _ _ predicates _ _ _ _) =>
      Agree.bind (agree_conditions same scopes ps predicates) fun _ => Agree.pure _
termination_by structural p => p

theorem agree_furtherConditions (same : SameTexts D T) (scopes : left.Alike right) :
    ∀ (ps : List Predicate) {qs : List Predicate}, List.Forall₂ (Predicate.Alike D) ps qs →
      Agree T (left.furtherConditions ps) (right.furtherConditions qs)
  | [], _, .nil => Agree.pure _
  | p :: ps, _, .cons first rest => by
      unfold furtherConditions
      rw [first.connective]
      refine Agree.bind (agree_predicate same scopes p first) fun text => ?_
      exact Agree.bind (agree_furtherConditions same scopes ps rest) fun texts => Agree.pure _
termination_by structural ps => ps

theorem agree_conditions (same : SameTexts D T) (scopes : left.Alike right) :
    ∀ (ps : List Predicate) {qs : List Predicate}, List.Forall₂ (Predicate.Alike D) ps qs →
      Agree T (left.conditions ps) (right.conditions qs)
  | [], _, .nil => Agree.pure _
  | p :: ps, _, .cons first rest => by
      refine Agree.bind (agree_predicate same scopes p first) fun text => ?_
      exact Agree.bind (agree_furtherConditions same scopes ps rest) fun texts => Agree.pure _
termination_by structural ps => ps

theorem agree_joins (same : SameTexts D T) (scopes : left.Alike right) :
    ∀ (js : List Join) {ks : List Join}, List.Forall₂ (Join.Alike D) js ks →
      Agree T (left.joins js) (right.joins ks)
  | [], _, .nil => Agree.pure _
  | ⟨kind, table, ps⟩ :: js, _, .cons (.mk _ tables predicates) rest => by
      refine Agree.bind (agree_expression same scopes tables) fun table => ?_
      refine Agree.bind (agree_clause " ON " (isEmpty_of_forall₂ predicates)
        (agree_conditions same scopes ps predicates)) fun on => ?_
      exact Agree.bind (agree_joins same scopes js rest) fun texts => Agree.pure _
termination_by structural js => js

theorem agree_rows (same : SameTexts D T) (scopes : left.Alike right) (columns index : Nat) :
    ∀ (rs : List (List Value)) {qs : List (List Value)},
      List.Forall₂ (List.Forall₂ (Value.Alike D)) rs qs →
      Agree T (left.rows columns index rs) (right.rows columns index qs)
  | [], _, .nil => Agree.pure _
  | row :: rs, _, .cons first rest => by
      unfold rows
      rw [first.length_eq]
      refine Agree.bind (agree_checkWidth index _ columns) fun _ => ?_
      refine Agree.bind (agree_values same scopes row first) fun fields => ?_
      exact Agree.bind (agree_rows same scopes columns (index + 1) rs rest) fun texts =>
        Agree.pure _
termination_by structural rs => rs

theorem agree_assignments (same : SameTexts D T) (scopes : left.Alike right) :
    ∀ (as : List Assignment) {bs : List Assignment}, List.Forall₂ (Assignment.Alike D) as bs →
      Agree T (left.assignments as) (right.assignments bs)
  | [], _, .nil => Agree.pure _
  | ⟨_, column, operand⟩ :: as, _, .cons (.mk _ _ columns values) rest => by
      refine Agree.bind (agree_column same scopes columns) fun column => ?_
      refine Agree.bind (agree_value same scopes operand values) fun text => ?_
      exact Agree.bind (agree_assignments same scopes as rest) fun texts => Agree.pure _
termination_by structural as => as

theorem agree_members (same : SameTexts D T) (scopes : left.Alike right) :
    ∀ (ms : List UnionMember) {ns : List UnionMember},
      List.Forall₂ (UnionMember.Alike D) ms ns → Agree T (left.members ms) (right.members ns)
  | [], _, .nil => Agree.pure _
  | ⟨s, all⟩ :: ms, _, .cons (.mk _ inner) rest => by
      refine Agree.bind (agree_member scopes inner.header (agree_statement same scopes s inner))
        fun text => ?_
      exact Agree.bind (agree_members same scopes ms rest) fun texts => Agree.pure _
termination_by structural ms => ms

theorem agree_statement (same : SameTexts D T) (scopes : left.Alike right) :
    ∀ (s : Statement) {t : Statement}, s.Alike D t → Agree T (left.statement s) (right.statement t)
  | ⟨h, ps, js, rs, as, ms, _⟩, _, .mk _ _ headers predicates joins rows assignments members => by
      have filtered := agree_clause " WHERE " (isEmpty_of_forall₂ predicates)
        (agree_conditions same scopes ps predicates)
      unfold statement
      rw [headers.kind, isEmpty_of_forall₂ joins, isEmpty_of_forall₂ rows,
        isEmpty_of_forall₂ assignments, headers.insertColumns.length_eq]
      dsimp only
      split
      · exact agree_select same scopes headers (agree_joins same scopes js joins) filtered
          (agree_members same scopes ms members)
      · exact agree_select same scopes headers (agree_joins same scopes js joins) filtered
          (agree_members same scopes ms members)
      · exact agree_insert same scopes headers _ (agree_rows same scopes _ 0 rs rows)
      · exact agree_update same scopes headers _ _ (agree_assignments same scopes as assignments)
          filtered
      · exact agree_delete same scopes headers _ filtered
      · exact agree_raw headers
      · exact Agree.throw _
termination_by structural s => s

end

theorem agree_concat (same : SameTexts D T) (scopes : left.Alike right) {c d : GroupConcat}
    (concats : c.Alike D d) : Agree T (left.concat c) (right.concat d) := by
  obtain ⟨s, items, separator, label⟩ := c
  obtain ⟨t, items', separator', label'⟩ := d
  obtain ⟨statements, columns, rfl, rfl⟩ := concats
  cases statements with
  | mk _ _ headers predicates joins _ _ _ =>
      have filtered := agree_clause " WHERE " (isEmpty_of_forall₂ predicates)
        (agree_conditions same scopes _ predicates)
      unfold concat literal wrapped
      rw [isEmpty_of_forall₂ columns, scopes.grammar]
      refine Agree.unless _ ?_
      refine Agree.bind (agree_expressionTexts same scopes columns) fun texts => ?_
      exact Agree.bind (agree_body same scopes headers (agree_joins same scopes _ joins) filtered)
        fun body => Agree.pure _

end Scope

end SqlBuilder
