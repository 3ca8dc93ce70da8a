import SqlBuilder.Proofs.Failure
import SqlBuilder.Proofs.Reachable

/-!
# Steps of calls

A finer account of what calls do: every call, whether it answers or fails, and
whether it builds a group or not, goes by single steps that each write one
part of the statement.  A step carries the checks that were made before it,
so that an invariant of statements is proved from the steps alone.  Which
bindings may be bound directly is left open.
-/

namespace SqlBuilder

/-- None of the expressions is blank. -/
def Expression.AllFilled (items : List Expression) : Prop :=
  ∀ item ∈ items, item.isBlank = false

/-- A condition has a key, and an operand that its operator takes. -/
structure Predicate.Valid (p : Predicate) : Prop where
  keyed : Text.isBlank p.key = false
  among : p.operator = some .isIn → p.value.shape ∈ [Shape.list, .query, .parameter]
  bounds : p.operator = some .between → ∃ low high, p.value = .list [low, high]

namespace Statement

/-- The statement is undecided or of the kind, so that it takes the kind. -/
def Admits (s : Statement) (kind : StatementKind) : Prop :=
  s.kind = .undecided ∨ s.kind = kind

/-- The kinds that are taken without anything else. -/
def claimedKinds : List StatementKind :=
  [.select, .random, .insert, .update]

/-- A single step of a call; `Bound` says which bindings may be bound directly. -/
inductive Step (Bound : Statement → List Binding → Prop) : Statement → Statement → Prop where
  | claim {s : Statement} (kind : StatementKind) (plain : kind ∈ claimedKinds)
      (admits : s.Admits kind) : Step Bound s { s with kind }
  | raw {s : Statement} (text : String) (admits : s.Admits .raw) :
      Step Bound s { s with kind := .raw, rawText := some text }
  | delete {s : Statement} (admits : s.Admits .delete) :
      Step Bound s { s with kind := .delete, deletes := true }
  | columns {s : Statement} (items : List Expression) (filled : Expression.AllFilled items)
      (selects : s.kind = .select ∨ s.kind = .random) :
      Step Bound s { s with columns := s.columns ++ items }
  | insertColumns {s : Statement} (items : List Expression)
      (filled : Expression.AllFilled items) (inserts : s.kind = .insert) :
      Step Bound s { s with insertColumns := s.insertColumns ++ items }
  | updateTables {s : Statement} (items : List Expression)
      (filled : Expression.AllFilled items) (updates : s.kind = .update) :
      Step Bound s { s with updateTables := s.updateTables ++ items }
  | tables {s : Statement} (items : List Expression) (filled : Expression.AllFilled items) :
      Step Bound s { s with tables := s.tables ++ items }
  | groups {s : Statement} (items : List Expression) (filled : Expression.AllFilled items) :
      Step Bound s { s with groups := s.groups ++ items }
  | target {s : Statement} (item : Expression) (filled : item.isBlank = false) :
      Step Bound s { s with target := some item }
  /-- Settings that no other part depends on. -/
  | settings {s : Statement} (distinct locked : Bool) (limit offset : Option Int64)
      (groupCount : Nat) : Step Bound s { s with distinct, locked, limit, offset, groupCount }
  | orders {s : Statement} (columns : List SortColumn) : Step Bound s (s.addOrders columns)
  | bind {s : Statement} (bindings : List Binding) (bound : Bound s bindings) :
      Step Bound s { s with bindings := s.bindings ++ bindings }
  | conditions {s s' : Statement} (predicates : List Predicate)
      (valid : ∀ p ∈ predicates, p.Valid) (done : s.addPredicates predicates = .ok s') :
      Step Bound s s'
  | join {s : Statement} (kind : JoinKind) (table : Expression) (filled : table.isBlank = false) :
      Step Bound s { s with joins := s.joins ++ [⟨kind, table, []⟩] }
  | attach {s s' : Statement} (index : Nat) (predicate : Predicate) (valid : predicate.Valid)
      (done : s.attach index predicate = .ok s') : Step Bound s s'
  | row {s s' : Statement} (row : List Value) (done : s.addRow row = .ok s') : Step Bound s s'
  | extend {s s' : Statement} (value : Value) (done : s.extendRow value = .ok s') :
      Step Bound s s'
  | assign {s s' : Statement} (assignments : List Assignment)
      (done : s.assign assignments = .ok s') : Step Bound s s'
  | member {s s' : Statement} (all : Bool) (inner : Statement)
      (done : s.addMember all inner = .ok s') : Step Bound s s'

/-- Steps one after the other. -/
abbrev Steps (Bound : Statement → List Binding → Prop) : Statement → Statement → Prop :=
  Relation.ReflTransGen (Step Bound)

end Statement

/-! ## What is checked before a step -/

/-- Expressions that pass the check are not blank. -/
theorem Expression.allFilled_of_checkAll {place : Place} {items : List Expression} {answer : Unit}
    (passed : Expression.checkAll place items = .ok answer) : AllFilled items := by
  unfold checkAll at passed
  split at passed
  · cases passed
  · next noBlank =>
      intro item mem
      rw [List.any_eq_true, not_exists] at noBlank
      have filled := noBlank item
      rw [not_and, Bool.not_eq_true] at filled
      exact filled mem

/-- A column that has a key has one that is not blank. -/
theorem Column.key_filled {column : Column} {before after : Trace} {key : String}
    (run : column.key before = .ok key after) : Text.isBlank key = false := by
  obtain ⟨read, between, -, run⟩ := Outcome.bind_ok run
  split at run
  · cases run
  · next filled =>
      obtain ⟨rfl, -⟩ := Outcome.pure_ok run
      exact Bool.not_eq_true _ ▸ filled

/-- `IN` passes the check with a list, a sub-query or a parameter only. -/
theorem Operator.check_isIn {operand : Value} {answer : Unit}
    (passed : Operator.check (some .isIn) operand = .ok answer) :
    operand.shape ∈ [Shape.list, .query, .parameter] := by
  cases operand with
  | list items => simp [Value.shape]
  | query tag s => simp [Value.shape]
  | parameter name => simp [Value.shape]
  | _ => cases passed

/-- `BETWEEN` passes the check with two bounds only. -/
theorem Operator.check_between {operand : Value} {answer : Unit}
    (passed : Operator.check (some .between) operand = .ok answer) :
    ∃ low high, operand = .list [low, high] := by
  simp only [Operator.check] at passed
  split at passed
  · exact ⟨_, _, rfl⟩
  · cases passed

/-- What a check in a sequence passed with. -/
theorem Outcome.ofExcept_ok {ε σ α : Type} {check : Except ε α} {before after : σ} {a : α}
    (run : (ofExcept check : EStateM ε σ α) before = .ok a after) :
    check = .ok a ∧ after = before := by
  cases check with
  | ok b =>
      obtain ⟨rfl, rfl⟩ := Outcome.pure_ok run
      exact ⟨rfl, rfl⟩
  | error e => cases run

/-- A condition that is worked out is valid. -/
theorem Condition.resolve_valid {c : Condition} {before after : Trace} {p : Predicate}
    (run : c.resolve before = .ok p after) : p.Valid := by
  obtain ⟨operator, _, -, run⟩ := Outcome.bind_ok run
  obtain ⟨key, _, keyed, run⟩ := Outcome.bind_ok run
  obtain ⟨_, _, checked, run⟩ := Outcome.bind_ok run
  obtain ⟨rfl, -⟩ := Outcome.pure_ok run
  have passed := Outcome.mapError_ok (Outcome.ofExcept_ok checked).1
  refine ⟨Column.key_filled keyed, ?_, ?_⟩
  · rintro rfl
    exact Operator.check_isIn passed
  · rintro rfl
    exact Operator.check_between passed

/-- Conditions that are worked out are valid. -/
theorem Condition.resolveAll_valid {cs : List Condition} {before after : Trace}
    {ps : List Predicate} (run : Condition.resolveAll cs before = .ok ps after) :
    ∀ p ∈ ps, p.Valid := by
  induction cs generalizing before ps with
  | nil =>
      obtain ⟨rfl, -⟩ := Outcome.pure_ok run
      intro p mem
      cases mem
  | cons c cs ih =>
      obtain ⟨first, between, head, run⟩ := Outcome.bind_ok run
      obtain ⟨rest, _, tail, run⟩ := Outcome.bind_ok run
      obtain ⟨rfl, rfl⟩ := Outcome.pure_ok run
      intro p mem
      rcases List.mem_cons.mp mem with rfl | mem
      · exact Condition.resolve_valid head
      · exact ih tail p mem

/-- The condition that holds a group is valid. -/
theorem Statement.groupPredicate_valid (s : Statement) (tag : Nat) (connective : Connective)
    (inner : Statement) : (s.groupPredicate tag connective inner).Valid := by
  refine ⟨?_, nofun, nofun⟩
  have hash : Text.isBlankChar '#' = false := by decide
  simp [groupPredicate, groupKey, Text.isBlank, hash]

/-- A claim that succeeds was admitted. -/
theorem Statement.admits_of_claim {s s' : Statement} {kind : StatementKind}
    (done : s.claim kind = .ok s') : s.Admits kind := by
  rcases Classical.em (s.Admits kind) with admits | refused
  · exact admits
  · rw [Statement.claim_of_not_mem refused] at done
    cases done

/-! ## Calls go by steps -/

namespace Build

variable {α β : Type} {Bound : Statement → List Binding → Prop}

/-- The call goes by steps. -/
abbrev Walks (Bound : Statement → List Binding → Prop) (call : Build α) : Prop :=
  call.Moves (Statement.Steps Bound)

theorem walks_change {f : Statement → Except Error Statement}
    (step : ∀ s s', f s = .ok s' → Statement.Step Bound s s') : Walks Bound (change f) :=
  .change (fun _ => .refl) fun s s' done => .single (step s s' done)

theorem walks_update {f : Statement → Statement}
    (step : ∀ s, Statement.Step Bound s (f s)) : Walks Bound (update f) :=
  .update fun s => .single (step s)

theorem walks_bind {first : Build α} {next : α → Build β} (walks : Walks Bound first)
    (then_ : ∀ answer, Walks Bound (next answer)) : Walks Bound (first >>= next) :=
  .bind Relation.ReflTransGen.trans walks then_

theorem walks_of_reads {call : Build α} (reads : Reads call) : Walks Bound call := by
  intro session
  rw [reads session]

theorem walks_observe_bind {action : EStateM Error Trace α} {next : α → Build β}
    (then_ : ∀ answer before after, action before = .ok answer after → Walks Bound (next answer)) :
    Walks Bound (observe action >>= next) :=
  .observe_bind (fun _ => .refl) then_

/-- Expressions are added when none of them is blank. -/
theorem steps_extend {place : Place} {items : List Expression}
    {store : Statement → List Expression → Statement} {session : Session}
    (step : Expression.AllFilled items →
      Statement.Step Bound session.statement (store session.statement items)) :
    Statement.Steps Bound session.statement ((extend place items store).after session).statement := by
  rw [extend_eq]
  rcases after_change (fun s => do Expression.checkAll place items; return store s items) session
    with same | done
  · rw [same]
  · obtain ⟨_, passed, stored⟩ := Outcome.except_bind_ok done
    rw [← Except.ok.inj stored]
    exact .single (step (Expression.allFilled_of_checkAll passed))

theorem claim_admitted {kind : StatementKind} {session : Session}
    (admits : session.statement.Admits kind) :
    claim kind session =
      .ok () { session with statement := { session.statement with kind } } := by
  rw [claim_eq]
  exact change_of_ok (Statement.claim_of_mem admits)

theorem claim_refused {kind : StatementKind} {session : Session}
    (refuses : ¬ session.statement.Admits kind) :
    claim kind session = .error (.kindConflict session.statement.kind kind) session := by
  rw [claim_eq]
  exact change_of_error (Statement.claim_of_not_mem refuses)

theorem admits_of_claim_ok {kind : StatementKind} {session left : Session} {answer : Unit}
    (run : claim kind session = .ok answer left) : session.statement.Admits kind := by
  rw [claim_eq] at run
  exact Statement.admits_of_claim (change_ok run).1

/-- Expressions are added once the statement has taken the kind that they are for. -/
theorem walks_claim_extend {kind : StatementKind} {place : Place} {items : List Expression}
    {store : Statement → List Expression → Statement} (plain : kind ∈ Statement.claimedKinds)
    (step : Expression.AllFilled items → ∀ s, s.kind = kind →
      Statement.Step Bound s (store s items)) :
    Walks Bound (claim kind >>= fun _ => extend place items store) := by
  intro session
  by_cases admits : session.statement.Admits kind
  · -- the kind is taken first, and stays taken if an expression is refused
    let claimed : Session := { session with statement := { session.statement with kind } }
    have extended : Statement.Steps Bound claimed.statement
        ((extend place items store).after claimed).statement :=
      steps_extend fun filled => step filled claimed.statement rfl
    unfold Build.after
    rw [Outcome.bind_of_ok (claim_admitted admits)]
    exact .trans (.single (.claim kind plain admits)) extended
  · rw [after_of_error (Outcome.bind_of_error (claim_refused admits))]

theorem walks_select (columns : List Expression) : Walks Bound (select columns) :=
  walks_claim_extend (by decide) fun filled _ kind => .columns columns filled (Or.inl kind)

theorem walks_random (columns : List Expression) : Walks Bound (random columns) :=
  walks_claim_extend (by decide) fun filled _ kind => .columns columns filled (Or.inr kind)

theorem walks_insert (columns : List Expression) : Walks Bound (insert columns) :=
  walks_bind (walks_of_reads (reads_requireWritable _)) fun _ =>
    walks_claim_extend (by decide) fun filled _ kind => .insertColumns columns filled kind

theorem walks_updateTables (tables : List Expression) : Walks Bound (updateTables tables) :=
  walks_bind (walks_of_reads (reads_requireWritable _)) fun _ =>
    walks_claim_extend (by decide) fun filled _ kind => .updateTables tables filled kind

theorem walks_raw (sql : String) : Walks Bound (raw sql) := by
  rw [raw_eq]
  refine walks_bind (walks_of_reads (reads_requireHarmless sql)) fun _ => ?_
  refine walks_change fun s s' done => ?_
  obtain ⟨claimed, claim, stored⟩ := Outcome.except_bind_ok done
  rw [← Except.ok.inj stored, Statement.claim_eq_ok claim]
  exact .raw (Statement.trimRaw sql) (Statement.admits_of_claim claim)

theorem walks_delete : Walks Bound delete := by
  rw [delete_eq]
  refine walks_bind (walks_of_reads (reads_requireWritable _)) fun _ => ?_
  refine walks_change fun s s' done => ?_
  obtain ⟨claimed, claim, stored⟩ := Outcome.except_bind_ok done
  rw [← Except.ok.inj stored, Statement.claim_eq_ok claim]
  exact .delete (Statement.admits_of_claim claim)

theorem walks_into (target : Expression) : Walks Bound (into target) := by
  rw [into_eq]
  refine walks_change fun s s' done => ?_
  obtain ⟨_, passed, stored⟩ := Outcome.except_bind_ok done
  rw [← Except.ok.inj stored]
  exact .target target (Expression.allFilled_of_checkAll passed target List.mem_cons_self)

theorem walks_union (all : Bool) (member : Statement) : Walks Bound (union all member) := by
  rw [union_eq]
  exact walks_change fun s s' done => .member all member done

theorem walks_unions (members : List Statement) : Walks Bound (unions members) := by
  induction members with
  | nil => exact walks_of_reads (reads_pure ())
  | cons member others ih =>
      exact walks_bind (walks_union false member) fun _ => ih

theorem walks_condition (c : Condition) : Walks Bound (condition c) := by
  rw [condition_eq]
  refine walks_observe_bind fun p before after run => walks_change fun s s' done => ?_
  refine .conditions [p] ?_ done
  intro q mem
  rw [List.mem_singleton.mp mem]
  exact Condition.resolve_valid run

theorem walks_conditions (connective : Connective) (columns : List Column)
    (operators : List String) (operands : List Value) :
    Walks Bound (conditions connective columns operators operands) := by
  rw [conditions_eq]
  refine walks_bind (walks_of_reads (reads_check _)) fun cs => ?_
  refine walks_observe_bind fun ps before after run => walks_change fun s s' done => ?_
  exact .conditions ps (Condition.resolveAll_valid run) done

/-- A group is counted, and then stored as one condition. -/
theorem walks_group (tag : Nat) (connective : Connective) (inner : Statement) :
    Walks Bound (group tag connective inner) := by
  rw [group_eq]
  split
  · exact walks_of_reads (reads_pure ())
  · refine walks_bind (walks_update fun s => ?_) fun _ => walks_change fun s s' done => ?_
    · exact .settings s.distinct s.locked s.limit s.offset (s.groupCount + 1)
    · refine .conditions [s.groupPredicate tag connective inner] ?_ done
      intro p mem
      rw [List.mem_singleton.mp mem]
      exact s.groupPredicate_valid tag connective inner

theorem walks_on (index : Nat) (c : Condition) : Walks Bound (on index c) := by
  rw [on_eq]
  refine walks_observe_bind fun p before after run => walks_change fun s s' done => ?_
  exact .attach index p (Condition.resolve_valid run) done

theorem walks_onAll (index : Nat) (ons : List Condition) : Walks Bound (onAll index ons) := by
  induction ons with
  | nil => exact walks_of_reads (reads_pure ())
  | cons c cs ih => exact walks_bind (walks_on index c) fun _ => ih

theorem walks_join (kind : JoinKind) (table : Expression) (ons : List Condition) :
    Walks Bound (join kind table ons) := by
  rw [join_eq]
  refine walks_bind (walks_change fun s s' done => ?_) fun _ => ?_
  · have added := Statement.addJoin_ok done
    obtain ⟨_, passed, -⟩ := Outcome.except_bind_ok done
    rw [added]
    exact .join kind table (Expression.allFilled_of_checkAll passed table List.mem_cons_self)
  · exact walks_bind (walks_of_reads reads_get) fun session =>
      walks_bind (walks_onAll _ ons) fun _ => walks_of_reads (reads_pure _)

theorem walks_orderBy (columns : OrderColumns) (directions : OrderDirections) :
    Walks Bound (orderBy columns directions) := by
  rw [orderBy_eq]
  exact walks_bind (walks_of_reads (reads_check _)) fun pairs =>
    walks_bind (walks_of_reads (reads_observe _)) fun _ => walks_update fun _ => .orders pairs

theorem walks_values (row : List Value) : Walks Bound (values row) := by
  rw [values_eq]
  exact walks_change fun s s' done => .row row done

theorem walks_value (field : Value) : Walks Bound (value field) := by
  rw [value_eq]
  exact walks_change fun s s' done => .extend field done

theorem walks_set (pairs : List (Column × Value)) : Walks Bound (set pairs) := by
  rw [set_eq]
  exact walks_bind (walks_of_reads (reads_observe _)) fun assignments =>
    walks_change fun _ _ done => .assign assignments done

end Build

/-- What a call binds directly may be bound. -/
def Call.Binds (Bound : Statement → List Binding → Prop) : Call → Statement → Prop
  | .bind bindings, s => Bound s bindings
  | _, _ => True

/-- Every call goes by steps, whatever becomes of it. -/
theorem Call.steps_run {Bound : Statement → List Binding → Prop} (c : Call) {session : Session}
    (binds : c.Binds Bound session.statement) :
    Statement.Steps Bound session.statement (c.run.after session).statement := by
  cases c with
  | select columns => exact Build.Moves.done (Build.walks_select columns) session
  | random columns => exact Build.Moves.done (Build.walks_random columns) session
  | distinct =>
      exact Build.Moves.done (Build.walks_update fun s =>
        .settings true s.locked s.limit s.offset s.groupCount) session
  | tables tables =>
      exact Build.Moves.done (fun session => Build.steps_extend fun filled =>
        .tables tables filled) session
  | raw sql => exact Build.Moves.done (Build.walks_raw sql) session
  | limit n =>
      exact Build.Moves.done (Build.walks_update fun s =>
        .settings s.distinct s.locked (some n) s.offset s.groupCount) session
  | offset n =>
      exact Build.Moves.done (Build.walks_update fun s =>
        .settings s.distinct s.locked s.limit (some n) s.groupCount) session
  | lock =>
      exact Build.Moves.done (Build.walks_update fun s =>
        .settings s.distinct true s.limit s.offset s.groupCount) session
  | union all member =>
      exact Build.Moves.done (Build.walks_union all member) session
  | unions members => exact Build.Moves.done (Build.walks_unions members) session
  | bind bindings => exact .single (.bind bindings binds)
  | condition c => exact Build.Moves.done (Build.walks_condition c) session
  | conditions connective columns operators operands =>
      exact Build.Moves.done (Build.walks_conditions connective columns operators operands) session
  | group tag connective tolerant body =>
      unfold Call.run Build.done
      rw [Build.after_bind_pure]
      rcases Build.after_groupOf tag connective (Call.runAll tolerant body) session with
        same | ⟨built, -, went⟩
      · rw [same]
      · rw [went]
        exact Build.walks_group tag connective built.statement { session with trace := built.trace }
  | orderBy columns directions =>
      exact Build.Moves.done (Build.walks_orderBy columns directions) session
  | groupBy columns =>
      exact Build.Moves.done (fun session => Build.steps_extend fun filled =>
        .groups columns filled) session
  | join kind table ons =>
      exact Build.walks_bind (Build.walks_join kind table ons)
        (fun _ => Build.walks_of_reads (Build.reads_pure _)) session
  | insert columns => exact Build.Moves.done (Build.walks_insert columns) session
  | into target => exact Build.Moves.done (Build.walks_into target) session
  | values row => exact Build.Moves.done (Build.walks_values row) session
  | value field => exact Build.Moves.done (Build.walks_value field) session
  | update tables => exact Build.Moves.done (Build.walks_updateTables tables) session
  | set pairs => exact Build.Moves.done (Build.walks_set pairs) session
  | delete => exact Build.Moves.done Build.walks_delete session

/-! ## Invariants -/

namespace Statement

variable {Bound : Statement → List Binding → Prop}

/-- What every step keeps, steps one after the other keep. -/
theorem Steps.keep {P : Statement → Prop} (keeps : ∀ s s', P s → Step Bound s s' → P s')
    {s s' : Statement} (start : P s) (steps : Steps Bound s s') : P s' := by
  induction steps with
  | refl => exact start
  | tail _ step ih => exact keeps _ _ ih step

/-- A property of fresh statements that every step keeps is one of all reachable statements. -/
theorem ReachableBy.keep {rule : List Assignment → Prop} {P : Statement → Prop}
    (fresh : ∀ config : Config, P config.statement)
    (selection : ∀ config : Config, P config.selection)
    (keeps : ∀ s s', P s → Step (fun _ _ => True) s s' → P s')
    {s : Statement} (reach : ReachableBy rule s) : P s := by
  induction reach with
  | fresh config => exact fresh config
  | selection config => exact selection config
  | @asSelection s s' reach done ih =>
      refine keeps s s' ih ?_
      rw [claim_eq_ok done]
      exact .claim .select (by decide) (admits_of_claim done)
  | @call session c reach plain obeys values members ih =>
      refine Steps.keep keeps ih (c.steps_run ?_)
      cases c <;> trivial
  | @group session inner tag connective reach built ih =>
      exact Steps.keep keeps ih (Build.walks_group tag connective inner session)

end Statement

end SqlBuilder
