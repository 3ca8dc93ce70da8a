import SqlBuilder.Proofs.Effect

/-!
# Failed calls

A call looks at the statement and at its arguments, and writes one part after
the other.  Its failure leaves the statement alone if everything that can fail
stands in front of the first write, and what stands behind it cannot fail.
Almost all calls are of this form, however many looks and writes they take.
A group of conditions is built on a statement of its own, so that a failure
within its body cannot reach the statement; only the count of groups may have
been advanced when the finished group is refused.
-/

namespace SqlBuilder

namespace Build

variable {α β : Type}

/-! ## Calls that read -/

theorem reads_pure (answer : α) : Reads (pure answer : Build α) :=
  fun _ => rfl

theorem reads_throw (error : Error) : Reads (throw error : Build α) :=
  fun _ => rfl

theorem reads_get : Reads (get : Build Session) :=
  fun _ => rfl

theorem reads_observe (action : EStateM Error Trace α) : Reads (observe action) :=
  .observe (R := fun before left => left = before) (fun _ => rfl) action

theorem reads_ofExcept (check : Except Error α) : Reads (ofExcept check : Build α) := by
  cases check with
  | ok answer => exact reads_pure answer
  | error error => exact reads_throw error

theorem reads_bind {first : Build α} {next : α → Build β} (reads : Reads first)
    (then_ : ∀ answer, Reads (next answer)) : Reads (first >>= next) :=
  .bind (fun left right => right.trans left) reads then_

theorem reads_requireWritable (kind : WriteKind) : Reads (requireWritable kind) := by
  refine reads_bind reads_get fun session => ?_
  split
  · exact reads_bind (reads_observe _) fun _ => reads_throw _
  · exact reads_pure _

theorem reads_requireHarmless (sql : String) : Reads (requireHarmless sql) := by
  refine reads_bind reads_get fun session => ?_
  split
  · split
    · exact reads_bind (reads_observe _) fun _ => reads_throw _
    · exact reads_pure _
  · exact reads_pure _

/-- A check of arguments writes nothing. -/
theorem reads_check (checked : Except ArgumentFault α) : Reads (check checked) :=
  reads_ofExcept _

/-- Bindings are merged into a list of their own. -/
theorem reads_mergeBindings (pending bindings : List Binding) :
    Reads (mergeBindings pending bindings) := by
  induction bindings generalizing pending with
  | nil => exact reads_pure pending
  | cons binding bindings ih =>
      exact reads_bind reads_get fun session => reads_bind (reads_check _) fun taken => ih taken

theorem reads_newBindings (nested : List Statement) : Reads (newBindings nested) :=
  reads_mergeBindings [] _

/-! ## Calls that cannot fail -/

/-- The call answers, whatever it finds. -/
def Total (call : Build α) : Prop :=
  ∀ session, ∃ answer left, call session = .ok answer left

theorem total_pure (answer : α) : Total (pure answer : Build α) :=
  fun session => ⟨answer, session, rfl⟩

theorem total_get : Total (get : Build Session) :=
  fun session => ⟨session, session, rfl⟩

theorem total_update (f : Statement → Statement) : Total (update f) :=
  fun session => ⟨(), { session with statement := f session.statement }, rfl⟩

theorem total_bind {first : Build α} {next : α → Build β} (total : Total first)
    (then_ : ∀ answer, Total (next answer)) : Total (first >>= next) := by
  intro session
  obtain ⟨answer, between, run⟩ := total session
  obtain ⟨last, left, went⟩ := then_ answer between
  exact ⟨last, left, (Outcome.bind_of_ok run).trans went⟩

theorem total_updateEach (write : Statement → α → Statement) (items : List α) :
    Total (updateEach write items) := by
  induction items with
  | nil => exact total_pure ()
  | cons item items ih => exact total_bind (total_update _) fun _ => ih

/-! ## Calls that fail before they write -/

theorem atomic_of_reads {call : Build α} (reads : Reads call) : Atomic call := by
  intro session error left run
  have same := reads session
  rwa [after_of_error run] at same

theorem atomic_of_total {call : Build α} (total : Total call) : Atomic call := by
  intro session error left run
  obtain ⟨answer, other, done⟩ := total session
  cases done.symm.trans run

theorem atomic_update (f : Statement → Statement) : Atomic (update f) :=
  atomic_of_total (total_update f)

/-- Reading first cannot make the failure of a call worse. -/
theorem atomic_bind {first : Build α} {next : α → Build β} (reads : Reads first)
    (atomic : ∀ answer, Atomic (next answer)) : Atomic (first >>= next) := by
  intro session error left run
  have same := reads session
  rcases Outcome.bind_error run with failed | ⟨answer, between, done, run⟩
  · rwa [after_of_error failed] at same
  · rw [after_of_ok done] at same
    rw [atomic answer between error left run, same]

/-- What cannot fail cannot make the failure of a call worse either. -/
theorem atomic_bind_total {first : Build α} {next : α → Build β} (atomic : Atomic first)
    (total : ∀ answer, Total (next answer)) : Atomic (first >>= next) := by
  intro session error left run
  rcases Outcome.bind_error run with failed | ⟨answer, between, -, run⟩
  · exact atomic session error left failed
  · obtain ⟨last, other, went⟩ := total answer between
    cases went.symm.trans run

theorem atomic_done {call : Build Unit} (atomic : Atomic call) : Atomic (done call) :=
  atomic_bind_total atomic fun _ => total_pure _

/-- The names are listed and the bindings merged before either is written down. -/
theorem atomic_track (values : List Value) : Atomic (track values) :=
  atomic_bind (reads_check _) fun _ => atomic_bind (reads_newBindings _) fun _ =>
    atomic_of_total (total_bind (total_update _) fun _ => total_update _)

/-- The kind is compared before it is written. -/
theorem atomic_claim (kind : StatementKind) : Atomic (claim kind) := by
  refine atomic_bind reads_get fun session => ?_
  dsimp only
  split
  · exact atomic_update _
  · split
    · exact atomic_of_reads (reads_throw _)
    · exact atomic_of_reads (reads_pure _)

theorem atomic_extend (place : Place) (items : List Expression)
    (store : Statement → List Expression → Statement) : Atomic (extend place items store) :=
  atomic_bind (reads_ofExcept _) fun _ => atomic_update _

theorem atomic_raw (sql : String) : Atomic (raw sql) :=
  atomic_bind (reads_requireHarmless sql) fun _ =>
    atomic_bind_total (atomic_claim .raw) fun _ => total_update _

theorem atomic_delete : Atomic delete :=
  atomic_bind (reads_requireWritable _) fun _ =>
    atomic_bind_total (atomic_claim .delete) fun _ => total_update _

theorem atomic_into (target : Expression) : Atomic (into target) :=
  atomic_bind (reads_ofExcept _) fun _ => atomic_update _

theorem atomic_union (all : Bool) (member : Statement) : Atomic (union all member) :=
  atomic_bind (reads_newBindings _) fun _ => atomic_of_total <|
    total_bind (total_update _) fun _ => total_bind (total_update _) fun _ => total_update _

theorem atomic_pushPredicate (predicate : Predicate) : Atomic (pushPredicate predicate) :=
  atomic_bind_total (atomic_track _) fun _ => total_update _

theorem atomic_condition (c : Condition) : Atomic (condition c) :=
  atomic_bind (reads_observe _) fun _ => atomic_pushPredicate _

/-- All conditions are worked out and tracked before the first is stored. -/
theorem atomic_conditions (connective : Connective) (columns : List Column)
    (operators : List String) (values : List Value) :
    Atomic (conditions connective columns operators values) :=
  atomic_bind (reads_check _) fun _ => atomic_bind (reads_observe _) fun _ =>
    atomic_bind_total (atomic_track _) fun _ => total_updateEach _ _

theorem atomic_on (index : Nat) (c : Condition) : Atomic (on index c) :=
  atomic_bind (reads_observe _) fun _ =>
    atomic_bind_total (atomic_track _) fun _ => total_update _

/-- A join without conditions can only fail on its table. -/
theorem atomic_join (kind : JoinKind) (table : Expression) : Atomic (join kind table []) :=
  atomic_bind (reads_ofExcept _) fun _ => atomic_of_total <|
    total_bind (total_update _) fun _ => total_bind total_get fun _ =>
      total_bind (total_pure ()) fun _ => total_pure _

theorem atomic_orderBy (columns : OrderColumns) (directions : OrderDirections) :
    Atomic (orderBy columns directions) :=
  atomic_bind (reads_check _) fun _ => atomic_bind (reads_observe _) fun _ =>
    atomic_of_total (total_updateEach _ _)

theorem atomic_values (row : List Value) : Atomic (values row) :=
  atomic_bind_total (atomic_track row) fun _ => total_update _

/-- The names to be forgotten are listed before the new value is tracked. -/
theorem atomic_value (v : Value) : Atomic (value v) := by
  refine atomic_bind reads_get fun session => ?_
  split
  · exact atomic_of_reads (reads_throw _)
  · refine atomic_bind (reads_check _) fun replaced => atomic_bind reads_get fun marked => ?_
    refine atomic_bind_total (atomic_track [v]) fun _ => ?_
    exact total_bind (total_update _) fun _ => total_update _

theorem atomic_set (pairs : List (Column × Value)) : Atomic (set pairs) := by
  refine atomic_bind (reads_observe _) fun assignments => atomic_bind reads_get fun session => ?_
  refine atomic_bind (reads_check _) fun replaced => ?_
  refine atomic_bind_total (atomic_track _) fun _ => ?_
  exact total_bind (total_update _) fun _ => total_updateEach _ _

/-! ## Groups -/

/-- A group is built on a statement of its own. -/
theorem reads_apart (s : Statement) (body : Build Unit) : Reads (apart s body) := by
  intro session
  unfold after apart
  cases body { statement := s, trace := session.trace } <;> rfl

/-- A finished group is counted before it is refused. -/
theorem group_failed {tag : Nat} {connective : Connective} {inner : Statement}
    {session left : Session} {error : Error}
    (run : group tag connective inner session = .error error left) :
    left.statement =
      { session.statement with groupCount := session.statement.groupCount + 1 } := by
  unfold group at run
  split at run
  · cases run
  · rcases Outcome.bind_error run with failed | ⟨_, between, counted, run⟩
    · cases failed
    · cases counted
      exact atomic_bind reads_get (fun _ => atomic_pushPredicate _) _ error left run

theorem groupOf_failed {tag : Nat} {connective : Connective} {body : Build Unit}
    {session left : Session} {error : Error}
    (run : groupOf tag connective body session = .error error left) :
    left.statement = session.statement ∨
      left.statement =
        { session.statement with groupCount := session.statement.groupCount + 1 } := by
  have reads := reads_apart session.statement.config.selection body session
  change (apart session.statement.config.selection body >>= group tag connective) session = _ at run
  rcases Outcome.bind_error run with failed | ⟨inner, between, built, run⟩
  · rw [after_of_error failed] at reads
    exact Or.inl reads
  · rw [after_of_ok built] at reads
    rw [← reads]
    exact Or.inr (group_failed run)

end Build

namespace Call

/-- The call is made as a whole: it never stops after a part of its changes. -/
def isWhole : Call → Bool
  | .select _ | .random _ | .unions _ | .insert _ | .update _ | .group _ _ _ _ => false
  | .join _ _ ons => ons.isEmpty
  | _ => true

theorem atomic_run {c : Call} (whole : c.isWhole = true) : c.run.Atomic := by
  cases c with
  | select columns | random columns | unions members | insert columns | update tables
  | group tag connective tolerant body => cases whole
  | distinct | limit n | offset n | lock | bind bindings =>
      exact Build.atomic_done (Build.atomic_update _)
  | tables items => exact Build.atomic_done (Build.atomic_extend .table items _)
  | groupBy columns => exact Build.atomic_done (Build.atomic_extend .groupBy columns _)
  | union all member => exact Build.atomic_done (Build.atomic_union all member)
  | into target => exact Build.atomic_done (Build.atomic_into target)
  | values row => exact Build.atomic_done (Build.atomic_values row)
  | value field => exact Build.atomic_done (Build.atomic_value field)
  | raw sql => exact Build.atomic_done (Build.atomic_raw sql)
  | condition c => exact Build.atomic_done (Build.atomic_condition c)
  | conditions connective columns operators operands =>
      exact Build.atomic_done (Build.atomic_conditions connective columns operators operands)
  | orderBy columns directions =>
      exact Build.atomic_done (Build.atomic_orderBy columns directions)
  | join kind table ons =>
      cases ons with
      | nil =>
          exact Build.atomic_bind_total (Build.atomic_join kind table) fun _ =>
            Build.total_pure _
      | cons c cs => cases whole
  | set pairs => exact Build.atomic_done (Build.atomic_set pairs)
  | delete => exact Build.atomic_done Build.atomic_delete

theorem after_of_failed {c : Call} (whole : c.isWhole = true) {session left : Session}
    {error : Error} (run : c.run session = .error error left) :
    (c.run.after session).statement = session.statement := by
  rw [Build.after_of_error run]
  exact atomic_run whole session error left run

/--
A call that is made as a whole leaves the statement as it was when it fails,
and so does a condition on a join.  A group of conditions, whatever its body
does, changes no more than the count of groups.
-/
theorem failed_calls_keep_statement :
    (∀ (c : Call) (session left : Session) (error : Error), c.isWhole = true →
      c.run session = .error error left → left.statement = session.statement) ∧
    (∀ (index : Nat) (c : Condition) (session left : Session) (error : Error),
      Build.on index c session = .error error left → left.statement = session.statement) ∧
    ∀ (tag : Nat) (connective : Connective) (body : Build Unit) (session left : Session)
      (error : Error), Build.groupOf tag connective body session = .error error left →
      left.statement = session.statement ∨
        left.statement =
          { session.statement with groupCount := session.statement.groupCount + 1 } := by
  refine ⟨?_, ?_, ?_⟩
  · intro c session left error whole run
    exact atomic_run whole session error left run
  · intro index c session left error run
    exact Build.atomic_on index c session error left run
  · intro tag connective body session left error run
    exact Build.groupOf_failed run

/-- A statement that binds `id`. -/
def owner (id : Int64) : Statement :=
  { ({} : Config).selection with bindings := [Binding.named "id" (.int id)] }

/-- Two conditions, the second on a statement whose binding of `id` differs. -/
def conflicting : Call :=
  .conditions .and [.name "level", .name "owner"] ["=", "IN"] [.int 1, .query 0 (owner 2)]

/-- A body that adds a condition and then fails. -/
def halfway : Build Unit :=
  runAll false [.condition ⟨.name "level", some "=", .int 1, .and⟩, conflicting,
    .condition ⟨.name "rank", some "=", .list [.parameter "not a name"], .and⟩]

theorem failed_calls_keep_statement_late :
    (∃ error left, conflicting.run { statement := owner 1 } = .error error left ∧
      left.statement = owner 1) ∧
    ∃ error left, Build.groupOf 0 .and halfway { statement := owner 1 } = .error error left ∧
      (left.statement = owner 1 ∨
        left.statement = { owner 1 with groupCount := (owner 1).groupCount + 1 }) := by
  obtain ⟨calls, -, groups⟩ := failed_calls_keep_statement
  constructor
  · exact ⟨_, _, rfl, calls conflicting { statement := owner 1 } _ _ rfl rfl⟩
  · exact ⟨_, _, rfl, groups 0 .and halfway { statement := owner 1 } _ _ rfl⟩

end Call

end SqlBuilder
