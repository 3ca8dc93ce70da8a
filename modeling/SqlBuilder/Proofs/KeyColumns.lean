import SqlBuilder.Proofs.Directions
import SqlBuilder.Proofs.Layout
import SqlBuilder.Proofs.Timeless

/-!
# Columns that calls work out

A call works out the columns that it needs a key of, from left to right, and
nothing else: expressions, columns that stand as values, and statements that
are nested are stored as they are.  A call that fails may have worked out only
some of its columns.
-/

namespace SqlBuilder

/-- The identities of the deferred texts that were worked out, in turn. -/
def Trace.worked (trace : Trace) : List Nat :=
  trace.filterMap fun
    | .evaluated id => some id
    | _ => none

theorem Trace.worked_append (left right : Trace) :
    Trace.worked (left ++ right) = left.worked ++ right.worked :=
  List.filterMap_append

/-- The identities of the columns that are deferred. -/
def Column.identities (columns : List Column) : List Nat :=
  Trace.worked (columns.flatMap Column.events)

theorem Column.identities_append (left right : List Column) :
    identities (left ++ right) = identities left ++ identities right := by
  rw [identities, List.flatMap_append, Trace.worked_append]
  rfl

/-! ## Actions that work out columns -/

/--
An action works out some of the columns, in their order, and no other deferred
text.  If it answers and `complete` holds, it works out all of them.
-/
structure Works {σ α : Type} (view : σ → Trace) (complete : Prop) (columns : List Column)
    (action : EStateM Error σ α) : Prop where
  ok : ∀ s a t, action s = .ok a t → ∃ done : List Column, done.Sublist columns ∧
    (complete → done = columns) ∧ (view t).worked = (view s).worked ++ Column.identities done
  error : ∀ s e t, action s = .error e t → ∃ done : List Column, done.Sublist columns ∧
    (view t).worked = (view s).worked ++ Column.identities done

namespace Works

variable {σ α β : Type} {view : σ → Trace} {complete : Prop} {columns more : List Column}
  {first : EStateM Error σ α} {next : α → EStateM Error σ β}

/-- An action that leaves the evaluations as they are works out nothing. -/
theorem none {action : EStateM Error σ α}
    (ok : ∀ s a t, action s = .ok a t → (view t).worked = (view s).worked)
    (error : ∀ s e t, action s = .error e t → (view t).worked = (view s).worked) :
    Works view complete [] action where
  ok s a t run := ⟨[], .slnil, fun _ => rfl, by rw [ok s a t run]; exact (List.append_nil _).symm⟩
  error s e t run := ⟨[], .slnil, by rw [error s e t run]; exact (List.append_nil _).symm⟩

theorem pure (a : α) : Works view complete [] (Pure.pure a : EStateM Error σ α) :=
  none (fun _ _ _ run => by cases run; rfl) nofun

theorem throw (e : Error) (columns : List Column) :
    Works view complete columns (MonadExcept.throw e : EStateM Error σ α) where
  ok := nofun
  error s e t run := by
    cases run
    exact ⟨[], List.nil_sublist columns, (List.append_nil _).symm⟩

theorem check (check : Except Error α) :
    Works view complete [] (ofExcept check : EStateM Error σ α) := by
  cases check with
  | ok a => exact pure a
  | error e => exact throw e []

/-- What follows an answer works out its columns behind those of the first action. -/
theorem bind_of (works : Works view complete columns first)
    (follows : ∀ s a t, first s = .ok a t → Works view complete more (next a)) :
    Works view complete (columns ++ more) (first >>= next) where
  ok s b u run := by
    obtain ⟨a, t, ran, run⟩ := Outcome.bind_ok run
    obtain ⟨done, part, whole, worked⟩ := works.ok s a t ran
    obtain ⟨done', part', whole', worked'⟩ := (follows s a t ran).ok t b u run
    refine ⟨done ++ done', part.append part', fun all => by rw [whole all, whole' all], ?_⟩
    rw [worked', worked, Column.identities_append, List.append_assoc]
  error s e u run := by
    rcases Outcome.bind_error run with failed | ⟨a, t, ran, failed⟩
    · obtain ⟨done, part, worked⟩ := works.error s e u failed
      exact ⟨done, part.trans (List.sublist_append_left columns more), worked⟩
    · obtain ⟨done, part, -, worked⟩ := works.ok s a t ran
      obtain ⟨done', part', worked'⟩ := (follows s a t ran).error t e u failed
      refine ⟨done ++ done', part.append part', ?_⟩
      rw [worked', worked, Column.identities_append, List.append_assoc]

theorem bind (works : Works view complete columns first)
    (follows : ∀ a, Works view complete more (next a)) :
    Works view complete (columns ++ more) (first >>= next) :=
  works.bind_of fun _ a _ _ => follows a

/-- An action behind one that works out nothing. -/
theorem after (silent : Works view complete [] first)
    (follows : ∀ a, Works view complete columns (next a)) :
    Works view complete columns (first >>= next) :=
  silent.bind follows

/-- An action in front of one that works out nothing. -/
theorem ahead (works : Works view complete columns first)
    (silent : ∀ a, Works view complete [] (next a)) :
    Works view complete columns (first >>= next) := by
  have followed := works.bind silent
  rwa [List.append_nil] at followed

theorem map (works : Works view complete columns first) (f : α → β) :
    Works view complete columns (first >>= fun a => Pure.pure (f a)) :=
  works.ahead fun a => .pure (f a)

end Works

theorem Column.works_key {complete : Prop} (c : Column) : Works id complete [c] c.key := by
  have read : Works id complete [c] (c.read : EStateM Error Trace String) := by
    refine ⟨fun s a t run => ⟨[c], List.Sublist.refl _, fun _ => rfl, ?_⟩, fun s e t run => ?_⟩
    · rw [Column.read_run] at run
      cases run
      rw [id, id, Trace.worked_append, identities, List.flatMap_singleton]
    · rw [Column.read_run] at run
      cases run
  refine read.ahead fun key => ?_
  split
  · exact .throw _ []
  · exact .pure key

namespace Condition

variable {complete : Prop}

theorem works_resolve (c : Condition) : Works id complete [c.column] c.resolve := by
  refine (Works.check _).after fun operator => c.column.works_key.ahead fun key => ?_
  exact (Works.check _).map _

theorem works_resolveAll (cs : List Condition) :
    Works id complete (cs.map Condition.column) (Condition.resolveAll cs) := by
  induction cs with
  | nil => exact .pure []
  | cons c cs ih => exact c.works_resolve.bind fun p => ih.map _

end Condition

namespace Ordering

theorem works_resolveAll {complete : Prop} (cs : List SortColumn) :
    Works id complete (cs.map SortColumn.column) (Ordering.resolveAll cs) := by
  induction cs with
  | nil => exact .pure ()
  | cons c cs ih => exact c.column.works_key.bind fun key => ih

end Ordering

theorem Assignment.works_resolveAll {complete : Prop} (pairs : List (Column × Value)) :
    Works id complete (pairs.map Prod.fst) (Assignment.resolveAll pairs) := by
  induction pairs with
  | nil => exact .pure []
  | cons pair pairs ih => exact pair.1.works_key.bind fun key => ih.map _

/-! ## Calls -/

namespace Build

variable {α : Type} {complete : Prop} {columns : List Column}

theorem works_observe {action : EStateM Error Trace α} (works : Works id complete columns action) :
    Works Session.trace complete columns (observe action) where
  ok session a left run := works.ok session.trace a left.trace (observe_ok run).1
  error session e left run := by
    unfold observe at run
    cases went : action session.trace with
    | ok a t => rw [went] at run; cases run
    | error e t =>
        rw [went] at run
        cases run
        exact works.error session.trace _ t went

theorem works_change (f : Statement → Except Error Statement) :
    Works Session.trace complete [] (change f) :=
  .none (fun _ _ _ run => by rw [(change_ok run).2]) fun _ _ _ run => by rw [(change_error run).2]

/-- A change of the statement works out nothing. -/
theorem works_of_isChange {call : Build Unit} (whole : IsChange call) :
    Works Session.trace complete [] call := by
  obtain ⟨f, rfl⟩ := whole
  exact works_change f

theorem works_done {call : Build Unit} (works : Works Session.trace complete columns call) :
    Works Session.trace complete columns (done call) :=
  works.map fun _ => Answer.done

/-- A call may look at the statement. -/
theorem works_get (next : Statement → Build α)
    (works : ∀ s, Works Session.trace complete columns (next s)) :
    Works Session.trace complete columns (get >>= fun session => next session.statement) where
  ok session a left run := (works session.statement).ok session a left run
  error session e left run := (works session.statement).error session e left run

/-- What is refused is recorded, but no deferred text is worked out. -/
theorem works_refuse (event : Event) (silent : Trace.worked [event] = []) (e : Error) :
    Works Session.trace complete []
      (observe (Trace.emit event) >>= fun _ => (throw e : Build α)) := by
  have emits : Works id complete [] (Trace.emit event : EStateM Error Trace Unit) := by
    refine .none (fun trace _ _ run => ?_) nofun
    cases run
    rw [id, id, Trace.worked_append, silent, List.append_nil]
  exact (works_observe emits).after fun _ => .throw e []

/-- A check of read-only statements works out nothing if its refusal does not. -/
theorem works_of_readOnly {check refusal : Build Unit}
    (silent : Works Session.trace complete [] refusal)
    (form : ∀ session : Session, check session =
      (if session.statement.config.readOnly then refusal else pure ()) session) :
    Works Session.trace complete [] check := by
  have same : check = (get >>= fun session =>
      if session.statement.config.readOnly then refusal else pure ()) := funext form
  rw [same]
  refine works_get (fun s => if s.config.readOnly then refusal else pure ()) fun s => ?_
  split
  · exact silent
  · exact .pure ()

theorem works_requireWritable (kind : WriteKind) :
    Works Session.trace complete [] (requireWritable kind) :=
  works_of_readOnly (works_refuse (.refusedWrite kind) rfl (.readOnly (.writes kind))) fun _ => rfl

theorem works_requireHarmless (sql : String) :
    Works Session.trace complete [] (requireHarmless sql) := by
  cases found : Statement.writeWords.find? (Text.mentions sql) with
  | none =>
      refine works_of_readOnly (.pure ()) fun session => ?_
      unfold requireHarmless
      rw [found]
      rfl
  | some word =>
      refine works_of_readOnly (works_refuse (.refusedKeyword word) rfl
        (.readOnly (.keyword word))) fun session => ?_
      unfold requireHarmless
      rw [found]
      rfl

theorem works_claim_extend (kind : StatementKind) (place : Place) (items : List Expression)
    (store : Statement → List Expression → Statement) :
    Works Session.trace complete []
      (claim kind >>= fun _ => extend place items store) :=
  (works_of_isChange (isChange_claim kind)).after fun _ =>
    works_of_isChange (isChange_extend place items store)

theorem works_unions (members : List Statement) :
    Works Session.trace complete [] (unions members) := by
  induction members with
  | nil => exact .pure ()
  | cons member others ih =>
      exact (works_of_isChange (isChange_union false member)).after fun _ => ih

theorem works_condition (c : Condition) :
    Works Session.trace complete [c.column] (condition c) := by
  rw [condition_eq]
  exact (works_observe c.works_resolve).ahead fun _ => works_change _

theorem works_conditions (connective : Connective) (columns : List Column)
    (operators : List String) (operands : List Value) :
    Works Session.trace complete columns (conditions connective columns operators operands) := by
  rw [conditions_eq]
  cases zipped : Condition.zip connective columns operators operands with
  | error fault => exact .throw _ columns
  | ok cs =>
      rw [← Condition.zip_columns zipped]
      exact (works_observe (Condition.works_resolveAll cs)).ahead fun _ => works_change _

theorem works_orderBy (columns : OrderColumns) (directions : OrderDirections) :
    Works Session.trace complete columns.toList (orderBy columns directions) := by
  rw [orderBy_eq]
  cases paired : Ordering.pair columns directions with
  | error fault => exact .throw _ columns.toList
  | ok pairs =>
      rw [← Ordering.pair_columns paired]
      exact (works_observe (Ordering.works_resolveAll pairs)).ahead fun _ =>
        works_of_isChange (isChange_update _)

theorem works_onAll (index : Nat) (ons : List Condition) :
    Works Session.trace complete (ons.map Condition.column) (onAll index ons) := by
  induction ons with
  | nil => exact .pure ()
  | cons c cs ih =>
      have first : Works Session.trace complete [c.column] (on index c) := by
        rw [on_eq]
        exact (works_observe c.works_resolve).ahead fun _ => works_change _
      exact first.bind fun _ => ih

theorem works_join (kind : JoinKind) (table : Expression) (ons : List Condition) :
    Works Session.trace complete (ons.map Condition.column) (join kind table ons) := by
  rw [join_eq]
  refine (works_change _).after fun _ => ?_
  exact works_get (fun s => onAll (s.joins.length - 1) ons >>= fun _ => pure (s.joins.length - 1))
    fun _ => (works_onAll _ ons).map _

theorem works_set (pairs : List (Column × Value)) :
    Works Session.trace complete (pairs.map Prod.fst) (set pairs) := by
  rw [set_eq]
  exact (works_observe (Assignment.works_resolveAll pairs)).ahead fun _ => works_change _

/-- A finished group is stored as it is. -/
theorem works_group (tag : Nat) (connective : Connective) (inner : Statement) :
    Works Session.trace complete [] (group tag connective inner) := by
  rw [group_eq]
  split
  · exact .pure ()
  · exact (works_of_isChange (isChange_update _)).after fun _ => works_change _

theorem works_building (s : Statement) {body : Build Unit}
    (works : Works Session.trace complete columns body) :
    Works id complete columns (building s body) where
  ok trace _ _ run := works.ok ⟨s, trace⟩ _ _ (building_ok run)
  error trace _ _ run := by
    unfold building at run
    cases went : body ⟨s, trace⟩ with
    | ok answer inner =>
        rw [went] at run
        cases run
    | error error inner =>
        rw [went] at run
        cases run
        exact works.error ⟨s, trace⟩ _ inner went

/-- A group works out what its body does. -/
theorem works_groupOf (tag : Nat) (connective : Connective) {body : Build Unit}
    (works : Works Session.trace complete columns body) :
    Works Session.trace complete columns (groupOf tag connective body) := by
  refine works_get (fun s => apart s.config.selection body >>= group tag connective) fun s => ?_
  have built : Works id complete columns (building s.config.selection body) :=
    works_building s.config.selection works
  rw [apart_eq_observe]
  exact (works_observe built).ahead fun _ => works_group tag connective _

/-- A call in a tolerant body may fail, and then some of its columns only are worked out. -/
theorem works_step {tolerant : Bool} (strict : complete → tolerant = false) {call : Build Answer}
    (works : Works Session.trace complete columns call) :
    Works Session.trace complete columns (step tolerant call) where
  ok session _ left run := by
    cases ran : call session with
    | ok answer between =>
        cases (step_of_ok tolerant ran).symm.trans run
        exact works.ok session answer left ran
    | error error between =>
        have stepped := step_of_error tolerant ran
        cases tolerant with
        | false => cases stepped.symm.trans run
        | true =>
            cases stepped.symm.trans run
            obtain ⟨done, part, worked⟩ := works.error session _ left ran
            -- the failure is skipped, and what it left undone stays undone
            exact ⟨done, part, fun all => absurd (strict all) (by decide), worked⟩
  error session _ left run := by
    cases ran : call session with
    | ok answer between => cases (step_of_ok tolerant ran).symm.trans run
    | error error between =>
        have stepped := step_of_error tolerant ran
        cases tolerant with
        | true => cases stepped.symm.trans run
        | false =>
            cases stepped.symm.trans run
            exact works.error session _ left ran

end Build

namespace Call

mutual

/-- The columns that a call needs a key of, from left to right, also in the body of a group. -/
def keyColumns : Call → List Column
  | .condition c => [c.column]
  | .conditions _ columns _ _ => columns
  | .group _ _ _ body => keyColumnsAll body
  | .orderBy columns _ => columns.toList
  | .join _ _ ons => ons.map Condition.column
  | .set pairs => pairs.map Prod.fst
  | _ => []
termination_by structural call => call

def keyColumnsAll : List Call → List Column
  | [] => []
  | call :: calls => keyColumns call ++ keyColumnsAll calls
termination_by structural calls => calls

end

mutual

/-- No group in the call goes on after a failure. -/
def isStrict : Call → Bool
  | .group _ _ tolerant body => !tolerant && areStrict body
  | _ => true
termination_by structural call => call

def areStrict : List Call → Bool
  | [] => true
  | call :: calls => isStrict call && areStrict calls
termination_by structural calls => calls

end

section Runs

variable {complete : Prop}

open Build

mutual

/-- A call works out its key columns and nothing else. -/
theorem works_run : ∀ call : Call, (complete → call.isStrict = true) →
    Works Session.trace complete call.keyColumns call.run
  | .condition c, _ => works_done (works_condition c)
  | .conditions connective columns operators operands, _ =>
      works_done (works_conditions connective columns operators operands)
  | .group tag connective tolerant body, strict => by
      have parts (all : complete) : tolerant = false ∧ areStrict body = true := by
        simpa [isStrict] using strict all
      exact works_done (works_groupOf tag connective
        (works_runAll body (fun all => (parts all).1) fun all => (parts all).2))
  | .orderBy columns directions, _ => works_done (works_orderBy columns directions)
  | .join kind table ons, _ => (works_join kind table ons).map _
  | .set pairs, _ => works_done (works_set pairs)
  | .select _, _ | .random _, _ => works_done (works_claim_extend _ _ _ _)
  | .insert _, _ | .update _, _ =>
      works_done ((works_requireWritable _).after fun _ => works_claim_extend _ _ _ _)
  | .raw sql, _ =>
      works_done ((works_requireHarmless sql).after fun _ =>
        (works_of_isChange (isChange_claim _)).after fun _ => works_of_isChange (isChange_update _))
  | .delete, _ =>
      works_done ((works_requireWritable _).after fun _ =>
        (works_of_isChange (isChange_claim _)).after fun _ => works_of_isChange (isChange_update _))
  | .unions members, _ => works_done (works_unions members)
  | .distinct, _ | .limit _, _ | .offset _, _ | .lock, _ | .bind _, _ =>
      works_done (works_of_isChange (isChange_update _))
  | .tables _, _ | .groupBy _, _ => works_done (works_of_isChange (isChange_extend _ _ _))
  | .union all member, _ => works_done (works_of_isChange (isChange_union all member))
  | .into target, _ => works_done (works_of_isChange (isChange_into target))
  | .values row, _ => works_done (works_of_isChange (isChange_values row))
  | .value field, _ => works_done (works_of_isChange (isChange_value field))
termination_by structural call => call

/-- A run of calls works out their key columns, call by call. -/
theorem works_runAll {tolerant : Bool} : ∀ calls : List Call, (complete → tolerant = false) →
    (complete → areStrict calls = true) →
    Works Session.trace complete (keyColumnsAll calls) (runAll tolerant calls)
  | [], _, _ => .pure ()
  | call :: calls, goesOn, strict => by
      have parts (all : complete) : call.isStrict = true ∧ areStrict calls = true := by
        simpa [areStrict] using strict all
      rw [runAll_cons]
      have first := works_step goesOn (works_run call fun all => (parts all).1)
      exact first.bind fun _ => works_runAll calls goesOn fun all => (parts all).2
termination_by structural calls => calls

end

end Runs

end Call

/-! ## Deferred texts in place -/

namespace Deferred

/--
Deferred texts are worked out where they stand.  The text of a statement that
holds no `INSERT` is laid out with its occurrences: they are worked out in the
order of the text, each once, each shows what its own evaluation gave, and
where the column of an `IN` with an empty list is worked out stands `1 = 0`.
The same holds of a group concatenation in every grammar whose aggregate lists
its columns, which those of the dialects do.  A call works out key columns
only, in their order; if it succeeds and none of its groups goes on after a
failure, each of them once.
-/
theorem evaluated_in_place :
    (∀ (g : Grammar) (s : Statement), s.InsertFree →
      Lays (s.sqlIn g) (Occurrence.ofStatement s)) ∧
    (∀ (g : Grammar) (c : GroupConcat), g.ListsColumns → c.statement.InsertFree →
      Lays (c.sqlIn g) (Occurrence.ofConcat c)) ∧
    (∀ (g : Grammar) (escapes : Bool), g.BuiltIn escapes → g.ListsColumns) ∧
    (∀ (call : Call) (session : Session), ∃ done : List Column, done.Sublist call.keyColumns ∧
      (call.run.after session).trace.worked =
        session.trace.worked ++ Column.identities done) ∧
    ∀ (call : Call) (session left : Session) (answer : Answer), call.isStrict = true →
      call.run session = .ok answer left →
      left.trace.worked = session.trace.worked ++ Column.identities call.keyColumns := by
  refine ⟨fun g s free => (s.scope g).lays_statement s free,
    fun g c lists free => (c.statement.scope g).lays_concat lists free,
    fun g escapes builtIn => builtIn.listsColumns, fun call session => ?_,
    fun call session left answer strict run => ?_⟩
  · have works : Works Session.trace False call.keyColumns call.run :=
      Call.works_run call False.elim
    cases run : call.run session with
    | ok answer left =>
        obtain ⟨done, part, -, worked⟩ := works.ok session answer left run
        exact ⟨done, part, by rw [Build.after_of_ok run, worked]⟩
    | error error left =>
        obtain ⟨done, part, worked⟩ := works.error session error left run
        exact ⟨done, part, by rw [Build.after_of_error run, worked]⟩
  · have works := Call.works_run call fun all : True => strict
    obtain ⟨done, -, whole, worked⟩ := works.ok session answer left run
    rw [worked, whole trivial]

/-- A deferred text whose evaluations give one letter after the other. -/
def letters : Deferred :=
  ⟨7, fun n => ["a", "b", "c", "d", "e", "f"].getD n "z"⟩

/-- A statement that selects a letter. -/
def letterQuery : Statement :=
  { kind := .select, columns := [.deferred letters] }

/-- A statement with the same deferred text in most of its clauses. -/
def lettered : Statement :=
  { kind := .select
    columns := [.deferred letters]
    tables := [.deferred letters]
    predicates :=
      [⟨"a", .deferred letters, some .isIn, .list [], .and⟩,
        ⟨"b", .deferred letters, some .equal, .query 1 letterQuery, .and⟩]
    orders := [⟨.ascending, .deferred letters⟩] }

/-- A group concatenation over it. -/
def letteredConcat : GroupConcat :=
  { statement := lettered
    columns := [.deferred letters, .raw "x", .deferred letters]
    label := "l" }

/-- A call that sets two columns, the first to itself. -/
def letterSet : Call :=
  .set [(.deferred letters, .column (.deferred letters)), (.deferred letters, .null)]

theorem insertFree_letterQuery : letterQuery.InsertFree :=
  .of_stored (by decide) fun inner stores => by
    simp [Statement.Stores, letterQuery, Statement.values, Statement.memberStatements] at stores

theorem insertFree_lettered : lettered.InsertFree := by
  refine .of_stored (by decide) fun inner stores => ?_
  have only : inner = letterQuery := by
    simp only [Statement.Stores, lettered, Statement.values, Statement.memberStatements,
      List.map_cons, List.map_nil, List.flatMap_nil, List.flatten_nil, List.append_nil,
      List.exists_mem_cons_iff, Value.holds_list_iff, List.not_mem_nil, false_and, exists_false,
      or_false, false_or] at stores
    cases stores
    rfl
  rw [only]
  exact insertFree_letterQuery

theorem evaluated_in_place_letters :
    (∃ fragments,
      Fragment.occurrences fragments =
        [.shown letters, .shown letters, .hidden letters, .shown letters, .shown letters,
          .shown letters] ∧
      Fragment.write fragments [] =
        "SELECT a FROM b WHERE 1 = 0 AND d = (SELECT e) ORDER BY f ASC") ∧
    (∃ fragments,
      Fragment.occurrences fragments =
        [.shown letters, .shown letters, .shown letters, .hidden letters, .shown letters,
          .shown letters] ∧
      Fragment.write fragments [] =
        "SELECT GROUP_CONCAT(a, x, b SEPARATOR ',') AS `l` FROM c WHERE 1 = 0 AND e = (SELECT f)") ∧
    ∃ left, letterSet.run .fresh = .ok .done left ∧ left.trace.worked = [7, 7] := by
  obtain ⟨statements, concats, lists, -, calls⟩ := evaluated_in_place
  refine ⟨?_, ?_, ?_⟩
  · have run : lettered.sqlIn .postgres [] =
        .ok "SELECT a FROM b WHERE 1 = 0 AND d = (SELECT e) ORDER BY f ASC"
          (List.replicate 6 (.evaluated 7)) := rfl
    obtain ⟨fragments, places, planned⟩ := statements .postgres lettered insertFree_lettered
    exact ⟨fragments, places, (planned [] _ _ run).1.symm⟩
  · have run : letteredConcat.sqlIn .mysql [] =
        .ok ("SELECT GROUP_CONCAT(a, x, b SEPARATOR ',') AS `l` FROM c WHERE 1 = 0 AND " ++
          "e = (SELECT f)") (List.replicate 6 (.evaluated 7)) := rfl
    obtain ⟨fragments, places, planned⟩ := concats .mysql letteredConcat
      (lists _ _ (.dialect .mysql)) insertFree_lettered
    exact ⟨fragments, places, (planned [] _ _ run).1.symm⟩
  · obtain ⟨left, run⟩ : ∃ left, letterSet.run .fresh = .ok .done left := ⟨_, rfl⟩
    exact ⟨left, run, calls letterSet .fresh left .done rfl run⟩

end Deferred

end SqlBuilder
