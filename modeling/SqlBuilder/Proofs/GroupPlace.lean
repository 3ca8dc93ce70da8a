import SqlBuilder.Proofs.Arrangement
import SqlBuilder.Proofs.Storage

/-!
# Where a group of conditions stands

Each group of conditions is stored under a key that is made from its number.
No two groups have the same number, so that a group stands behind all that was
stored before it, unless a column was called like the key of the group.
-/

namespace SqlBuilder

open Factor

/-! ## The count of groups -/

namespace Build

variable {α β : Type}

/-- The call leaves the count of groups as it is. -/
abbrev KeepsCount (call : Build α) : Prop :=
  call.Preserves fun s => s.groupCount

theorem keepsCount_claim_extend {kind : StatementKind} {place : Place} {items : List Expression}
    {store : Statement → List Expression → Statement}
    (step : ∀ s, (store s items).groupCount = s.groupCount) :
    KeepsCount (claim kind >>= fun _ => extend place items store) :=
  preserves_bind (preserves_claim (fun _ _ => rfl) kind) fun _ => preserves_extend step

/-- A call that takes a kind and then writes something else keeps the count. -/
theorem keepsCount_claim_update {kind : StatementKind} {write : Statement → Statement}
    (step : ∀ s, (write s).groupCount = s.groupCount) :
    KeepsCount (claim kind >>= fun _ => update write) :=
  preserves_bind (preserves_claim (fun _ _ => rfl) kind) fun _ => preserves_update step

theorem keepsCount_track (values : List Value) : KeepsCount (track values) :=
  preserves_track (fun _ _ => rfl) (fun _ _ => rfl) values

theorem groupCount_addPredicates {s s' : Statement} {predicates : List Predicate}
    (done : s.addPredicates predicates = .ok s') : s'.groupCount = s.groupCount := by
  obtain ⟨names, taken, -, rfl⟩ := Statement.addPredicates_ok done
  rfl

theorem keepsCount_condition (c : Condition) : KeepsCount (condition c) :=
  preserves_bind (preserves_of_reads (reads_observe _)) fun _ =>
    preserves_bind (keepsCount_track _) fun _ => preserves_update fun _ => rfl

theorem keepsCount_conditions (connective : Connective) (columns : List Column)
    (operators : List String) (operands : List Value) :
    KeepsCount (conditions connective columns operators operands) :=
  preserves_bind (preserves_of_reads (reads_check _)) fun _ =>
    preserves_bind (preserves_of_reads (reads_observe _)) fun _ =>
      preserves_bind (keepsCount_track _) fun _ =>
        preserves_updateEach (fun s p => (rfl : (s.storePredicate p).groupCount = s.groupCount)) _

theorem keepsCount_on (index : Nat) (c : Condition) : KeepsCount (on index c) :=
  preserves_bind (preserves_of_reads (reads_observe _)) fun _ =>
    preserves_bind (keepsCount_track _) fun _ => preserves_update fun _ => rfl

theorem keepsCount_onAll (index : Nat) (ons : List Condition) : KeepsCount (onAll index ons) := by
  induction ons with
  | nil => exact preserves_pure ()
  | cons c cs ih => exact preserves_bind (keepsCount_on index c) fun _ => ih

theorem keepsCount_join (kind : JoinKind) (table : Expression) (ons : List Condition) :
    KeepsCount (join kind table ons) := by
  refine preserves_bind (preserves_of_reads (reads_ofExcept _)) fun _ => ?_
  refine preserves_bind (preserves_update fun _ => rfl) fun _ => ?_
  exact preserves_bind (preserves_of_reads reads_get) fun session =>
    preserves_bind (keepsCount_onAll _ ons) fun _ => preserves_pure _

theorem keepsCount_orderBy (columns : OrderColumns) (directions : OrderDirections) :
    KeepsCount (orderBy columns directions) :=
  preserves_bind (preserves_of_reads (reads_check _)) fun _ =>
    preserves_bind (preserves_of_reads (reads_observe _)) fun _ =>
      preserves_updateEach (fun s c => (rfl : (s.storeOrder c).groupCount = s.groupCount)) _

theorem keepsCount_values (row : List Value) : KeepsCount (values row) :=
  preserves_bind (keepsCount_track row) fun _ => preserves_update fun _ => rfl

theorem keepsCount_value (field : Value) : KeepsCount (value field) := by
  refine preserves_bind (preserves_of_reads reads_get) fun session => ?_
  split
  · exact preserves_of_reads (reads_throw _)
  · refine preserves_bind (preserves_of_reads (reads_check _)) fun replaced => ?_
    refine preserves_bind (preserves_of_reads reads_get) fun marked => ?_
    refine preserves_bind (keepsCount_track [field]) fun _ => ?_
    exact preserves_bind (preserves_update fun _ => rfl) fun _ => preserves_update fun _ => rfl

theorem keepsCount_set (pairs : List (Column × Value)) : KeepsCount (set pairs) := by
  refine preserves_bind (preserves_of_reads (reads_observe _)) fun assignments => ?_
  refine preserves_bind (preserves_of_reads reads_get) fun session => ?_
  refine preserves_bind (preserves_of_reads (reads_check _)) fun replaced => ?_
  refine preserves_bind (keepsCount_track _) fun _ => ?_
  exact preserves_bind (preserves_update fun _ => rfl) fun _ =>
    preserves_updateEach
      (fun s a => (rfl : (s.storeAssignment a).groupCount = s.groupCount)) _

theorem keepsCount_union (all : Bool) (member : Statement) : KeepsCount (union all member) :=
  preserves_bind (preserves_of_reads (reads_newBindings _)) fun _ =>
    preserves_bind (preserves_update fun _ => rfl) fun _ =>
      preserves_bind (preserves_update fun _ => rfl) fun _ => preserves_update fun _ => rfl

theorem keepsCount_unions (members : List Statement) : KeepsCount (unions members) := by
  induction members with
  | nil => exact preserves_pure ()
  | cons member others ih => exact preserves_bind (keepsCount_union false member) fun _ => ih

end Build

open Build in
/-- Only a group is counted. -/
theorem Call.keepsCount_run {c : Call} (plain : c.isGroup = false) : c.run.KeepsCount := by
  cases c with
  | group tag connective tolerant body => cases plain
  | select items | random items => exact .done (keepsCount_claim_extend fun _ => rfl)
  | insert items | update items =>
      exact .done (preserves_bind (preserves_of_reads (reads_requireWritable _)) fun _ =>
        keepsCount_claim_extend fun _ => rfl)
  | tables items | groupBy items => exact .done (preserves_extend fun _ => rfl)
  | distinct | limit n | offset n | lock | bind bindings =>
      exact .done (preserves_update fun _ => rfl)
  | raw sql =>
      exact .done (preserves_bind (preserves_of_reads (reads_requireHarmless sql)) fun _ =>
        keepsCount_claim_update fun _ => rfl)
  | delete =>
      exact .done (preserves_bind (preserves_of_reads (reads_requireWritable _)) fun _ =>
        keepsCount_claim_update fun _ => rfl)
  | into target =>
      exact .done (preserves_bind (preserves_of_reads (reads_ofExcept _)) fun _ =>
        preserves_update fun _ => rfl)
  | union all member => exact .done (keepsCount_union all member)
  | unions members => exact .done (keepsCount_unions members)
  | condition c => exact .done (keepsCount_condition c)
  | conditions connective columns operators operands =>
      exact .done (keepsCount_conditions connective columns operators operands)
  | orderBy columns directions => exact .done (keepsCount_orderBy columns directions)
  | join kind table ons =>
      exact preserves_bind (keepsCount_join kind table ons) fun _ => preserves_pure _
  | values row => exact .done (keepsCount_values row)
  | value field => exact .done (keepsCount_value field)
  | set pairs => exact .done (keepsCount_set pairs)

/-! ## The keys of groups -/

namespace Call

/-- The key of the group with a number. -/
def groupKey (number : Nat) : String :=
  "#group" ++ toString number

/-- Groups of different numbers have different keys. -/
theorem groupKey_injective : Function.Injective groupKey := by
  intro first second same
  have digits : Nat.toDigits 10 first = Nat.toDigits 10 second := by
    simpa [groupKey, Nat.toString_eq_ofList_toDigits, String.ext_iff] using same
  calc first = Nat.ofDigitChars 10 (Nat.toDigits 10 first) 0 :=
        Nat.ofDigitChars_ten_toDigits.symm
    _ = Nat.ofDigitChars 10 (Nat.toDigits 10 second) 0 := by rw [digits]
    _ = second := Nat.ofDigitChars_ten_toDigits

/-- The conditions on columns that a call contributes to the log; a group contributes none. -/
def loggedByColumns (c : Call) (session : Session) : List Predicate :=
  if c.isGroup then [] else c.loggedConditions session

end Call

/-- The keys of the conditions of a statement. -/
def Statement.storedKeys (s : Statement) : List String :=
  s.predicates.map Predicate.key

theorem Statement.mem_storedKeys_storing {s s' : Statement} {added : List Predicate}
    (stored : s'.predicates = s.storing added) {key : String} :
    key ∈ s'.storedKeys ↔ key ∈ s.storedKeys ∨ key ∈ added.map Predicate.key := by
  have perm := (Keyed.perm_foldl_insertGrouped Predicate.key added s.predicates).map Predicate.key
  unfold storedKeys
  rw [stored, storing, perm.mem_iff, List.map_append, List.mem_append]

namespace Build

variable {tag : Nat} {connective : Connective} {body : Build Unit} {session left : Session}

/-- A group that is not empty is counted, and stored under the key of its number. -/
theorem group_filled_ok {inner : Statement} (filled : inner.predicates ≠ [])
    (run : group tag connective inner session = .ok () left) :
    { session.statement with groupCount := session.statement.groupCount + 1 }.addPredicates
      [Call.groupCondition (session.statement.groupCount + 1) tag connective inner] =
        .ok left.statement := by
  rw [group_eq, if_neg (by simpa using filled)] at run
  obtain ⟨_, counted, count, run⟩ := Outcome.bind_ok run
  obtain rfl := update_ok count
  exact (change_ok run).1

/-- A group that is added was built apart, and an empty one leaves the statement as it is. -/
theorem groupOf_ok (run : groupOf tag connective body session = .ok () left) :
    ∃ built : Session,
      body { statement := session.statement.config.selection, trace := session.trace } =
        .ok () built ∧
      (built.statement.predicates = [] → left.statement = session.statement) ∧
      (built.statement.predicates ≠ [] →
        { session.statement with groupCount := session.statement.groupCount + 1 }.addPredicates
          [Call.groupCondition (session.statement.groupCount + 1) tag connective
            built.statement] = .ok left.statement) := by
  have went : groupOf tag connective body session =
      (apart session.statement.config.selection body >>= group tag connective) session := rfl
  rw [went] at run
  obtain ⟨inner, between, apart_ok, added⟩ := Outcome.bind_ok run
  unfold apart at apart_ok
  split at apart_ok
  · next built done =>
      cases apart_ok
      refine ⟨built, done, fun empty => ?_, fun filled => ?_⟩
      · unfold group at added
        rw [if_pos (by simpa using empty)] at added
        obtain ⟨-, rfl⟩ := Outcome.pure_ok added
        rfl
      · have counted := group_filled_ok filled added
        exact counted
  · cases apart_ok

end Build

/-! ## Which keys are free -/

namespace Call

/--
Of the keys of groups that are still to be counted, those are taken that a
condition on a column has.
-/
def TakenByColumns (made : List Predicate) (s : Statement) : Prop :=
  ∀ number > s.groupCount,
    groupKey number ∈ s.storedKeys ↔ groupKey number ∈ made.map Predicate.key

/-- A group takes the key of its own number, which is counted from then on. -/
theorem TakenByColumns.run_group {made : List Predicate} {session : Session}
    (taken : TakenByColumns made session.statement) (tag : Nat) (connective : Connective)
    (body : Build Unit) :
    TakenByColumns made ((Build.groupOf tag connective body).after session).statement := by
  cases run : Build.groupOf tag connective body session with
  | error error left =>
      rw [Build.after_of_error run]
      rcases Build.groupOf_failed run with same | counted
      · rwa [same]
      · rw [counted]
        exact fun number later => taken number (Nat.lt_of_succ_lt later)
  | ok answer left =>
      rw [Build.after_of_ok run]
      obtain ⟨built, -, empty, filled⟩ := Build.groupOf_ok run
      by_cases none : built.statement.predicates = []
      · rwa [empty none]
      · have added := filled none
        have stored := Statement.predicates_addPredicates added
        have count := Build.groupCount_addPredicates added
        intro number later
        rw [count] at later
        have differs : groupKey number ≠ groupKey (session.statement.groupCount + 1) :=
          fun same => Nat.ne_of_gt later (groupKey_injective same)
        rw [Statement.mem_storedKeys_storing stored, ← taken number (Nat.lt_of_succ_lt later)]
        simp only [List.map_cons, List.map_nil, List.mem_singleton]
        exact or_iff_left differs

/-- A call takes no key of a later group but for the conditions on columns that it makes. -/
theorem TakenByColumns.run {made : List Predicate} {session : Session}
    (taken : TakenByColumns made session.statement) (c : Call) :
    TakenByColumns (made ++ c.loggedByColumns session) (c.run.after session).statement := by
  cases plain : c.isGroup with
  | true =>
      cases c with
      | group tag connective tolerant body =>
          have ran : (Call.run (.group tag connective tolerant body)).after session =
              (Build.groupOf tag connective (runAll tolerant body)).after session :=
            Build.after_bind_pure _ (fun _ => Answer.done) session
          rw [ran]
          simpa [loggedByColumns, isGroup] using taken.run_group tag connective _
      | _ => cases plain
  | false =>
      have count : (c.run.after session).statement.groupCount = session.statement.groupCount :=
        keepsCount_run plain session
      intro number later
      rw [count] at later
      rw [Statement.mem_storedKeys_storing (predicates_run c session), taken number later]
      simp [loggedByColumns, plain]

/-- After any calls on a statement without conditions, columns alone take keys of later groups. -/
theorem takenByColumns_runAll {tolerant : Bool} {cs : List Call} {start : Session}
    (bare : start.statement.predicates = []) :
    TakenByColumns (log loggedByColumns tolerant cs start)
      ((runAll tolerant cs).after start).statement := by
  refine holds_log (P := TakenByColumns) ?_ tolerant cs start [] ?_
  · intro c session made taken
    exact taken.run c
  · intro number _
    simp [Statement.storedKeys, bare]

end Call

/-! ## Groups behind everything else -/

namespace Scope

variable (scope : Scope)

theorem conditionTexts_append (front back : List Predicate) :
    scope.conditionTexts (front ++ back) = do
      let first ← scope.conditionTexts front
      let second ← scope.conditionTexts back
      return first ++ second := by
  induction front with
  | nil => simp [conditionTexts]
  | cons p ps ih => simp [conditionTexts, ih]

theorem whereText_cons_append (first : Connective × String) (others : List (Connective × String))
    (connective : Connective) (text : String) :
    whereText (first :: (others ++ [(connective, text)])) =
      whereText (first :: others) ++ (" " ++ connective.sql ++ " ") ++ text := by
  simp [whereText, connected, String.append_assoc]

/-- A group is written as its conditions in parentheses. -/
theorem predicate_group (number tag : Nat) (connective : Connective) (inner : Statement) :
    scope.predicate (Call.groupCondition number tag connective inner) = do
      return "(" ++ (← scope.conditions inner.predicates) ++ ")" := by
  cases inner
  rfl

/-- A condition that comes last is written behind everything else. -/
theorem wheres_append_singleton {s s' : Statement} {p : Predicate}
    (stored : s'.predicates = s.predicates ++ [p]) :
    scope.wheres s' = do
      let front ← scope.wheres s
      let text ← scope.predicate p
      return front ++
        (if s.predicates.isEmpty then " WHERE " else " " ++ p.connective.sql ++ " ") ++ text := by
  rw [wheres_eq, wheres_eq, stored, conditionTexts_append]
  cases s.predicates with
  | nil => simp [conditionTexts, whereText, connected]
  | cons first others => simp [conditionTexts, whereText_cons_append]

end Scope

/--
The group is the only condition under its key and stands behind everything
that was stored before: in the statement, and in the `WHERE` that is written.
-/
structure Statement.StandsApart (s s' : Statement) (p : Predicate) (inner : Statement) :
    Prop where
  last : s'.predicateGroups = s.predicateGroups ++ [(p.key, [p])]
  written : ∀ scope : Scope, scope.wheres s' = do
    let front ← scope.wheres s
    let conditions ← scope.conditions inner.predicates
    return front ++
      (if s.predicates.isEmpty then " WHERE " else " " ++ p.connective.sql ++ " ") ++
      ("(" ++ conditions ++ ")")
  /-- Statements that select, update or delete write that `WHERE`. -/
  rendered : ∀ g, s'.kind ∈ [.select, .random, .update, .delete] →
    Scope.Writes ((s'.scope g).wheres s') (s'.sqlIn g)

namespace Statement

variable {s s' : Statement}

/-- An arranged statement with one more condition: under the key that it has already, or last. -/
theorem Arranged.predicateGroups_storing (arranged : s.Arranged) {p : Predicate}
    (stored : s'.predicates = s.storing [p]) :
    s'.predicateGroups =
      if p.key ∈ s.storedKeys then
        s.predicateGroups.map fun (key, members) =>
          (key, if p.key = key then members ++ [p] else members)
      else s.predicateGroups ++ [(p.key, [p])] := by
  have groups : s'.predicateGroups = Keyed.grouping Predicate.key (s.predicates ++ [p]) := by
    unfold predicateGroups
    rw [stored]
    exact Keyed.groups_foldl_insertGrouped [p] arranged.conditions
  rw [groups, Keyed.grouping_append_singleton, ← arranged.conditions]
  rfl

/-- A group stands apart if and only if no condition has its key. -/
theorem Arranged.standsApart_iff (arranged : s.Arranged) {number tag : Nat}
    {connective : Connective} {inner : Statement}
    (stored : s'.predicates =
      s.storing [Call.groupCondition number tag connective inner]) :
    StandsApart s s' (Call.groupCondition number tag connective inner) inner ↔
      (Call.groupCondition number tag connective inner).key ∉ s.storedKeys := by
  have groups := arranged.predicateGroups_storing stored
  constructor
  · intro apart seen
    -- under a key that is there already no group is added
    rw [if_pos seen, apart.last] at groups
    have lengths := congrArg List.length groups
    simp at lengths
  · intro isNew
    rw [if_neg isNew] at groups
    refine ⟨groups, fun scope => ?_, fun g kind => Scope.writes_wheres kind .refl⟩
    have last : s'.predicates =
        s.predicates ++ [Call.groupCondition number tag connective inner] := by
      rw [stored]
      refine Keyed.insertGrouped_new fun other mem same => isNew ?_
      exact List.mem_map.mpr ⟨other, mem, same⟩
    rw [scope.wheres_append_singleton last, scope.predicate_group]
    simp

end Statement

namespace Call

/--
A group that is not empty stands apart if and only if no condition has its key
yet, and only a condition on a column called like the key can have it: earlier
groups, empty and failed ones too, never do.  If the key is taken, the group
goes behind the conditions that have it.
-/
theorem group_stands_apart_iff {tag : Nat} {connective : Connective} {body : Build Unit}
    {session left : Session} (reach : session.statement.Reachable)
    (run : Build.groupOf tag connective body session = .ok () left) :
    ∃ built : Session,
      body { statement := session.statement.config.selection, trace := session.trace } =
        .ok () built ∧
      (built.statement.predicates ≠ [] → ∃ p,
        p = groupCondition (session.statement.groupCount + 1) tag connective built.statement ∧
        (Statement.StandsApart session.statement left.statement p built.statement ↔
          p.key ∉ session.statement.storedKeys) ∧
        (p.key ∈ session.statement.storedKeys →
          left.statement.predicateGroups =
            session.statement.predicateGroups.map fun (key, members) =>
              (key, if p.key = key then members ++ [p] else members)) ∧
        ∀ (tolerant : Bool) (cs : List Call) (start : Session),
          start.statement.predicates = [] → (runAll tolerant cs).after start = session →
          (p.key ∈ session.statement.storedKeys ↔
            p.key ∈ (log loggedByColumns tolerant cs start).map Predicate.key)) := by
  obtain ⟨built, done, -, filled⟩ := Build.groupOf_ok run
  refine ⟨built, done, fun isFilled => ⟨_, rfl, ?_⟩⟩
  have stored := Statement.predicates_addPredicates (filled isFilled)
  have arranged : session.statement.Arranged := reach.arranged
  refine ⟨arranged.standsApart_iff stored, fun taken => ?_, ?_⟩
  · rw [arranged.predicateGroups_storing stored, if_pos taken]
  · rintro tolerant cs start bare rfl
    exact takenByColumns_runAll bare _ (Nat.lt_succ_self _)

/-- A condition that a column is equal to a number. -/
def equals (column : String) (n : Int64) (connective : Connective) : Predicate :=
  ⟨column, .name column, some .equal, .int n, connective⟩

/-- A call that adds such a condition. -/
def whereEquals (column : String) (n : Int64) (connective : Connective) : Call :=
  .condition ⟨.name column, some "=", .int n, connective⟩

/-- A statement for SQL Server that selects rows of a table. -/
def filtered (predicates : List Predicate) : Statement :=
  { ({ grammar := .sqlServer } : Config).selection with
    columns := [.text "id"]
    tables := [.text "t"]
    predicates }

theorem reachable_filtered : (filtered []).Reachable := by
  have start : ({ statement := ({ grammar := .sqlServer } : Config).selection } :
      Session).statement.Reachable := .selection _
  have selects := Statement.ReachableBy.call (.select [.text "id"]) start rfl trivial
    (fun _ mem => nomatch mem) fun _ mem => nomatch mem
  exact .call (.tables [.text "t"]) selects rfl trivial
    (fun _ mem => nomatch mem) fun _ mem => nomatch mem

theorem reachable_filtered_of_run {predicates predicates' : List Predicate} (column : String)
    (n : Int64) (connective : Connective) (reach : (filtered predicates).Reachable)
    (run : (whereEquals column n connective).run { statement := filtered predicates } =
      .ok .done { statement := filtered predicates' }) : (filtered predicates').Reachable := by
  have called : (((whereEquals column n connective).run.after
      { statement := filtered predicates }).statement).Reachable := by
    refine .call _ reach rfl trivial (fun value mem inner holds => ?_) fun _ mem => nomatch mem
    rw [List.mem_singleton.mp mem] at holds
    cases holds
  rwa [Build.after_of_ok run] at called

/-- The statement after its first group. -/
def withGroup (predicates : List Predicate) : Statement :=
  { filtered predicates with groupCount := 1 }

/-- The body of a group with one condition. -/
def oneCondition : Build Unit :=
  runAll false [whereEquals "b" 3 .and]

/-- What the body builds. -/
def oneConditionBuilt : Statement :=
  { ({ grammar := .sqlServer } : Config).selection with predicates := [equals "b" 3 .and] }

/-- The group as a condition. -/
def oneConditionGroup : Predicate :=
  groupCondition 1 0 .and oneConditionBuilt

theorem group_stands_apart_behind_one :
    Statement.StandsApart (filtered [equals "a" 2 .and])
      (withGroup [equals "a" 2 .and, oneConditionGroup]) oneConditionGroup oneConditionBuilt := by
  have reach : (filtered [equals "a" 2 .and]).Reachable :=
    reachable_filtered_of_run "a" 2 .and reachable_filtered rfl
  have run : Build.groupOf 0 .and oneCondition { statement := filtered [equals "a" 2 .and] } =
      .ok () { statement := withGroup [equals "a" 2 .and, oneConditionGroup] } := rfl
  obtain ⟨built, done, apart⟩ := group_stands_apart_iff reach run
  have known : oneCondition { statement := ({ grammar := .sqlServer } : Config).selection } =
      .ok () { statement := oneConditionBuilt } := rfl
  cases done.symm.trans known
  obtain ⟨p, rfl, iff, -⟩ := apart (List.cons_ne_nil _ _)
  exact iff.mpr (by decide)

/-- With a column called like its key a group comes before a condition that was stored earlier. -/
theorem group_joins_a_column :
    (filtered [equals "#group1" 1 .and, equals "a" 2 .or]).Reachable ∧
      Build.groupOf 0 .and oneCondition
          { statement := filtered [equals "#group1" 1 .and, equals "a" 2 .or] } =
        .ok () { statement :=
          withGroup [equals "#group1" 1 .and, oneConditionGroup, equals "a" 2 .or] } ∧
      (∀ p, (withGroup [equals "#group1" 1 .and, oneConditionGroup,
          equals "a" 2 .or]).predicateGroups ≠
        (filtered [equals "#group1" 1 .and, equals "a" 2 .or]).predicateGroups ++
          [(p.key, [p])]) ∧
      Yields (withGroup [equals "#group1" 1 .and, oneConditionGroup, equals "a" 2 .or]).sql
        "SELECT [id] FROM [t] WHERE #group1 = 1 AND ([b] = 3) OR [a] = 2" := by
  refine ⟨?_, rfl, fun p same => ?_, ⟨[], [], rfl⟩⟩
  · have first : (filtered [equals "#group1" 1 .and]).Reachable :=
      reachable_filtered_of_run "#group1" 1 .and reachable_filtered rfl
    exact reachable_filtered_of_run "a" 2 .or first rfl
  · have lengths : 2 = 3 := congrArg List.length same
    cases lengths

end Call

end SqlBuilder
