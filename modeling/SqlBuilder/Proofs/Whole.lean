import SqlBuilder.GroupConcat
import SqlBuilder.Proofs.Outcome

/-!
# Calls as a whole

A call looks at the statement, fails or not, and only then writes.  Such a
sequence of looks and writes amounts to one change of the statement, which is
made as a whole or not at all.  That is not so for every sequence: a look that
could still fail behind a write would not be covered by the laws below.  The
changes are what later proofs reason about, and each of them is shown to be
what its call does.
-/

namespace SqlBuilder

namespace Statement

/-- The statement with the names and bindings of values that are about to be stored. -/
def track (s : Statement) (values : List Value) : Except ArgumentFault Statement := do
  let names ← Value.markersOfAll values
  let taken ← Binding.merge s.bindings (Value.nestedInAll values)
  return { s with bindings := s.bindings ++ taken, markers := s.markers ++ names }

/-- The statement with further conditions, each with the others of its key. -/
def addPredicates (s : Statement) (predicates : List Predicate) : Except Error Statement := do
  let s ← (s.track (predicates.map Predicate.value)).mapError Error.argument
  return { s with predicates :=
    predicates.foldl (fun stored p => Keyed.insertGrouped Predicate.key p stored) s.predicates }

/-- The statement with a further joined table. -/
def addJoin (s : Statement) (kind : JoinKind) (table : Expression) : Except Error Statement := do
  Expression.checkAll .join [table]
  return { s with joins := s.joins ++ [⟨kind, table, []⟩] }

/-- The statement with a condition attached to the join at an index. -/
def attach (s : Statement) (index : Nat) (predicate : Predicate) : Except Error Statement := do
  let s ← (s.track [predicate.value]).mapError Error.argument
  return { s with joins := s.joins.modify index fun join =>
    { join with predicates := join.predicates ++ [predicate] } }

/-- The statement with further order columns, each with the others of its direction. -/
def addOrders (s : Statement) (columns : List SortColumn) : Statement :=
  { s with orders :=
    columns.foldl (fun stored c => Keyed.insertGrouped SortColumn.direction c stored) s.orders }

/-- The statement with a further member of the union that it starts. -/
def addMember (s : Statement) (all : Bool) (member : Statement) : Except Error Statement := do
  let taken ← (Binding.merge s.bindings [member]).mapError Error.argument
  return { s with
    bindings := s.bindings ++ taken
    markers := s.markers ++ member.markers
    members := s.members ++ [⟨member, all⟩] }

/-- The statement with a further row. -/
def addRow (s : Statement) (row : List Value) : Except Error Statement := do
  let s ← (s.track row).mapError Error.argument
  return { s with rows := s.rows ++ [row] }

/-- The statement with its last row extended by a value, or replaced by a list. -/
def extendRow (s : Statement) (value : Value) : Except Error Statement :=
  match s.rows.getLast? with
  | none => .error (.argument .noRowToExtend)
  | some last => Except.mapError Error.argument do
    let replaced ← replacedNames last value
    let tracked ← s.track [value]
    let kept := tracked.forget replaced s.markers.length
    return { kept with rows := s.rows.dropLast ++ [extendedRow last value] }

/-- The statement with assignments, each in the place of the old one of its key. -/
def assign (s : Statement) (assignments : List Assignment) : Except Error Statement :=
  Except.mapError Error.argument do
    let replaced ← Value.markersOfAll (s.overwritten assignments)
    let tracked ← s.track (assignments.map Assignment.value)
    let kept := tracked.forget replaced s.markers.length
    return { kept with assignments :=
      assignments.foldl (fun stored a => Keyed.upsert Assignment.key a stored) s.assignments }

/-- The names and the bindings that values bring with them. -/
structure Tracks (s : Statement) (values : List Value) (names : List String)
    (taken : List Binding) : Prop where
  names : Value.markersOfAll values = .ok names
  taken : Binding.merge s.bindings (Value.nestedInAll values) = .ok taken

theorem track_ok {s s' : Statement} {values : List Value} (done : s.track values = .ok s') :
    ∃ names taken, s.Tracks values names taken ∧
      s' = { s with bindings := s.bindings ++ taken, markers := s.markers ++ names } := by
  obtain ⟨names, named, done⟩ := Outcome.except_bind_ok done
  obtain ⟨taken, merged, done⟩ := Outcome.except_bind_ok done
  cases done
  exact ⟨names, taken, ⟨named, merged⟩, rfl⟩

/-! ## Stores one after the other -/

theorem foldl_storePredicate (predicates : List Predicate) (s : Statement) :
    predicates.foldl storePredicate s = { s with
      predicates := predicates.foldl
        (fun stored p => Keyed.insertGrouped Predicate.key p stored) s.predicates } := by
  induction predicates generalizing s with
  | nil =>
      cases s
      rfl
  | cons p ps ih => exact ih (s.storePredicate p)

theorem foldl_storeOrder (columns : List SortColumn) (s : Statement) :
    columns.foldl storeOrder s = s.addOrders columns := by
  induction columns generalizing s with
  | nil =>
      cases s
      rfl
  | cons c cs ih => exact ih (s.storeOrder c)

theorem foldl_storeAssignment (assignments : List Assignment) (s : Statement) :
    assignments.foldl storeAssignment s = { s with
      assignments := assignments.foldl
        (fun stored a => Keyed.upsert Assignment.key a stored) s.assignments } := by
  induction assignments generalizing s with
  | nil =>
      cases s
      rfl
  | cons a as ih => exact ih (s.storeAssignment a)

end Statement

namespace Build

variable {α β : Type}

/-- Look at the statement, and answer or fail by what is found. -/
def look (found : Statement → Except Error α) : Build α := fun session =>
  match found session.statement with
  | .ok answer => .ok answer session
  | .error error => .error error session

/-- Change the statement as a whole, or fail and leave it as it is. -/
def change (f : Statement → Except Error Statement) : Build Unit := fun session =>
  match f session.statement with
  | .ok statement => .ok () { session with statement }
  | .error error => .error error session

/-! ## Looks and writes -/

/-- Where the session is read, it is the one that the call is made on. -/
theorem get_bind (next : Session → Build α) (session : Session) :
    (get >>= next) session = next session session :=
  rfl

section Outcomes

variable {found : Statement → Except Error α} {f : Statement → Except Error Statement}
  {session : Session} {error : Error}

theorem look_of_ok {a : α} (done : found session.statement = .ok a) :
    look found session = .ok a session := by
  unfold look
  rw [done]

theorem look_of_error (failed : found session.statement = .error error) :
    look found session = .error error session := by
  unfold look
  rw [failed]

theorem change_of_ok {s : Statement} (done : f session.statement = .ok s) :
    change f session = .ok () { session with statement := s } := by
  unfold change
  rw [done]

theorem change_of_error (failed : f session.statement = .error error) :
    change f session = .error error session := by
  unfold change
  rw [failed]

theorem look_congr {other : Statement → Except Error α}
    (same : found session.statement = other session.statement) :
    look found session = look other session := by
  unfold look
  rw [same]

theorem change_congr {g : Statement → Except Error Statement}
    (same : f session.statement = g session.statement) : change f session = change g session := by
  unfold change
  rw [same]

end Outcomes

theorem ofExcept_eq_look (checked : Except Error α) :
    (ofExcept checked : Build α) = look fun _ => checked := by
  cases checked <;> rfl

theorem check_eq_look (checked : Except ArgumentFault α) :
    check checked = look fun _ => checked.mapError Error.argument :=
  ofExcept_eq_look _

theorem update_eq_change (f : Statement → Statement) : update f = change fun s => .ok (f s) :=
  rfl

/-- What is looked at first decides what is looked at next. -/
theorem look_look (found : Statement → Except Error α) (next : α → Statement → Except Error β) :
    (look found >>= fun a => look (next a)) = look fun s => found s >>= fun a => next a s := by
  funext session
  cases first : found session.statement with
  | ok a =>
      rw [Outcome.bind_of_ok (look_of_ok first)]
      exact look_congr (by rw [first]; rfl)
  | error error =>
      rw [Outcome.bind_of_error (look_of_error first)]
      exact (look_of_error (by rw [first]; rfl)).symm

/-- A look in front of a change belongs to the change. -/
theorem look_change (found : Statement → Except Error α)
    (f : α → Statement → Except Error Statement) :
    (look found >>= fun a => change (f a)) = change fun s => found s >>= fun a => f a s := by
  funext session
  cases first : found session.statement with
  | ok a =>
      rw [Outcome.bind_of_ok (look_of_ok first)]
      exact change_congr (by rw [first]; rfl)
  | error error =>
      rw [Outcome.bind_of_error (look_of_error first)]
      exact (change_of_error (by rw [first]; rfl)).symm

/-- A look in front of a write makes it a change. -/
theorem look_update (found : Statement → Except Error α) (g : α → Statement → Statement) :
    (look found >>= fun a => update (g a)) = change fun s => found s >>= fun a => .ok (g a s) :=
  look_change found fun a s => .ok (g a s)

/-- A write behind a change belongs to the change, since it cannot fail. -/
theorem change_update (f : Statement → Except Error Statement) (g : Statement → Statement) :
    (change f >>= fun _ => update g) = change fun s => f s >>= fun s => .ok (g s) := by
  funext session
  cases first : f session.statement with
  | ok s =>
      have both : (f session.statement >>= fun s => Except.ok (g s)) = .ok (g s) := by
        rw [first]
        rfl
      rw [Outcome.bind_of_ok (change_of_ok first)]
      symm
      exact change_of_ok both
  | error error =>
      rw [Outcome.bind_of_error (change_of_error first)]
      exact (change_of_error (by rw [first]; rfl)).symm

/-- Writes one after the other are one write. -/
theorem update_update (f g : Statement → Statement) :
    (update f >>= fun _ => update g) = update fun s => g (f s) :=
  rfl

/-- Writes for each item are one write. -/
theorem updateEach_eq (write : Statement → α → Statement) (items : List α) :
    updateEach write items = update fun s => items.foldl write s := by
  induction items with
  | nil => rfl
  | cons item items ih =>
      change (update (write · item) >>= fun _ => updateEach write items) = _
      rw [ih, update_update]
      rfl

/-! ## Recording -/

/-- Merging looks at the bindings of the statement and writes nothing. -/
theorem mergeBindings_eq (pending bindings : List Binding) :
    mergeBindings pending bindings = look fun s =>
      (bindings.foldlM (Binding.takeOver s.bindings) pending).mapError Error.argument := by
  induction bindings generalizing pending with
  | nil => rfl
  | cons binding bindings ih =>
      change (get >>= fun session : Session =>
        check (Binding.takeOver session.statement.bindings pending binding) >>= fun taken =>
          mergeBindings taken bindings) = _
      simp only [ih, check_eq_look, look_look]
      change (look fun s => (Binding.takeOver s.bindings pending binding).mapError Error.argument >>=
        fun taken => (bindings.foldlM (Binding.takeOver s.bindings) taken).mapError Error.argument) = _
      congr 1
      funext s
      rw [List.foldlM_cons]
      cases Binding.takeOver s.bindings pending binding <;> rfl

theorem newBindings_eq (nested : List Statement) :
    newBindings nested = look fun s => (Binding.merge s.bindings nested).mapError Error.argument :=
  mergeBindings_eq [] (nested.flatMap Statement.bindings)

theorem track_eq (values : List Value) :
    track values = change fun s => (s.track values).mapError Error.argument := by
  unfold track
  simp only [check_eq_look, newBindings_eq, update_update, look_update, look_change]
  congr 1
  funext s
  unfold Statement.track
  cases Value.markersOfAll values with
  | error fault => rfl
  | ok names => cases Binding.merge s.bindings (Value.nestedInAll values) <;> rfl

/-! ## The calls -/

theorem claim_eq (kind : StatementKind) : claim kind = change (·.claim kind) := by
  funext session
  unfold claim
  rw [get_bind]
  by_cases undecided : session.statement.kind = .undecided
  · rw [if_pos undecided]
    symm
    exact change_of_ok (if_pos undecided)
  · by_cases same : session.statement.kind = kind
    · rw [if_neg undecided, if_neg (not_not_intro same)]
      symm
      exact change_of_ok ((if_neg undecided).trans (if_pos same))
    · rw [if_neg undecided, if_pos same]
      symm
      exact change_of_error ((if_neg undecided).trans (if_neg same))

theorem extend_eq (place : Place) (items : List Expression)
    (store : Statement → List Expression → Statement) :
    extend place items store = change fun s => do
      Expression.checkAll place items
      return store s items := by
  unfold extend
  rw [ofExcept_eq_look, look_update]
  rfl

theorem raw_eq (sql : String) :
    raw sql = requireHarmless sql >>= fun _ => change fun s => do
      let s ← s.claim .raw
      return { s with rawText := some (Statement.trimRaw sql) } := by
  unfold raw
  simp only [claim_eq, change_update]
  rfl

theorem delete_eq :
    delete = requireWritable .delete >>= fun _ => change fun s => do
      let s ← s.claim .delete
      return { s with deletes := true } := by
  unfold delete
  simp only [claim_eq, change_update]
  rfl

theorem into_eq (target : Expression) :
    into target = change fun s => do
      Expression.checkAll .target [target]
      return { s with target := some target } := by
  unfold into
  rw [ofExcept_eq_look, look_update]
  rfl

theorem union_eq (all : Bool) (member : Statement) :
    union all member = change (·.addMember all member) := by
  unfold union
  simp only [newBindings_eq, update_update, look_update]
  rfl

theorem pushPredicate_eq (predicate : Predicate) :
    pushPredicate predicate = change (·.addPredicates [predicate]) := by
  unfold pushPredicate
  rw [track_eq, change_update]
  rfl

theorem condition_eq (c : Condition) :
    condition c = observe c.resolve >>= fun p => change (·.addPredicates [p]) := by
  unfold condition
  simp only [pushPredicate_eq]

theorem conditions_eq (connective : Connective) (columns : List Column) (operators : List String)
    (values : List Value) :
    conditions connective columns operators values =
      check (Condition.zip connective columns operators values) >>= fun cs =>
        observe (Condition.resolveAll cs) >>= fun ps => change (·.addPredicates ps) := by
  unfold conditions
  simp only [track_eq, updateEach_eq, change_update, Statement.foldl_storePredicate]
  rfl

theorem group_eq (tag : Nat) (connective : Connective) (inner : Statement) :
    group tag connective inner = (do
      unless inner.predicates.isEmpty do
        update fun s => { s with groupCount := s.groupCount + 1 }
        change fun s => s.addPredicates [s.groupPredicate tag connective inner]) := by
  unfold group
  simp only [pushPredicate_eq]
  rfl

theorem on_eq (index : Nat) (c : Condition) :
    on index c = observe c.resolve >>= fun p => change (·.attach index p) := by
  unfold on
  simp only [track_eq, change_update]
  rfl

theorem join_eq (kind : JoinKind) (table : Expression) (ons : List Condition) :
    join kind table ons = (do
      change (·.addJoin kind table)
      let index := (← get).statement.joins.length - 1
      onAll index ons
      return index) := by
  have added : (ofExcept (Expression.checkAll .join [table]) >>= fun _ =>
      update fun s => { s with joins := s.joins ++ [⟨kind, table, []⟩] }) =
        change (·.addJoin kind table) := by
    rw [ofExcept_eq_look, look_update]
    rfl
  rw [← added, Outcome.bind_assoc]
  rfl

theorem orderBy_eq (columns : OrderColumns) (directions : OrderDirections) :
    orderBy columns directions = (do
      let pairs ← check (Ordering.pair columns directions)
      observe (Ordering.resolveAll pairs)
      update (·.addOrders pairs)) := by
  unfold orderBy
  simp only [updateEach_eq, Statement.foldl_storeOrder]

theorem values_eq (row : List Value) : values row = change (·.addRow row) := by
  unfold values
  rw [track_eq, change_update]
  rfl

theorem value_eq (v : Value) : value v = change (·.extendRow v) := by
  funext session
  unfold value
  simp only [check_eq_look, track_eq, update_update, change_update]
  rw [get_bind]
  cases found : session.statement.rows.getLast? with
  | none =>
      symm
      refine change_of_error ?_
      unfold Statement.extendRow
      rw [found]
  | some last =>
      -- the mark is read behind the check, on the same statement
      change (look (fun _ => (Statement.replacedNames last v).mapError Error.argument) >>=
        fun replaced => change fun s => (s.track [v]).mapError Error.argument >>= fun tracked =>
          .ok { tracked.forget replaced s.markers.length with
            rows := tracked.rows.dropLast ++ [Statement.extendedRow last v] }) session = _
      rw [look_change]
      refine change_congr ?_
      unfold Statement.extendRow
      rw [found]
      dsimp only
      cases Statement.replacedNames last v with
      | error fault => rfl
      | ok replaced =>
          cases done : session.statement.track [v] with
          | error fault => rfl
          | ok tracked =>
              obtain ⟨names, taken, -, rfl⟩ := Statement.track_ok done
              rfl

theorem set_eq (pairs : List (Column × Value)) :
    set pairs = observe (Assignment.resolveAll pairs) >>= fun as => change (·.assign as) := by
  unfold set
  simp only [check_eq_look, track_eq, updateEach_eq, update_update, change_update, look_change,
    Statement.foldl_storeAssignment]
  congr 1
  funext as session
  rw [get_bind]
  refine change_congr ?_
  unfold Statement.assign
  cases Value.markersOfAll (session.statement.overwritten as) with
  | error fault => rfl
  | ok replaced =>
      cases done : session.statement.track (as.map Assignment.value) with
      | error fault => rfl
      | ok tracked =>
          obtain ⟨names, taken, -, rfl⟩ := Statement.track_ok done
          rfl

/-! ## Calls that are one change -/

/-- The call amounts to one change of the statement. -/
def IsChange (call : Build Unit) : Prop :=
  ∃ f, call = change f

theorem isChange_update (f : Statement → Statement) : IsChange (update f) :=
  ⟨_, update_eq_change f⟩

theorem isChange_claim (kind : StatementKind) : IsChange (claim kind) :=
  ⟨_, claim_eq kind⟩

theorem isChange_extend (place : Place) (items : List Expression)
    (store : Statement → List Expression → Statement) : IsChange (extend place items store) :=
  ⟨_, extend_eq place items store⟩

theorem isChange_into (target : Expression) : IsChange (into target) :=
  ⟨_, into_eq target⟩

theorem isChange_union (all : Bool) (member : Statement) : IsChange (union all member) :=
  ⟨_, union_eq all member⟩

theorem isChange_values (row : List Value) : IsChange (values row) :=
  ⟨_, values_eq row⟩

theorem isChange_value (field : Value) : IsChange (value field) :=
  ⟨_, value_eq field⟩

end Build

end SqlBuilder
