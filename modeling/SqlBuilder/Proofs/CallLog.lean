import SqlBuilder.Proofs.Areas
import SqlBuilder.Proofs.Arrangement

/-!
# The log of a run

The log of a run lists what its calls contribute, call by call: the conditions
that successful calls make, and the joins with the conditions attached through
their handles.  It is worked out from the calls alone; how a statement stores
conditions and joins does not enter it.  What a run stores is then told from
its log.
-/

namespace SqlBuilder

namespace Build

/-- What a call answers, if it does not fail. -/
def answer? {α : Type} (call : Build α) (session : Session) : Option α :=
  match call session with
  | .ok answer _ => some answer
  | .error _ _ => none

theorem answer?_of_ok {α : Type} {call : Build α} {session left : Session} {answer : α}
    (run : call session = .ok answer left) : call.answer? session = some answer := by
  unfold answer?
  rw [run]

/-- The conditions attached at an index one after the other, up to the first that is refused. -/
def attached (index : Nat) : List Condition → Session → List Predicate
  | [], _ => []
  | c :: cs, session =>
    match on index c session with
    | .ok _ left => ((observe c.resolve).answer? session).toList ++ attached index cs left
    | .error _ _ => []

end Build

namespace Call

/-- The condition that stands for a group, under the key of its number. -/
def groupCondition (number tag : Nat) (connective : Connective) (inner : Statement) :
    Predicate where
  key := "#group" ++ toString number
  column := .name ("#group" ++ toString number)
  operator := none
  value := .group tag inner
  connective := connective

/-- The conditions that a call is to store, in the order in which it is given them. -/
def conditionsMade : Call → Build (List Predicate)
  | .condition c => do
    return [← Build.observe c.resolve]
  | .conditions connective columns operators operands => do
    let cs ← ofExcept
      ((Condition.zip connective columns operators operands).mapError Error.argument)
    Build.observe (Condition.resolveAll cs)
  | .group tag connective tolerant body => do
    let s := (← get).statement
    let inner ← Build.apart s.config.selection (runAll tolerant body)
    if inner.predicates.isEmpty then return []
    else return [groupCondition (s.groupCount + 1) tag connective inner]
  | _ => return []

/-- The conditions that a call contributes to the log; a failing call contributes none. -/
def loggedConditions (c : Call) (session : Session) : List Predicate :=
  match c.run session with
  | .ok _ _ => (c.conditionsMade.answer? session).getD []
  | .error _ _ => []

/-- The join that a call contributes to the log, if its table is accepted. -/
def loggedJoins (c : Call) (session : Session) : List Join :=
  match c with
  | .join kind table ons =>
    match Build.join kind table [] session with
    | .ok index left => [⟨kind, table, Build.attached index ons left⟩]
    | .error _ _ => []
  | _ => []

/--
What the calls of a run contribute, in call order.  A tolerant run goes on
after a failure, any other run ends there.
-/
def log {α : Type} (entries : Call → Session → List α) (tolerant : Bool) :
    List Call → Session → List α
  | [], _ => []
  | c :: cs, session =>
    entries c session ++
      match Build.step tolerant c.run session with
      | .ok _ left => log entries tolerant cs left
      | .error _ _ => []

/-- What each call keeps while it contributes to the log, a run of calls keeps. -/
theorem holds_log {α : Type} {entries : Call → Session → List α}
    {P : List α → Statement → Prop}
    (step : ∀ (c : Call) (session : Session) (made : List α), P made session.statement →
      P (made ++ entries c session) (c.run.after session).statement)
    (tolerant : Bool) (cs : List Call) (session : Session) (made : List α)
    (start : P made session.statement) :
    P (made ++ log entries tolerant cs session)
      ((runAll tolerant cs).after session).statement := by
  induction cs generalizing session made with
  | nil =>
      rw [log, List.append_nil]
      exact start
  | cons c cs ih =>
      have first := step c session made start
      rw [← Build.after_step tolerant c.run session] at first
      rw [runAll_cons, log]
      cases run : Build.step tolerant c.run session with
      | ok answer left =>
          rw [Build.after_of_ok run] at first
          have rest := ih left _ first
          rw [List.append_assoc] at rest
          unfold Build.after
          rw [Outcome.bind_of_ok run]
          exact rest
      | error error left =>
          rw [Build.after_of_error run] at first
          rw [Build.after_of_error (Outcome.bind_of_error run), List.append_nil]
          exact first

end Call

/-! ## Conditions -/

namespace Statement

/-- The conditions of a statement after more of them are stored. -/
def storing (s : Statement) (predicates : List Predicate) : List Predicate :=
  predicates.foldl (fun stored p => Keyed.insertGrouped Predicate.key p stored) s.predicates

theorem predicates_addPredicates {s s' : Statement} {predicates : List Predicate}
    (done : s.addPredicates predicates = .ok s') : s'.predicates = s.storing predicates := by
  obtain ⟨names, taken, -, rfl⟩ := addPredicates_ok done
  rfl

end Statement

namespace Call

variable {session left : Session}

/-- A condition that is accepted is stored. -/
theorem condition_ok {c : Condition} (run : Build.condition c session = .ok () left) :
    ∃ made, (conditionsMade (.condition c)).answer? session = some made ∧
      left.statement.predicates = session.statement.storing made := by
  have reads := Build.reads_observe c.resolve session
  rw [Build.condition_eq] at run
  obtain ⟨p, between, resolved, run⟩ := Outcome.bind_ok run
  rw [Build.after_of_ok resolved] at reads
  refine ⟨[p], Build.answer?_of_ok (Outcome.bind_of_ok resolved), ?_⟩
  rw [Statement.predicates_addPredicates (Build.change_ok run).1, reads]

/-- Conditions that are accepted as a whole are stored in the order of their list. -/
theorem conditions_ok {connective : Connective} {columns : List Column}
    {operators : List String} {operands : List Value}
    (run : Build.conditions connective columns operators operands session = .ok () left) :
    ∃ made, (conditionsMade (.conditions connective columns operators operands)).answer? session =
        some made ∧
      left.statement.predicates = session.statement.storing made := by
  rw [Build.conditions_eq] at run
  cases zipped : Condition.zip connective columns operators operands with
  | error fault =>
      rw [zipped] at run
      cases run
  | ok cs =>
      rw [zipped] at run
      have reads := Build.reads_observe (Condition.resolveAll cs) session
      change (Build.observe (Condition.resolveAll cs) >>= _) _ = _ at run
      obtain ⟨ps, between, resolved, run⟩ := Outcome.bind_ok run
      rw [Build.after_of_ok resolved] at reads
      have made : conditionsMade (.conditions connective columns operators operands) session =
          .ok ps between := by
        rw [conditionsMade, zipped]
        exact resolved
      refine ⟨ps, Build.answer?_of_ok made, ?_⟩
      rw [Statement.predicates_addPredicates (Build.change_ok run).1, reads]

/-- A group that is built is stored as one condition under a key of its own, unless it is empty. -/
theorem group_ok {tag : Nat} {connective : Connective} {tolerant : Bool} {body : List Call}
    (run : Build.groupOf tag connective (runAll tolerant body) session = .ok () left) :
    ∃ made, (conditionsMade (.group tag connective tolerant body)).answer? session = some made ∧
      left.statement.predicates = session.statement.storing made := by
  have reads := Build.reads_apart session.statement.config.selection (runAll tolerant body) session
  change (Build.apart session.statement.config.selection (runAll tolerant body) >>=
    Build.group tag connective) session = _ at run
  obtain ⟨inner, between, built, run⟩ := Outcome.bind_ok run
  rw [Build.after_of_ok built] at reads
  have made : conditionsMade (.group tag connective tolerant body) session = .ok
      (if inner.predicates.isEmpty then []
        else [groupCondition (session.statement.groupCount + 1) tag connective inner]) between := by
    refine (Outcome.bind_of_ok built).trans ?_
    split <;> rfl
  refine ⟨_, Build.answer?_of_ok made, ?_⟩
  rw [Build.group_eq] at run
  split at run
  · next empty =>
      obtain ⟨-, rfl⟩ := Outcome.pure_ok run
      rw [if_pos empty, reads]
      rfl
  · next filled =>
      obtain ⟨_, counted, count, run⟩ := Outcome.bind_ok run
      obtain rfl := Build.update_ok count
      rw [Statement.predicates_addPredicates (Build.change_ok run).1, reads, if_neg filled]
      rfl

/-- A call that succeeds stores the conditions that it makes. -/
theorem conditionsMade_ok {c : Call} {answer : Answer} (run : c.run session = .ok answer left) :
    ∃ made, c.conditionsMade.answer? session = some made ∧
      left.statement.predicates = session.statement.storing made := by
  have others (outside : c.area? ≠ some .conditions) :
      left.statement.predicates = session.statement.predicates := by
    have keeps := keeps_run outside session
    rw [Build.after_of_ok run] at keeps
    exact keeps
  cases c with
  | condition c => exact condition_ok (Build.done_ok_iff.mp run).2
  | conditions connective columns operators operands =>
      exact conditions_ok (Build.done_ok_iff.mp run).2
  | group tag connective tolerant body => exact group_ok (Build.done_ok_iff.mp run).2
  | _ => exact ⟨[], rfl, others nofun⟩

/-- A call that fails stores no condition. -/
theorem predicates_of_failed {c : Call} {error : Error} (run : c.run session = .error error left) :
    left.statement.predicates = session.statement.predicates := by
  have others (outside : c.area? ≠ some .conditions) :
      left.statement.predicates = session.statement.predicates := by
    have keeps := keeps_run outside session
    rw [Build.after_of_error run] at keeps
    exact keeps
  cases c with
  | condition c => rw [atomic_run rfl session error left run]
  | conditions connective columns operators operands =>
      rw [atomic_run rfl session error left run]
  | group tag connective tolerant body =>
      rcases Outcome.bind_error run with failed | ⟨_, between, -, run⟩
      · rcases Build.groupOf_failed failed with same | counted
        · rw [same]
        · rw [counted]
      · cases run
  | _ => exact others nofun

/-- A call stores what it contributes to the log. -/
theorem predicates_run (c : Call) (session : Session) :
    (c.run.after session).statement.predicates =
      session.statement.storing (c.loggedConditions session) := by
  unfold loggedConditions
  cases run : c.run session with
  | ok answer left =>
      obtain ⟨made, answered, stored⟩ := conditionsMade_ok run
      rw [Build.after_of_ok run, answered]
      exact stored
  | error error left =>
      rw [Build.after_of_error run]
      exact predicates_of_failed run

/-- A call pushes what it contributes to the log on the map of conditions. -/
theorem predicateGroups_run (c : Call) {session : Session}
    (arranged : session.statement.Arranged) :
    (c.run.after session).statement.predicateGroups =
      Keyed.pushAll Predicate.key (c.loggedConditions session)
        session.statement.predicateGroups := by
  have stored := Keyed.groups_eq_pushAll (c.loggedConditions session) arranged.conditions
  unfold Statement.predicateGroups at stored ⊢
  rw [predicates_run]
  exact stored

/-- Whatever calls are made, the stored groups are those of the log. -/
theorem groups_runAll (tolerant : Bool) (cs : List Call) (session : Session)
    (earlier : List Predicate)
    (start : session.statement.predicateGroups = Keyed.grouping Predicate.key earlier) :
    ((runAll tolerant cs).after session).statement.predicateGroups =
      Keyed.grouping Predicate.key (earlier ++ log loggedConditions tolerant cs session) := by
  refine holds_log (P := fun made s => s.predicateGroups = Keyed.grouping Predicate.key made)
    ?_ tolerant cs session earlier start
  intro c session made same
  unfold Statement.predicateGroups at same ⊢
  rw [predicates_run]
  exact Keyed.groups_foldl_insertGrouped _ same

end Call

/-! ## Joins -/

namespace Join

/-- The join with further conditions behind its own. -/
def attaching (join : Join) (predicates : List Predicate) : Join :=
  { join with predicates := join.predicates ++ predicates }

theorem attaching_nil (join : Join) : join.attaching [] = join := by
  cases join
  simp [attaching]

theorem attaching_append (join : Join) (first second : List Predicate) :
    (join.attaching first).attaching second = join.attaching (first ++ second) := by
  simp [attaching]

end Join

namespace Build

/-- A condition that is accepted by a join is attached to it. -/
theorem on_ok {index : Nat} {c : Condition} {session left : Session}
    (run : on index c session = .ok () left) :
    ∃ p, (observe c.resolve).answer? session = some p ∧
      left.statement.joins = session.statement.joins.modify index (·.attaching [p]) := by
  have reads := reads_observe c.resolve session
  rw [on_eq] at run
  obtain ⟨p, between, resolved, run⟩ := Outcome.bind_ok run
  rw [after_of_ok resolved] at reads
  obtain ⟨names, taken, -, stored⟩ := Statement.attach_ok (change_ok run).1
  refine ⟨p, answer?_of_ok resolved, ?_⟩
  rw [stored, reads]
  rfl

/-- The conditions that are attached at an index stand there in their order. -/
theorem joins_onAll (index : Nat) (ons : List Condition) (session : Session) :
    ((onAll index ons).after session).statement.joins =
      session.statement.joins.modify index (·.attaching (attached index ons session)) := by
  induction ons generalizing session with
  | nil =>
      simp only [attached, Join.attaching_nil]
      exact (List.modify_id index session.statement.joins).symm
  | cons c cs ih =>
      rw [onAll, attached]
      cases run : on index c session with
      | ok answer left =>
          obtain ⟨p, resolved, joins⟩ := on_ok run
          unfold after
          rw [Outcome.bind_of_ok run, resolved]
          refine (ih left).trans ?_
          rw [joins, List.modify_modify_eq]
          congr 1
          funext join
          exact Join.attaching_append join [p] _
      | error error left =>
          rw [after_of_error (Outcome.bind_of_error run), atomic_on index c session error left run]
          simp only [Join.attaching_nil]
          exact (List.modify_id index session.statement.joins).symm

/-- What is put at the end of a list is changed there. -/
theorem modify_last {α : Type} (f : α → α) (front : List α) (last : α) :
    (front ++ [last]).modify front.length f = front ++ [f last] := by
  induction front with
  | nil => rfl
  | cons first front ih => rw [List.cons_append, List.length_cons, List.modify_succ_cons, ih]; rfl

/-- A join whose table is accepted is the last one, and its handle points at it. -/
theorem join_ok {kind : JoinKind} {table : Expression} {session left : Session} {index : Nat}
    (run : join kind table [] session = .ok index left) :
    index = session.statement.joins.length ∧
      left.statement.joins = session.statement.joins ++ [⟨kind, table, []⟩] := by
  rw [join_eq] at run
  obtain ⟨_, between, added, run⟩ := Outcome.bind_ok run
  have joins := Statement.addJoin_ok (change_ok added).1
  cases run
  rw [joins]
  refine ⟨?_, rfl⟩
  change (session.statement.joins ++ [_]).length - 1 = _
  rw [List.length_append]
  rfl

/-- Conditions are attached through the handle of the join that was just added. -/
theorem after_join (kind : JoinKind) (table : Expression) (ons : List Condition)
    (session : Session) :
    (join kind table ons).after session = match join kind table [] session with
      | .ok index left => (onAll index ons).after left
      | .error _ left => left := by
  cases added : change (·.addJoin kind table) session with
  | ok answer left =>
      have handle : join kind table [] session =
          .ok (left.statement.joins.length - 1) left := by
        rw [join_eq]
        exact (Outcome.bind_of_ok added).trans rfl
      rw [handle]
      change after _ session = (onAll (left.statement.joins.length - 1) ons).after left
      rw [← after_bind_pure (onAll _ ons) (fun _ => left.statement.joins.length - 1)]
      unfold after
      rw [join_eq, Outcome.bind_of_ok added]
      rfl
  | error error left =>
      have failed (ons : List Condition) : join kind table ons session = .error error left := by
        rw [join_eq]
        exact Outcome.bind_of_error added
      rw [failed [], after_of_error (failed ons)]

end Build

namespace Call

/-- A call adds the joins that it contributes to the log. -/
theorem joins_run (c : Call) (session : Session) :
    (c.run.after session).statement.joins =
      session.statement.joins ++ c.loggedJoins session := by
  have others (outside : c.area? ≠ some .joins) (none : c.loggedJoins session = []) :
      (c.run.after session).statement.joins =
        session.statement.joins ++ c.loggedJoins session := by
    rw [none, List.append_nil]
    exact keeps_run outside session
  cases c with
  | join kind table ons =>
      have ran : (run (.join kind table ons)).after session =
          (Build.join kind table ons).after session :=
        Build.after_bind_pure (Build.join kind table ons) Answer.index session
      rw [ran, Build.after_join, loggedJoins]
      cases added : Build.join kind table [] session with
      | ok index left =>
          obtain ⟨rfl, joins⟩ := Build.join_ok added
          change ((Build.onAll _ ons).after left).statement.joins = _
          rw [Build.joins_onAll, joins, Build.modify_last]
          rfl
      | error error left =>
          change left.statement.joins = session.statement.joins ++ []
          rw [Build.atomic_join kind table session error left added, List.append_nil]
  | _ => exact others nofun rfl

/-- Whatever calls are made, the joins are those of the log behind the earlier ones. -/
theorem joins_runAll (tolerant : Bool) (cs : List Call) (session : Session) :
    ((runAll tolerant cs).after session).statement.joins =
      session.statement.joins ++ log loggedJoins tolerant cs session := by
  refine holds_log (P := fun made s => s.joins = session.statement.joins ++ made)
    ?_ tolerant cs session [] (List.append_nil _).symm
  intro c between made same
  rw [joins_run, same, List.append_assoc]

end Call

end SqlBuilder
