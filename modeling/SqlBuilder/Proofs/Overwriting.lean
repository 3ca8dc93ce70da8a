import SqlBuilder.Proofs.Accounting
import SqlBuilder.Proofs.InTurn

/-!
# Overwritten assignments

An assignment takes the place of the one that its column had before, and the
names of the old value are forgotten.  Setting several columns together looks
up what is to be forgotten before anything is stored.  This comes to the same
as setting them one after the other unless one key is set twice: then the
first of the two values is never looked up, and the old one is looked up
twice.
-/

namespace SqlBuilder

namespace Statement

variable {s m t : Statement}

/-- Store assignments one after the other. -/
def assignInTurn (s : Statement) (assignments : List Assignment) : Except Error Statement :=
  assignments.foldlM (fun stored a => stored.assign [a]) s

/-- The first assignment is stored by itself, and then the others. -/
theorem assignInTurn_cons_ok {a : Assignment} {assignments : List Assignment} :
    s.assignInTurn (a :: assignments) = .ok t ↔
      ∃ m, s.assign [a] = .ok m ∧ m.assignInTurn assignments = .ok t := by
  unfold assignInTurn
  rw [List.foldlM_cons]
  constructor
  · exact Outcome.except_bind_ok
  · rintro ⟨m, first, rest⟩
    rw [first]
    exact rest

/-- A single assignment takes the place of the old one of its key. -/
theorem assignments_of_single {a : Assignment} (done : s.assign [a] = .ok m) :
    m.assignments = Keyed.upsert Assignment.key a s.assignments := by
  obtain ⟨replaced, names, taken, -, -, rfl⟩ := assign_ok done
  rfl

/-- The values that assignments overwrite when they are stored one after the other. -/
def overwrittenInTurn (s : Statement) (assignments : List Assignment) : List Value :=
  (Keyed.pushedInTurn Assignment.key assignments s.assignments).map Assignment.value

/-- The names in the values that are assigned are all recorded. -/
def RecordsAssigned (s : Statement) : Prop :=
  ∀ name, Value.occurrencesInAll name (s.assignments.map Assignment.value) ≤ s.markers.count name

/-- The first assignment overwrites what it finds, the others what it leaves. -/
theorem overwrittenInTurn_cons {a : Assignment} (assignments : List Assignment)
    (stored : m.assignments = Keyed.upsert Assignment.key a s.assignments) :
    s.overwrittenInTurn (a :: assignments) =
      s.overwritten [a] ++ m.overwrittenInTurn assignments := by
  unfold overwrittenInTurn
  rw [overwritten_eq, stored, Keyed.pushedInTurn, List.map_append]
  unfold Keyed.pushedOut
  rw [List.flatMap_singleton]

/-- What is overwritten in turn was stored before, or is one of the new values. -/
theorem mem_overwrittenInTurn {assignments : List Assignment} {value : Value}
    (mem : value ∈ s.overwrittenInTurn assignments) :
    value ∈ s.overwritten assignments ∨ value ∈ assignments.map Assignment.value := by
  obtain ⟨a, out, rfl⟩ := List.mem_map.mp mem
  rw [overwritten_eq]
  rcases Keyed.mem_pushedInTurn Assignment.key out with old | new
  · exact Or.inl (List.mem_map_of_mem old)
  · exact Or.inr (List.mem_map_of_mem new)

/-- Under different keys the same is overwritten in turn as together. -/
theorem overwrittenInTurn_of_distinct {assignments : List Assignment}
    (distinct : DistinctKeys assignments) :
    s.overwrittenInTurn assignments = s.overwritten assignments := by
  unfold overwrittenInTurn
  rw [Keyed.pushedInTurn_of_distinct Assignment.key distinct, overwritten_eq]

theorem distinctKeys_singleton (a : Assignment) : DistinctKeys [a] :=
  List.nodup_cons.mpr ⟨List.not_mem_nil, List.nodup_nil⟩

/-- Under different keys no more is overwritten than was assigned. -/
theorem occurrences_overwritten_le {assignments : List Assignment}
    (distinct : DistinctKeys assignments) (name : String) :
    Value.occurrencesInAll name (s.overwritten assignments) ≤
      Value.occurrencesInAll name (s.assignments.map Assignment.value) := by
  obtain ⟨kept, stored⟩ := Keyed.perm_pushedOut Assignment.key distinct s.assignments
  rw [Value.occurrencesInAll_perm name (stored.map Assignment.value), List.map_append,
    Value.occurrencesInAll_append, ← overwritten_eq]
  exact Nat.le_add_right _ _

/-- The names in the assigned values are balanced by those in the value that goes out. -/
theorem occurrences_upsert (name : String) (a : Assignment) (s : Statement) :
    Value.occurrencesInAll name
        ((Keyed.upsert Assignment.key a s.assignments).map Assignment.value) +
      Value.occurrencesInAll name (s.overwritten [a]) =
    Value.occurrencesInAll name (s.assignments.map Assignment.value) +
      a.value.occurrences name := by
  have stored := (Keyed.perm_upsert Assignment.key a s.assignments).map Assignment.value
  have sum := Value.occurrencesInAll_perm name stored
  rw [List.map_append, List.map_append, Value.occurrencesInAll_append,
    Value.occurrencesInAll_append] at sum
  rw [overwritten_eq, Keyed.pushedOut, List.flatMap_singleton]
  exact sum

/-- Names are recorded for assignments, and as many as are there are forgotten for old values. -/
theorem assign_counts {assignments : List Assignment} (done : s.assign assignments = .ok t)
    (name : String) :
    t.markers.count name +
        min (Value.occurrencesInAll name (s.overwritten assignments)) (s.markers.count name) =
      s.markers.count name + Value.occurrencesInAll name (assignments.map Assignment.value) := by
  obtain ⟨replaced, names, taken, forgotten, tracks, rfl⟩ := assign_ok done
  have counted := Markers.count_forget name replaced s.markers names
  rw [Value.count_markersOfAll name forgotten, Value.count_markersOfAll name tracks.names]
    at counted
  change (Markers.forget replaced s.markers.length (s.markers ++ names)).count name + _ = _
  omega

/-- A single assignment forgets all names of the old value. -/
theorem assign_single_counts {a : Assignment} (recorded : s.RecordsAssigned)
    (done : s.assign [a] = .ok m) :
    m.RecordsAssigned ∧ ∀ name,
      m.markers.count name + Value.occurrencesInAll name (s.overwritten [a]) =
        s.markers.count name + a.value.occurrences name := by
  have counts (name : String) :
      m.markers.count name + Value.occurrencesInAll name (s.overwritten [a]) =
        s.markers.count name + a.value.occurrences name := by
    have counted := assign_counts done name
    have enough := Nat.le_trans (occurrences_overwritten_le (distinctKeys_singleton a) name)
      (recorded name)
    rwa [Nat.min_eq_left enough] at counted
  refine ⟨fun name => ?_, counts⟩
  have stored := occurrences_upsert name a s
  have once := counts name
  have below := recorded name
  rw [assignments_of_single done]
  omega

/-- Assignments in turn are recorded with their names, without those overwritten on the way. -/
theorem assignInTurn_counts {assignments : List Assignment} (recorded : s.RecordsAssigned)
    (done : s.assignInTurn assignments = .ok t) (name : String) :
    t.markers.count name + Value.occurrencesInAll name (s.overwrittenInTurn assignments) =
      s.markers.count name + Value.occurrencesInAll name (assignments.map Assignment.value) := by
  induction assignments generalizing s with
  | nil =>
      cases done
      rfl
  | cons a assignments ih =>
      obtain ⟨m, first, rest⟩ := assignInTurn_cons_ok.mp done
      obtain ⟨recorded', single⟩ := assign_single_counts recorded first
      have once := single name
      have others := ih recorded' rest
      rw [overwrittenInTurn_cons assignments (assignments_of_single first),
        Value.occurrencesInAll_append, List.map_cons, Value.occurrencesInAll]
      omega

/--
Assignments whose values can be tracked together can be stored in turn, with
the same bindings and assignments.
-/
theorem Tracks.assignInTurn_eq {assignments : List Assignment} {names : List String}
    {taken : List Binding} (tracks : s.Tracks (assignments.map Assignment.value) names taken)
    (listed : ∀ value ∈ s.overwrittenInTurn assignments, ∃ names, value.markers = .ok names) :
    ∃ markers, s.assignInTurn assignments = .ok { s with
      bindings := s.bindings ++ taken
      markers
      assignments := assignments.foldl
        (fun stored a => Keyed.upsert Assignment.key a stored) s.assignments } := by
  induction assignments generalizing s names taken with
  | nil =>
      cases tracks.names
      cases tracks.taken
      refine ⟨s.markers, ?_⟩
      rw [List.append_nil]
      -- a statement lies in a nest of types, so its fields have to be taken apart
      cases s
      rfl
  | cons a assignments ih =>
      rw [List.map_cons, ← List.singleton_append] at tracks
      obtain ⟨first, others, own, more, before, behind, rfl, rfl⟩ := tracks.split
      have inTurn (m : Statement)
          (stored : m.assignments = Keyed.upsert Assignment.key a s.assignments) :=
        overwrittenInTurn_cons assignments stored
      -- the old value of the key is among those that are listed
      obtain ⟨replaced, forgotten⟩ :
          ∃ names, Value.markersOfAll (s.overwritten [a]) = .ok names := by
        refine Value.markersOfAll_ok_iff.mpr fun value mem => listed value ?_
        rw [inTurn { s with assignments := Keyed.upsert Assignment.key a s.assignments } rfl]
        exact List.mem_append_left _ mem
      have stored : s.assign [a] = .ok { s with
          bindings := s.bindings ++ own
          markers := Markers.forget replaced s.markers.length (s.markers ++ first)
          assignments := Keyed.upsert Assignment.key a s.assignments } :=
        before.assign_eq forgotten
      obtain ⟨markers, rest⟩ := ih (behind _ rfl) fun value mem => listed value <| by
        rw [inTurn _ (assignments_of_single stored)]
        exact List.mem_append_right _ mem
      refine ⟨markers, assignInTurn_cons_ok.mpr ⟨_, stored, ?_⟩⟩
      rw [rest, List.append_assoc]
      rfl

/--
Assignments that are stored together can be stored in turn.  Only the recorded
names may differ: storing together forgets what it finds, in turn also the new
values that are overwritten on the way.
-/
theorem assignInTurn_of_assign {assignments : List Assignment}
    (done : s.assign assignments = .ok t) :
    ∃ u, s.assignInTurn assignments = .ok u ∧ u = { t with markers := u.markers } ∧
      (s.RecordsAssigned → ∀ name,
        u.markers.count name + Value.occurrencesInAll name (s.overwrittenInTurn assignments) =
          t.markers.count name +
            min (Value.occurrencesInAll name (s.overwritten assignments))
              (s.markers.count name)) := by
  obtain ⟨replaced, names, taken, forgotten, tracks, result⟩ := assign_ok done
  have listed : ∀ value ∈ s.overwrittenInTurn assignments,
      ∃ names, value.markers = .ok names := by
    intro value mem
    rcases mem_overwrittenInTurn mem with old | new
    · exact Value.markersOfAll_ok_iff.mp ⟨replaced, forgotten⟩ value old
    · exact Value.markersOfAll_ok_iff.mp ⟨names, tracks.names⟩ value new
  obtain ⟨markers, inTurn⟩ := tracks.assignInTurn_eq listed
  refine ⟨_, inTurn, by rw [result], fun recorded name => ?_⟩
  rw [assignInTurn_counts recorded inTurn name, assign_counts done name]

/-- The account of a reachable statement has the names of the assigned values. -/
theorem ReachableBy.recordsAssigned (reach : ReachableBy DistinctKeys s) : s.RecordsAssigned :=
  fun name => reach.accounts.count_le List.perm_append_comm name

end Statement

namespace Call

variable {session left : Session}

/-- Columns are set as their keys are worked out and the assignments are stored. -/
theorem set_ok_iff {pairs : List (Column × Value)} {answer : Answer} :
    (Call.set pairs).run session = .ok answer left ↔
      answer = .done ∧ ∃ assignments,
        Assignment.resolveAll pairs session.trace = .ok assignments left.trace ∧
        session.statement.assign assignments = .ok left.statement :=
  Build.done_ok_iff.trans (and_congr_right fun _ => Build.set_ok_iff)

/-- One column is set as its key is worked out and the assignment is stored. -/
theorem set_single_ok_iff {column : Column} {operand : Value} {answer : Answer} :
    (Call.set [(column, operand)]).run session = .ok answer left ↔
      answer = .done ∧ ∃ key, column.key session.trace = .ok key left.trace ∧
        session.statement.assign [⟨key, column, operand⟩] = .ok left.statement := by
  refine set_ok_iff.trans (and_congr_right fun _ => ?_)
  constructor
  · rintro ⟨assignments, resolved, stored⟩
    obtain ⟨key, between, rest, head, tail, rfl⟩ := Assignment.resolveAll_cons_ok.mp resolved
    obtain ⟨rfl, last⟩ := Outcome.pure_ok tail
    exact ⟨key, last ▸ head, stored⟩
  · rintro ⟨key, head, stored⟩
    exact ⟨_, Assignment.resolveAll_cons_ok.mpr ⟨key, _, [], head, rfl, rfl⟩, stored⟩

/-- Columns whose assignments can be stored in turn are set by a row of calls. -/
theorem runAll_set_singles {pairs : List (Column × Value)} {assignments : List Assignment}
    (resolved : Assignment.resolveAll pairs session.trace = .ok assignments left.trace)
    (stored : session.statement.assignInTurn assignments = .ok left.statement) :
    runAll false (pairs.map fun pair => .set [pair]) session = .ok () left := by
  induction pairs generalizing session assignments with
  | nil =>
      obtain ⟨rfl, trace⟩ := Outcome.pure_ok resolved
      obtain ⟨statement, events⟩ := session
      obtain ⟨statement', events'⟩ := left
      cases stored
      cases trace
      rfl
  | cons pair pairs ih =>
      obtain ⟨column, operand⟩ := pair
      obtain ⟨key, between, rest, head, tail, rfl⟩ := Assignment.resolveAll_cons_ok.mp resolved
      obtain ⟨m, first, others⟩ := Statement.assignInTurn_cons_ok.mp stored
      refine runAll_cons_ok.mpr ⟨.done, ⟨m, between⟩, ?_, ih tail others⟩
      exact set_single_ok_iff.mpr ⟨rfl, key, head, first⟩

/--
Columns that are set together can be set one after the other, with the same
assignments and bindings.  The recorded names differ by what is forgotten:
together, the values that the keys had before, once for each pair; one after
the other, also the new values that later pairs overwrite.  If no key is set
twice this is the same.
-/
theorem set_as_sequence {pairs : List (Column × Value)}
    (done : (Call.set pairs).run session = .ok .done left) :
    ∃ assignments turned,
      Assignment.resolveAll pairs session.trace = .ok assignments left.trace ∧
      runAll false (pairs.map fun pair => .set [pair]) session = .ok () turned ∧
      turned.trace = left.trace ∧
      turned.statement = { left.statement with markers := turned.statement.markers } ∧
      (session.statement.RecordsAssigned →
        (∀ name, turned.statement.markers.count name +
            Value.occurrencesInAll name (session.statement.overwrittenInTurn assignments) =
          left.statement.markers.count name +
            min (Value.occurrencesInAll name (session.statement.overwritten assignments))
              (session.statement.markers.count name)) ∧
        (Statement.DistinctKeys assignments →
          turned.statement.markers.Perm left.statement.markers)) ∧
      (Statement.ReachableBy Statement.DistinctKeys session.statement →
        session.statement.RecordsAssigned) := by
  obtain ⟨-, assignments, resolved, stored⟩ := set_ok_iff.mp done
  obtain ⟨statement, inTurn, same, counts⟩ := Statement.assignInTurn_of_assign stored
  refine ⟨assignments, { statement, trace := left.trace }, resolved,
    runAll_set_singles resolved inTurn, rfl, same, fun recorded => ⟨counts recorded, ?_⟩,
    Statement.ReachableBy.recordsAssigned⟩
  intro distinct
  refine List.perm_iff_count.mpr fun name => ?_
  have counted := counts recorded name
  have enough := Nat.le_trans (Statement.occurrences_overwritten_le distinct name) (recorded name)
  rw [Statement.overwrittenInTurn_of_distinct distinct, Nat.min_eq_left enough] at counted
  exact Nat.add_right_cancel counted

/-- Two values for one column. -/
def twice : List (Column × Value) :=
  [(.name "level", .parameter "low"), (.name "level", .parameter "high")]

theorem set_as_sequence_twice :
    ∃ left turned,
      (Call.set twice).run .fresh = .ok .done left ∧
      runAll false (twice.map fun pair => .set [pair]) .fresh = .ok () turned ∧
      turned.statement = { left.statement with markers := turned.statement.markers } ∧
      turned.statement.markers.count "low" + 1 = left.statement.markers.count "low" := by
  have done : (Call.set twice).run .fresh = .ok .done _ := rfl
  obtain ⟨assignments, turned, resolved, inTurn, -, same, recorded, reachable⟩ :=
    set_as_sequence done
  have counted := (recorded (reachable (.fresh {}))).1 "low"
  cases resolved
  exact ⟨_, turned, done, inTurn, same, counted⟩

/--
The first of two values for one column is overwritten and leaves its name
behind if they are set together, but not if they are set one after the other.
-/
theorem set_twice_keeps_a_name :
    Session.fresh.statement.Reachable ∧ ∃ left turned,
      (Call.set twice).run .fresh = .ok .done left ∧
      runAll false (twice.map fun pair => .set [pair]) .fresh = .ok () turned ∧
      left.statement.markers = ["low", "high"] ∧ turned.statement.markers = ["high"] ∧
      ¬ turned.statement.markers.Perm left.statement.markers :=
  ⟨.fresh {}, _, _, rfl, rfl, rfl, rfl, by decide⟩

end Call

end SqlBuilder
