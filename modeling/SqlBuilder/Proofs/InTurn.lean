import SqlBuilder.Proofs.Failure
import SqlBuilder.Proofs.Reachable

/-!
# Storing in turn

Values are handed over together by one call, or one by one by a row of calls.
Their names are recorded in the same order either way.  Their bindings are
taken over into the same list, since a binding is looked up among those that
came before it, be they stored already or about to be.  So a list of
conditions is accepted as a whole just if its conditions are accepted one
after the other.  Only a failure tells the two apart: the whole list is left
out, but of the row the calls before the failing one have been made.
-/

namespace SqlBuilder

/-! ## Names and bindings of two lists -/

namespace Value

/-- Two lists of values list their names one behind the other. -/
theorem markersOfAll_append_ok {left right : List Value} {names : List String} :
    markersOfAll (left ++ right) = .ok names ↔
      ∃ first others, markersOfAll left = .ok first ∧ markersOfAll right = .ok others ∧
        names = first ++ others := by
  induction left generalizing names with
  | nil =>
      constructor
      · intro done
        exact ⟨[], names, rfl, done, rfl⟩
      · rintro ⟨first, others, ⟨⟩, done, rfl⟩
        exact done
  | cons value left ih =>
      constructor
      · intro done
        obtain ⟨head, named, done⟩ := Outcome.except_bind_ok done
        obtain ⟨rest, tail, done⟩ := Outcome.except_bind_ok done
        obtain ⟨first, others, before, behind, rfl⟩ := ih.mp tail
        cases done
        refine ⟨head ++ first, others, ?_, behind, (List.append_assoc _ _ _).symm⟩
        rw [markersOfAll, named, before]
        rfl
      · rintro ⟨first, others, before, behind, rfl⟩
        obtain ⟨head, named, before⟩ := Outcome.except_bind_ok before
        obtain ⟨rest, tail, before⟩ := Outcome.except_bind_ok before
        cases before
        rw [List.cons_append, markersOfAll, named, ih.mpr ⟨rest, others, tail, behind, rfl⟩,
          List.append_assoc]
        rfl

/-- Two lists of values hold their statements one behind the other. -/
theorem nestedInAll_append (left right : List Value) :
    nestedInAll (left ++ right) = nestedInAll left ++ nestedInAll right := by
  induction left with
  | nil => rfl
  | cons value left ih => rw [List.cons_append, nestedInAll, nestedInAll, ih, List.append_assoc]

end Value

namespace Binding

/-- What has been taken over counts like what was there before. -/
theorem takeOver_append (own taken more : List Binding) (b : Binding) :
    takeOver own (taken ++ more) b = (takeOver (own ++ taken) more b).map (taken ++ ·) := by
  unfold takeOver
  rw [← List.append_assoc]
  cases b.name with
  | none =>
      change Except.ok (taken ++ more ++ [b]) = Except.ok (taken ++ (more ++ [b]))
      rw [List.append_assoc]
  | some name =>
      dsimp only
      cases find? name (own ++ taken ++ more) with
      | none =>
          change Except.ok (taken ++ more ++ [b]) = Except.ok (taken ++ (more ++ [b]))
          rw [List.append_assoc]
      | some earlier =>
          dsimp only
          split <;> rfl

theorem foldlM_takeOver_append (own taken more bindings : List Binding) :
    bindings.foldlM (takeOver own) (taken ++ more) =
      (bindings.foldlM (takeOver (own ++ taken)) more).map (taken ++ ·) := by
  induction bindings generalizing more with
  | nil => rfl
  | cons b bindings ih =>
      rw [List.foldlM_cons, List.foldlM_cons, takeOver_append]
      cases takeOver (own ++ taken) more b with
      | error fault => rfl
      | ok next => exact ih next

/-- Statements nested in two lists are merged with the bindings taken over for the first. -/
theorem merge_append_ok {own all : List Binding} {nested others : List Statement} :
    merge own (nested ++ others) = .ok all ↔
      ∃ taken more, merge own nested = .ok taken ∧ merge (own ++ taken) others = .ok more ∧
        all = taken ++ more := by
  have goes_on (taken : List Binding) :
      (others.flatMap Statement.bindings).foldlM (takeOver own) taken =
        (merge (own ++ taken) others).map (taken ++ ·) := by
    have split := foldlM_takeOver_append own taken [] (others.flatMap Statement.bindings)
    rwa [List.append_nil] at split
  have splits : merge own (nested ++ others) =
      merge own nested >>= fun taken => (merge (own ++ taken) others).map (taken ++ ·) := by
    unfold merge
    rw [List.flatMap_append, List.foldlM_append]
    exact bind_congr goes_on
  rw [splits]
  constructor
  · intro done
    obtain ⟨taken, first, done⟩ := Outcome.except_bind_ok done
    cases second : merge (own ++ taken) others with
    | error fault =>
        rw [second] at done
        cases done
    | ok more =>
        rw [second] at done
        cases done
        exact ⟨taken, more, first, second, rfl⟩
  · rintro ⟨taken, more, first, second, rfl⟩
    rw [first]
    change (merge (own ++ taken) others).map (taken ++ ·) = _
    rw [second]
    rfl

end Binding

/-! ## Values and conditions of two lists -/

namespace Statement

variable {s m t : Statement}

/-- Values of a second list bring the same behind the first list as together with it. -/
theorem Tracks.append {left right : List Value} {first others : List String}
    {own more : List Binding} (before : s.Tracks left first own)
    (same : m.bindings = s.bindings ++ own) (behind : m.Tracks right others more) :
    s.Tracks (left ++ right) (first ++ others) (own ++ more) := by
  refine ⟨Value.markersOfAll_append_ok.mpr ⟨first, others, before.names, behind.names, rfl⟩, ?_⟩
  rw [Value.nestedInAll_append]
  exact Binding.merge_append_ok.mpr ⟨own, more, before.taken, same ▸ behind.taken, rfl⟩

/-- Two lists of values that are tracked together can be tracked in turn. -/
theorem Tracks.split {left right : List Value} {names : List String} {taken : List Binding}
    (tracks : s.Tracks (left ++ right) names taken) :
    ∃ first others own more, s.Tracks left first own ∧
      (∀ m : Statement, m.bindings = s.bindings ++ own → m.Tracks right others more) ∧
      names = first ++ others ∧ taken = own ++ more := by
  obtain ⟨named, merged⟩ := tracks
  obtain ⟨first, others, before, behind, rfl⟩ := Value.markersOfAll_append_ok.mp named
  rw [Value.nestedInAll_append] at merged
  obtain ⟨own, more, start, further, rfl⟩ := Binding.merge_append_ok.mp merged
  exact ⟨first, others, own, more, ⟨before, start⟩, fun m same => ⟨behind, same ▸ further⟩,
    rfl, rfl⟩

/-- No conditions change nothing. -/
theorem addPredicates_nil (s : Statement) : s.addPredicates [] = .ok s := by
  have nothing : s.Tracks (([] : List Predicate).map Predicate.value) [] [] := ⟨rfl, rfl⟩
  rw [nothing.addPredicates_eq, List.append_nil, List.append_nil]
  -- a statement lies in a nest of types, so its fields have to be taken apart
  cases s
  rfl

/-- Conditions are stored together just if they are stored in turn. -/
theorem addPredicates_cons_ok {p : Predicate} {ps : List Predicate} :
    s.addPredicates (p :: ps) = .ok t ↔
      ∃ m, s.addPredicates [p] = .ok m ∧ m.addPredicates ps = .ok t := by
  constructor
  · intro done
    obtain ⟨names, taken, tracks, rfl⟩ := addPredicates_ok done
    rw [List.map_cons, ← List.singleton_append] at tracks
    obtain ⟨first, others, own, more, before, behind, rfl, rfl⟩ := tracks.split
    refine ⟨_, Tracks.addPredicates_eq before, ?_⟩
    rw [(behind _ rfl).addPredicates_eq, List.append_assoc, List.append_assoc]
    rfl
  · rintro ⟨m, done, further⟩
    obtain ⟨first, own, before, rfl⟩ := addPredicates_ok done
    obtain ⟨others, more, behind, rfl⟩ := addPredicates_ok further
    have tracks := before.append rfl behind
    rw [← List.map_append, List.singleton_append] at tracks
    rw [tracks.addPredicates_eq, List.append_assoc, List.append_assoc]
    rfl

end Statement

/-! ## Rows of calls -/

namespace Call

variable {session left : Session}

/-- A run that fails has made the calls before the one that failed. -/
theorem runAll_error {calls : List Call} {error : Error}
    (failed : runAll false calls session = .error error left) :
    ∃ front c back kept, calls = front ++ c :: back ∧
      runAll false front session = .ok () kept ∧ c.run kept = .error error left := by
  induction calls generalizing session with
  | nil => cases failed
  | cons c calls ih =>
      rw [runAll_cons] at failed
      cases run : c.run session with
      | error error' left' =>
          rw [Outcome.bind_of_error (Build.step_of_error false run)] at failed
          cases failed
          exact ⟨[], c, calls, session, rfl, rfl, run⟩
      | ok answer between =>
          rw [Outcome.bind_of_ok (Build.step_of_ok false run)] at failed
          obtain ⟨front, d, back, kept, split, before, stops⟩ := ih failed
          refine ⟨c :: front, d, back, kept, by rw [split, List.cons_append], ?_, stops⟩
          exact runAll_cons_ok.mpr ⟨answer, between, run, before⟩

/-- Conditions are stored as a whole just if each of them is, one after the other. -/
theorem conditions_in_turn {cs : List Condition} :
    (Build.observe (Condition.resolveAll cs) >>= fun ps =>
        Build.change (·.addPredicates ps)) session = .ok () left ↔
      runAll false (cs.map condition) session = .ok () left := by
  rw [Build.observe_change_ok (f := fun ps => (·.addPredicates ps))]
  induction cs generalizing session with
  | nil =>
      constructor
      · rintro ⟨ps, resolved, stored⟩
        obtain ⟨rfl, trace⟩ := Outcome.pure_ok resolved
        rw [Statement.addPredicates_nil] at stored
        obtain ⟨statement, events⟩ := session
        obtain ⟨statement', events'⟩ := left
        cases stored
        cases trace
        rfl
      · rintro ⟨⟩
        exact ⟨[], rfl, Statement.addPredicates_nil _⟩
  | cons c cs ih =>
      rw [List.map_cons, runAll_cons_ok]
      constructor
      · rintro ⟨ps, resolved, stored⟩
        obtain ⟨p, between, rest, head, tail, rfl⟩ := Condition.resolveAll_cons_ok.mp resolved
        obtain ⟨m, first, others⟩ := Statement.addPredicates_cons_ok.mp stored
        refine ⟨.done, ⟨m, between⟩, ?_, ih.mp ⟨rest, tail, others⟩⟩
        refine Build.done_ok_iff.mpr ⟨rfl, ?_⟩
        rw [Build.condition_eq]
        exact (Build.observe_change_ok (f := fun p => (·.addPredicates [p]))).mpr ⟨p, head, first⟩
      · rintro ⟨answer, between, ran, further⟩
        have added := (Build.done_ok_iff.mp ran).2
        rw [Build.condition_eq] at added
        obtain ⟨p, head, first⟩ :=
          (Build.observe_change_ok (f := fun p => (·.addPredicates [p]))).mp added
        obtain ⟨rest, tail, others⟩ := ih.mpr further
        refine ⟨p :: rest, Condition.resolveAll_cons_ok.mpr ⟨p, _, rest, head, tail, rfl⟩, ?_⟩
        exact Statement.addPredicates_cons_ok.mpr ⟨_, first, others⟩

/-- The calls that make the conditions of three lists one by one. -/
def oneByOne (connective : Connective) (columns : List Column) (operators : List String)
    (operands : List Value) : List Call :=
  (columns.zip (operators.zip operands)).map fun (column, operator, operand) =>
    condition ⟨column, some operator, operand, connective⟩

/--
Several conditions are stored as a whole just if the calls for the single ones
all succeed one after the other, and then both leave the same.  A whole that
is refused changes nothing, whereas the calls before the one that is refused
have been made.  Lists of different lengths are refused.
-/
theorem conditions_as_sequence (connective : Connective) (columns : List Column)
    (operators : List String) (operands : List Value) (session : Session) :
    (columns.length = operators.length ∧ columns.length = operands.length →
      (∀ left,
        (Call.conditions connective columns operators operands).run session = .ok .done left ↔
          runAll false (oneByOne connective columns operators operands) session = .ok () left) ∧
      ∀ error left,
        (Call.conditions connective columns operators operands).run session = .error error left →
          left.statement = session.statement ∧
          ∃ front c back kept fault stopped,
            oneByOne connective columns operators operands = front ++ c :: back ∧
            runAll false front session = .ok () kept ∧ c.run kept = .error fault stopped ∧
            runAll false (oneByOne connective columns operators operands) session =
              .error fault stopped ∧
            stopped.statement = kept.statement) ∧
    (¬(columns.length = operators.length ∧ columns.length = operands.length) →
      (Call.conditions connective columns operators operands).run session =
        .error (.argument
          (.unequalLengths columns.length operators.length operands.length)) session) := by
  refine ⟨fun equal => ?_, fun unequal => ?_⟩
  · have zipped : Condition.zip connective columns operators operands = .ok
        ((columns.zip (operators.zip operands)).map fun (column, operator, operand) =>
          ⟨column, some operator, operand, connective⟩) := if_pos equal
    have alike (left : Session) :
        (Call.conditions connective columns operators operands).run session = .ok .done left ↔
          runAll false (oneByOne connective columns operators operands) session = .ok () left := by
      refine (Build.done_ok_iff.trans (and_iff_right rfl)).trans ?_
      unfold oneByOne
      rw [Build.conditions_eq, zipped]
      refine conditions_in_turn.trans ?_
      rw [List.map_map]
      rfl
    refine ⟨alike, fun error left failed => ⟨atomic_run rfl session error left failed, ?_⟩⟩
    cases run : runAll false (oneByOne connective columns operators operands) session with
    | ok answer stored =>
        rw [(alike stored).mpr run] at failed
        cases failed
    | error fault stopped =>
        obtain ⟨front, c, back, kept, split, before, stops⟩ := runAll_error run
        refine ⟨front, c, back, kept, fault, stopped, split, before, stops, rfl, ?_⟩
        have listed : c ∈ oneByOne connective columns operators operands := by
          rw [split]
          exact List.mem_append_right front List.mem_cons_self
        obtain ⟨⟨column, operator, operand⟩, -, rfl⟩ := List.mem_map.mp listed
        exact atomic_run rfl kept fault stopped stops
  · have refused : Condition.zip connective columns operators operands = .error
        (.unequalLengths columns.length operators.length operands.length) := if_neg unequal
    change Build.done (Build.conditions connective columns operators operands) session = _
    unfold Build.conditions
    rw [refused]
    rfl

/-- The same names, with an owner whose binding of `id` is the one that the statement has. -/
def agreeing : Call :=
  .conditions .and [.name "level", .name "owner"] ["=", "IN"] [.int 1, .query 0 (owner 1)]

theorem conditions_as_sequence_conflict :
    (∃ left, agreeing.run { statement := owner 1 } = .ok .done left ∧
      runAll false (oneByOne .and [.name "level", .name "owner"] ["=", "IN"]
        [.int 1, .query 0 (owner 1)]) { statement := owner 1 } = .ok () left) ∧
    (∃ error left, conflicting.run { statement := owner 1 } = .error error left ∧
      left.statement = owner 1 ∧
      ∃ front c back kept fault stopped,
        oneByOne .and [.name "level", .name "owner"] ["=", "IN"] [.int 1, .query 0 (owner 2)] =
          front ++ c :: back ∧
        runAll false front { statement := owner 1 } = .ok () kept ∧
        c.run kept = .error fault stopped ∧
        runAll false (oneByOne .and [.name "level", .name "owner"] ["=", "IN"]
          [.int 1, .query 0 (owner 2)]) { statement := owner 1 } = .error fault stopped ∧
        stopped.statement = kept.statement) ∧
    (Call.conditions .and [.name "level", .name "owner"] ["="] [.int 1, .int 2]).run
        { statement := owner 1 } =
      .error (.argument (.unequalLengths 2 1 2)) { statement := owner 1 } := by
  refine ⟨?_, ?_, ?_⟩
  · obtain ⟨alike, -⟩ := (conditions_as_sequence .and [.name "level", .name "owner"] ["=", "IN"]
      [.int 1, .query 0 (owner 1)] { statement := owner 1 }).1 ⟨rfl, rfl⟩
    exact ⟨_, rfl, (alike _).mp rfl⟩
  · obtain ⟨-, fails⟩ := (conditions_as_sequence .and [.name "level", .name "owner"] ["=", "IN"]
      [.int 1, .query 0 (owner 2)] { statement := owner 1 }).1 ⟨rfl, rfl⟩
    exact ⟨_, _, rfl, fails _ _ rfl⟩
  · exact (conditions_as_sequence .and [.name "level", .name "owner"] ["="] [.int 1, .int 2]
      { statement := owner 1 }).2 (by decide)

end Call

end SqlBuilder
