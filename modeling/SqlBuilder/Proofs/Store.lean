import SqlBuilder.Proofs.Nesting
import SqlBuilder.Proofs.Whole

/-!
# What storing does

Every call that stores values first records their parameter names and takes
over the bindings of the statements in them.  For each way to store this is
said once, together with the values that the statement stores afterwards.
-/

namespace SqlBuilder

namespace Statement

variable {s s' : Statement}

/-- Values whose names can be listed and whose bindings can be taken over are tracked. -/
theorem Tracks.track_eq {values : List Value} {names : List String} {taken : List Binding}
    (tracks : s.Tracks values names taken) :
    s.track values =
      .ok { s with bindings := s.bindings ++ taken, markers := s.markers ++ names } := by
  unfold track
  rw [tracks.names, tracks.taken]
  rfl

theorem addPredicates_ok {predicates : List Predicate}
    (done : s.addPredicates predicates = .ok s') :
    ∃ names taken, s.Tracks (predicates.map Predicate.value) names taken ∧
      s' = { s with
        bindings := s.bindings ++ taken
        markers := s.markers ++ names
        predicates := predicates.foldl
          (fun stored p => Keyed.insertGrouped Predicate.key p stored) s.predicates } := by
  obtain ⟨tracked, track, done⟩ := Outcome.except_bind_ok done
  obtain ⟨names, taken, tracks, rfl⟩ := track_ok (Outcome.mapError_ok track)
  cases done
  exact ⟨names, taken, tracks, rfl⟩

/-- Conditions whose values can be tracked are stored. -/
theorem Tracks.addPredicates_eq {predicates : List Predicate} {names : List String}
    {taken : List Binding} (tracks : s.Tracks (predicates.map Predicate.value) names taken) :
    s.addPredicates predicates = .ok { s with
      bindings := s.bindings ++ taken
      markers := s.markers ++ names
      predicates := predicates.foldl
        (fun stored p => Keyed.insertGrouped Predicate.key p stored) s.predicates } := by
  unfold addPredicates
  rw [tracks.track_eq]
  rfl

theorem addJoin_ok {kind : JoinKind} {table : Expression} (done : s.addJoin kind table = .ok s') :
    s' = { s with joins := s.joins ++ [⟨kind, table, []⟩] } := by
  obtain ⟨_, -, done⟩ := Outcome.except_bind_ok done
  cases done
  rfl

theorem attach_ok {index : Nat} {p : Predicate} (done : s.attach index p = .ok s') :
    ∃ names taken, s.Tracks [p.value] names taken ∧
      s' = { s with
        bindings := s.bindings ++ taken
        markers := s.markers ++ names
        joins := s.joins.modify index fun join =>
          { join with predicates := join.predicates ++ [p] } } := by
  obtain ⟨tracked, track, done⟩ := Outcome.except_bind_ok done
  obtain ⟨names, taken, tracks, rfl⟩ := track_ok (Outcome.mapError_ok track)
  cases done
  exact ⟨names, taken, tracks, rfl⟩

theorem addRow_ok {row : List Value} (done : s.addRow row = .ok s') :
    ∃ names taken, s.Tracks row names taken ∧
      s' = { s with
        bindings := s.bindings ++ taken
        markers := s.markers ++ names
        rows := s.rows ++ [row] } := by
  obtain ⟨tracked, track, done⟩ := Outcome.except_bind_ok done
  obtain ⟨names, taken, tracks, rfl⟩ := track_ok (Outcome.mapError_ok track)
  cases done
  exact ⟨names, taken, tracks, rfl⟩

theorem extendRow_ok {value : Value} (done : s.extendRow value = .ok s') :
    ∃ last replaced names taken, s.rows.getLast? = some last ∧
      replacedNames last value = .ok replaced ∧ s.Tracks [value] names taken ∧
      s' = { s with
        bindings := s.bindings ++ taken
        markers := Markers.forget replaced s.markers.length (s.markers ++ names)
        rows := s.rows.dropLast ++ [extendedRow last value] } := by
  unfold extendRow at done
  cases found : s.rows.getLast? with
  | none =>
      rw [found] at done
      cases done
  | some last =>
      rw [found] at done
      obtain ⟨replaced, forgotten, done⟩ := Outcome.except_bind_ok (Outcome.mapError_ok done)
      obtain ⟨tracked, track, done⟩ := Outcome.except_bind_ok done
      obtain ⟨names, taken, tracks, rfl⟩ := track_ok track
      cases done
      exact ⟨last, replaced, names, taken, rfl, forgotten, tracks, rfl⟩

theorem assign_ok {assignments : List Assignment} (done : s.assign assignments = .ok s') :
    ∃ replaced names taken, Value.markersOfAll (s.overwritten assignments) = .ok replaced ∧
      s.Tracks (assignments.map Assignment.value) names taken ∧
      s' = { s with
        bindings := s.bindings ++ taken
        markers := Markers.forget replaced s.markers.length (s.markers ++ names)
        assignments := assignments.foldl
          (fun stored a => Keyed.upsert Assignment.key a stored) s.assignments } := by
  obtain ⟨replaced, forgotten, done⟩ := Outcome.except_bind_ok (Outcome.mapError_ok done)
  obtain ⟨tracked, track, done⟩ := Outcome.except_bind_ok done
  obtain ⟨names, taken, tracks, rfl⟩ := track_ok track
  cases done
  exact ⟨replaced, names, taken, forgotten, tracks, rfl⟩

/-- Assignments whose values can be tracked are stored, if the names to be forgotten are listed. -/
theorem Tracks.assign_eq {assignments : List Assignment} {names replaced : List String}
    {taken : List Binding} (tracks : s.Tracks (assignments.map Assignment.value) names taken)
    (forgotten : Value.markersOfAll (s.overwritten assignments) = .ok replaced) :
    s.assign assignments = .ok { s with
      bindings := s.bindings ++ taken
      markers := Markers.forget replaced s.markers.length (s.markers ++ names)
      assignments := assignments.foldl
        (fun stored a => Keyed.upsert Assignment.key a stored) s.assignments } := by
  unfold assign
  rw [forgotten]
  change Except.mapError Error.argument (s.track _ >>= _) = _
  rw [tracks.track_eq]
  rfl

theorem addMember_ok {all : Bool} {member : Statement} (done : s.addMember all member = .ok s') :
    ∃ taken, Binding.merge s.bindings [member] = .ok taken ∧
      s' = { s with
        bindings := s.bindings ++ taken
        markers := s.markers ++ member.markers
        members := s.members ++ [⟨member, all⟩] } := by
  obtain ⟨taken, merged, done⟩ := Outcome.except_bind_ok done
  cases done
  exact ⟨taken, Outcome.mapError_ok merged, rfl⟩

/-! ## The values that are stored afterwards -/

/-- What comes and goes in the middle of a list comes and goes in the list. -/
theorem perm_between {α : Type} {middle middle' added removed : List α} (front back : List α)
    (change : (middle' ++ removed).Perm (middle ++ added)) :
    (front ++ middle' ++ back ++ removed).Perm (front ++ middle ++ back ++ added) := by
  have pull (l m : List α) : (front ++ l ++ back ++ m).Perm (front ++ (l ++ m) ++ back) := by
    simp only [List.append_assoc]
    exact (List.perm_append_comm.append_left l).append_left front
  exact (pull middle' removed).trans
    (((change.append_left front).append_right back).trans (pull middle added).symm)

/-- What comes in in the middle of a list comes into the list. -/
theorem perm_added {α : Type} {middle middle' added : List α} (front back : List α)
    (change : middle'.Perm (middle ++ added)) :
    (front ++ middle' ++ back).Perm (front ++ middle ++ back ++ added) := by
  rw [← List.append_nil middle'] at change
  have whole := perm_between front back change
  rwa [List.append_nil] at whole

theorem values_addPredicates {predicates : List Predicate}
    (done : s.addPredicates predicates = .ok s') :
    s'.values.Perm (s.values ++ predicates.map Predicate.value) := by
  obtain ⟨names, taken, -, rfl⟩ := addPredicates_ok done
  have stored := (Keyed.perm_foldl_insertGrouped Predicate.key predicates s.predicates).map
    Predicate.value
  rw [List.map_append] at stored
  have whole := perm_added []
    (s.joins.flatMap (fun join => join.predicates.map Predicate.value) ++
      (s.rows.flatten ++ s.assignments.map Assignment.value)) stored
  simpa [values] using whole

theorem values_addJoin {kind : JoinKind} {table : Expression}
    (done : s.addJoin kind table = .ok s') : s'.values = s.values := by
  rw [addJoin_ok done]
  simp [values]

/-- The conditions of one join grow by one. -/
theorem perm_modify_join {joins : List Join} {index : Nat} {p : Predicate}
    (valid : index < joins.length) :
    ((joins.modify index fun join => { join with predicates := join.predicates ++ [p] }).flatMap
        fun join => join.predicates.map Predicate.value).Perm
      (joins.flatMap (fun join => join.predicates.map Predicate.value) ++ [p.value]) := by
  induction joins generalizing index with
  | nil => cases valid
  | cons join joins ih =>
      cases index with
      | zero =>
          simp only [List.modify_zero_cons, List.flatMap_cons, List.map_append, List.map_cons,
            List.map_nil, List.append_assoc]
          exact List.perm_append_comm.append_left _
      | succ index =>
          simp only [List.modify_succ_cons, List.flatMap_cons, List.append_assoc]
          exact (ih (Nat.lt_of_succ_lt_succ valid)).append_left _

theorem values_attach {index : Nat} {p : Predicate} (valid : index < s.joins.length)
    (done : s.attach index p = .ok s') : s'.values.Perm (s.values ++ [p.value]) := by
  obtain ⟨names, taken, -, rfl⟩ := attach_ok done
  have whole := perm_added (s.predicates.map Predicate.value)
    (s.rows.flatten ++ s.assignments.map Assignment.value) (perm_modify_join (p := p) valid)
  simpa [values] using whole

theorem values_addRow {row : List Value} (done : s.addRow row = .ok s') :
    s'.values.Perm (s.values ++ row) := by
  obtain ⟨names, taken, -, rfl⟩ := addRow_ok done
  have rows : (s.rows ++ [row]).flatten.Perm (s.rows.flatten ++ row) := by
    rw [List.flatten_append, List.flatten_singleton]
  have whole := perm_added
    (s.predicates.map Predicate.value ++
      s.joins.flatMap (fun join => join.predicates.map Predicate.value))
    (s.assignments.map Assignment.value) rows
  simpa [values] using whole

/-- A value that extends a row comes in; for a list its entries do, and the old row goes out. -/
theorem values_extendRow {value : Value} {last : List Value}
    (found : s.rows.getLast? = some last) (done : s.extendRow value = .ok s') :
    (s'.values ++ last).Perm (s.values ++ extendedRow last value) := by
  obtain ⟨last', replaced, names, taken, found', -, -, rfl⟩ := extendRow_ok done
  obtain rfl : last = last' := Option.some.inj (found.symm.trans found')
  obtain ⟨front, rows⟩ := List.getLast?_eq_some_iff.mp found
  have flat : s.rows.flatten = s.rows.dropLast.flatten ++ last := by
    rw [rows, List.dropLast_concat, List.flatten_append, List.flatten_singleton]
  have change : ((s.rows.dropLast ++ [extendedRow last value]).flatten ++ last).Perm
      (s.rows.flatten ++ extendedRow last value) := by
    rw [flat, List.flatten_append, List.flatten_singleton, List.append_assoc, List.append_assoc]
    exact List.perm_append_comm.append_left _
  have whole := perm_between
    (s.predicates.map Predicate.value ++
      s.joins.flatMap (fun join => join.predicates.map Predicate.value))
    (s.assignments.map Assignment.value) change
  simpa [values] using whole

theorem overwritten_eq (s : Statement) (assignments : List Assignment) :
    s.overwritten assignments =
      (Keyed.pushedOut Assignment.key assignments s.assignments).map Assignment.value := by
  unfold overwritten Keyed.pushedOut
  induction assignments with
  | nil => rfl
  | cons a assignments ih =>
      rw [List.flatMap_cons, List.map_append, ← ih, List.filterMap_cons]
      unfold assigned?
      cases s.assignments.find? fun old => old.key = a.key <;> rfl

/-- Assignments under different keys come in, and what they overwrite goes out. -/
theorem values_assign {assignments : List Assignment}
    (distinct : (assignments.map Assignment.key).Nodup) (done : s.assign assignments = .ok s') :
    (s'.values ++ s.overwritten assignments).Perm
      (s.values ++ assignments.map Assignment.value) := by
  obtain ⟨replaced, names, taken, -, -, rfl⟩ := assign_ok done
  have stored := (Keyed.perm_foldl_upsert Assignment.key distinct s.assignments).map
    Assignment.value
  rw [List.map_append, List.map_append, ← overwritten_eq] at stored
  have whole := perm_between
    (s.predicates.map Predicate.value ++
      s.joins.flatMap (fun join => join.predicates.map Predicate.value) ++ s.rows.flatten)
    [] stored
  simpa [values] using whole

/-- The values of the last row are stored. -/
theorem perm_last {last : List Value} (found : s.rows.getLast? = some last) :
    ∃ kept, s.values.Perm (last ++ kept) := by
  obtain ⟨front, rows⟩ := List.getLast?_eq_some_iff.mp found
  refine ⟨s.predicates.map Predicate.value ++
    s.joins.flatMap (fun join => join.predicates.map Predicate.value) ++ front.flatten ++
    s.assignments.map Assignment.value, ?_⟩
  unfold values
  rw [rows, List.flatten_append, List.flatten_singleton]
  have whole := List.perm_append_comm_assoc (s.predicates.map Predicate.value ++
    s.joins.flatMap (fun join => join.predicates.map Predicate.value) ++ front.flatten) last
    (s.assignments.map Assignment.value)
  simpa using whole

/-- The values that assignments under different keys overwrite are stored. -/
theorem perm_overwritten {assignments : List Assignment}
    (distinct : (assignments.map Assignment.key).Nodup) :
    ∃ kept, s.values.Perm (s.overwritten assignments ++ kept) := by
  obtain ⟨kept, stored⟩ := Keyed.perm_pushedOut Assignment.key distinct s.assignments
  have values := stored.map Assignment.value
  rw [List.map_append, ← overwritten_eq] at values
  refine ⟨kept.map Assignment.value ++ (s.predicates.map Predicate.value ++
    s.joins.flatMap (fun join => join.predicates.map Predicate.value) ++ s.rows.flatten), ?_⟩
  rw [← List.append_assoc]
  exact List.perm_append_comm.trans (values.append_right _)

theorem memberStatements_addMember {all : Bool} {member : Statement}
    (done : s.addMember all member = .ok s') :
    s'.values = s.values ∧ s'.memberStatements = s.memberStatements ++ [member] := by
  obtain ⟨taken, -, rfl⟩ := addMember_ok done
  exact ⟨rfl, by simp [memberStatements]⟩

end Statement

end SqlBuilder
