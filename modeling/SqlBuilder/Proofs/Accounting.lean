import SqlBuilder.Proofs.Reachable

/-!
# Recorded names

The names that a statement records are those of the parameters in the values
that it stores, each as often as it occurs there.  A nested statement stands
for the names that it records itself.  Replacing a row or an assignment makes
the statement forget names, and it finds each of them among those that it
recorded.
-/

namespace SqlBuilder

/-! ## Occurrences -/

namespace Value

mutual

/-- How often a name occurs in a value; a nested statement counts what it records. -/
def occurrences (name : String) : Value → Nat
  | .parameter other => if other = name then 1 else 0
  | .list items => occurrencesInAll name items
  | .query _ s => s.markers.count name
  | .group _ s => s.markers.count name
  | _ => 0
termination_by structural value => value

/-- How often a name occurs in values. -/
def occurrencesInAll (name : String) : List Value → Nat
  | [] => 0
  | value :: values => value.occurrences name + occurrencesInAll name values
termination_by structural values => values

end

theorem occurrencesInAll_append (name : String) (left right : List Value) :
    occurrencesInAll name (left ++ right) =
      occurrencesInAll name left + occurrencesInAll name right := by
  induction left with
  | nil => simp [occurrencesInAll]
  | cons value left ih =>
      simp only [List.cons_append, occurrencesInAll, ih]
      omega

theorem occurrencesInAll_perm (name : String) {left right : List Value} (perm : left.Perm right) :
    occurrencesInAll name left = occurrencesInAll name right := by
  induction perm with
  | nil => rfl
  | cons value _ ih => simp only [occurrencesInAll, ih]
  | swap first second rest =>
      simp only [occurrencesInAll]
      omega
  | trans _ _ left right => exact left.trans right

mutual

/-- The names in a value are as many as the occurrences. -/
theorem count_markers (name : String) : ∀ {value : Value} {names : List String},
    value.markers = .ok names → names.count name = value.occurrences name
  | .parameter other, names, done => by
      unfold markers at done
      split at done
      · cases done
        simp only [occurrences, List.count_singleton, beq_iff_eq]
      · cases done
  | .list items, names, done => by
      unfold markers at done
      unfold occurrences
      exact count_markersOfAll name done
  | .query tag s, names, done | .group tag s, names, done => by
      cases done
      rfl
  | .null, names, done | .bool _, names, done | .int _, names, done | .float _, names, done
  | .text _, names, done | .date _, names, done | .dateTime _, names, done
  | .column _, names, done => by
      cases done
      rfl
termination_by structural value => value

theorem count_markersOfAll (name : String) : ∀ {values : List Value} {names : List String},
    markersOfAll values = .ok names → names.count name = occurrencesInAll name values
  | [], names, done => by
      cases done
      rfl
  | value :: values, names, done => by
      obtain ⟨first, head, done⟩ := Outcome.except_bind_ok done
      obtain ⟨others, tail, done⟩ := Outcome.except_bind_ok done
      cases done
      rw [List.count_append, count_markers name head, count_markersOfAll name tail]
      rfl
termination_by structural values => values

end

/-- The names in values can be listed if those in each value can. -/
theorem markersOfAll_ok_iff {values : List Value} :
    (∃ names, markersOfAll values = .ok names) ↔
      ∀ value ∈ values, ∃ names, value.markers = .ok names := by
  induction values with
  | nil =>
      constructor
      · intro _ value mem
        cases mem
      · intro _
        exact ⟨[], rfl⟩
  | cons value values ih =>
      constructor
      · rintro ⟨names, done⟩
        obtain ⟨first, head, done⟩ := Outcome.except_bind_ok done
        obtain ⟨others, tail, done⟩ := Outcome.except_bind_ok done
        intro other mem
        rcases List.mem_cons.mp mem with rfl | mem
        · exact ⟨first, head⟩
        · exact ih.mp ⟨others, tail⟩ other mem
      · intro each
        obtain ⟨first, head⟩ := each value List.mem_cons_self
        obtain ⟨others, tail⟩ := ih.mpr fun other mem => each other (List.mem_cons_of_mem _ mem)
        refine ⟨first ++ others, ?_⟩
        rw [markersOfAll, head, tail]
        rfl

/-- What a list lists, its entries list. -/
theorem markers_of_list {items : List Value} :
    (∃ names, (list items).markers = .ok names) ↔
      ∀ value ∈ items, ∃ names, value.markers = .ok names := by
  rw [← markersOfAll_ok_iff]
  rfl

mutual

/-- The names in a value are valid if those that nested statements record are. -/
theorem valid_markers : ∀ {value : Value} {names : List String}, value.markers = .ok names →
    value.HoldsOnly (fun s => ∀ name ∈ s.markers, Parameter.isValid name = true) →
    ∀ name ∈ names, Parameter.isValid name = true
  | .parameter other, names, done, _ => by
      unfold markers at done
      split at done
      · next valid =>
          cases done
          intro name mem
          rw [List.mem_singleton.mp mem]
          exact valid
      · cases done
  | .list items, names, done, nested => by
      unfold markers at done
      exact valid_markersOfAll done fun value mem inner holds => nested inner (.item mem holds)
  | .query tag s, names, done, nested => by
      cases done
      exact nested s (.query tag)
  | .group tag s, names, done, nested => by
      cases done
      exact nested s (.group tag)
  | .null, names, done, _ | .bool _, names, done, _ | .int _, names, done, _
  | .float _, names, done, _ | .text _, names, done, _ | .date _, names, done, _
  | .dateTime _, names, done, _ | .column _, names, done, _ => by
      cases done
      intro name mem
      cases mem
termination_by structural value => value

theorem valid_markersOfAll : ∀ {values : List Value} {names : List String},
    markersOfAll values = .ok names →
    (∀ value ∈ values,
      value.HoldsOnly fun s => ∀ name ∈ s.markers, Parameter.isValid name = true) →
    ∀ name ∈ names, Parameter.isValid name = true
  | [], names, done, _ => by
      cases done
      intro name mem
      cases mem
  | value :: values, names, done, nested => by
      obtain ⟨first, head, done⟩ := Outcome.except_bind_ok done
      obtain ⟨others, tail, done⟩ := Outcome.except_bind_ok done
      cases done
      intro name mem
      rcases List.mem_append.mp mem with mem | mem
      · exact valid_markers head (nested value List.mem_cons_self) name mem
      · exact valid_markersOfAll tail
          (fun other mem => nested other (List.mem_cons_of_mem value mem)) name mem
termination_by structural values => values

end

end Value

/-! ## Forgetting -/

namespace Markers

theorem count_eraseLast (name removed : String) (names : List String) :
    (eraseLast removed names).count name =
      names.count name - if removed = name then 1 else 0 := by
  unfold eraseLast
  rw [List.count_reverse, List.count_erase, List.count_reverse]
  simp only [beq_iff_eq]

theorem count_foldr_eraseLast (name : String) (removed names : List String) :
    (removed.foldr eraseLast names).count name = names.count name - removed.count name := by
  induction removed with
  | nil => simp
  | cons first removed ih =>
      rw [List.foldr_cons, count_eraseLast, ih, List.count_cons]
      simp only [beq_iff_eq]
      omega

/-- Names are forgotten among the entries that were there before the new ones. -/
theorem forget_append (removed before new : List String) :
    forget removed before.length (before ++ new) = removed.foldr eraseLast before ++ new := by
  unfold forget
  rw [List.take_left, List.drop_left]

theorem count_forget (name : String) (removed before new : List String) :
    (forget removed before.length (before ++ new)).count name =
      before.count name - removed.count name + new.count name := by
  rw [forget_append, List.count_append, count_foldr_eraseLast]

theorem mem_of_mem_forget {name : String} {removed before new : List String}
    (mem : name ∈ forget removed before.length (before ++ new)) : name ∈ before ++ new := by
  have positive : 0 < (forget removed before.length (before ++ new)).count name :=
    List.count_pos_iff.mpr mem
  rw [count_forget] at positive
  apply List.count_pos_iff.mp
  rw [List.count_append]
  omega

/-- Each name, from the last one to the first, is still there when it is to be forgotten. -/
def AllFound (removed names : List String) : Prop :=
  ∀ front name back, removed = front ++ name :: back → name ∈ back.foldr eraseLast names

theorem allFound_of_count {removed names : List String}
    (enough : ∀ name, removed.count name ≤ names.count name) : AllFound removed names := by
  rintro front name back rfl
  have more := enough name
  rw [List.count_append, List.count_cons_self] at more
  apply List.count_pos_iff.mp
  rw [count_foldr_eraseLast]
  omega

end Markers

/-! ## The account of a statement -/

namespace Statement

/-- No two of the assignments write the same key. -/
abbrev DistinctKeys (assignments : List Assignment) : Prop :=
  (assignments.map Assignment.key).Nodup

/-- How often a name occurs in what a statement stores. -/
def occurrences (name : String) (s : Statement) : Nat :=
  Value.occurrencesInAll name s.values +
    (s.memberStatements.flatMap fun member => member.markers).count name

/-- The recorded names are those of the stored parameters, and all of them are valid. -/
structure Accounts (s : Statement) : Prop where
  counted : ∀ name, s.markers.count name = s.occurrences name
  valid : ∀ name ∈ s.markers, Parameter.isValid name = true
  listed : ∀ value ∈ s.values, ∃ names, value.markers = .ok names

variable {s s' : Statement}

theorem Accounts.of_same (accounts : s.Accounts) (markers : s'.markers = s.markers)
    (values : s'.values = s.values) (members : s'.memberStatements = s.memberStatements) :
    s'.Accounts := by
  constructor
  · intro name
    unfold occurrences
    rw [markers, values, members]
    exact accounts.counted name
  · rw [markers]
    exact accounts.valid
  · rw [values]
    exact accounts.listed

/-- The names of stored values are recorded. -/
theorem Accounts.count_le (accounts : s.Accounts) {stored kept : List Value}
    (perm : s.values.Perm (stored ++ kept)) (name : String) :
    Value.occurrencesInAll name stored ≤ s.markers.count name := by
  have counted := accounts.counted name
  unfold occurrences at counted
  rw [Value.occurrencesInAll_perm name perm, Value.occurrencesInAll_append] at counted
  omega

theorem Accounts.listed_of_perm (accounts : s.Accounts) {stored kept : List Value}
    (perm : s.values.Perm (stored ++ kept)) :
    ∃ names, Value.markersOfAll stored = .ok names := by
  apply Value.markersOfAll_ok_iff.mpr
  intro value mem
  exact accounts.listed value (perm.mem_iff.mpr (List.mem_append_left _ mem))

/-- Names that are given up for values that go out leave the account balanced. -/
theorem Accounts.of_replaced (accounts : s.Accounts) {names removed : List String}
    (markers : s'.markers = Markers.forget removed s.markers.length (s.markers ++ names))
    (members : s'.memberStatements = s.memberStatements)
    (found : ∀ name, removed.count name ≤ s.markers.count name)
    (balance : ∀ name, Value.occurrencesInAll name s'.values + removed.count name =
      Value.occurrencesInAll name s.values + names.count name)
    (valid : ∀ name ∈ names, Parameter.isValid name = true)
    (listed : ∀ value ∈ s'.values, ∃ names, value.markers = .ok names) : s'.Accounts := by
  constructor
  · intro name
    have counted := accounts.counted name
    have enough := found name
    have balanced := balance name
    unfold occurrences at counted ⊢
    rw [markers, Markers.count_forget, members]
    omega
  · intro name mem
    rw [markers] at mem
    rcases List.mem_append.mp (Markers.mem_of_mem_forget mem) with old | new
    · exact accounts.valid name old
    · exact valid name new
  · exact listed

/-- Values that come in bring their names. -/
theorem Accounts.of_added (accounts : s.Accounts) {added : List Value} {names : List String}
    {taken : List Binding} (tracks : s.Tracks added names taken)
    (markers : s'.markers = s.markers ++ names)
    (members : s'.memberStatements = s.memberStatements)
    (given : ∀ value ∈ added, value.HoldsOnly Accounts)
    (stored : s'.values.Perm (s.values ++ added)) : s'.Accounts := by
  have forgets : s'.markers = Markers.forget [] s.markers.length (s.markers ++ names) := by
    rw [Markers.forget_append, List.foldr_nil, markers]
  apply accounts.of_replaced forgets members
  · intro name
    exact Nat.zero_le _
  · intro name
    rw [Value.occurrencesInAll_perm name stored, Value.occurrencesInAll_append,
      Value.count_markersOfAll name tracks.names]
    rfl
  · exact Value.valid_markersOfAll tracks.names fun value mem inner holds =>
      (given value mem inner holds).valid
  · intro value mem
    rcases List.mem_append.mp (stored.mem_iff.mp mem) with old | new
    · exact accounts.listed value old
    · exact Value.markersOfAll_ok_iff.mp ⟨names, tracks.names⟩ value new

/-- The names that the last row forgets and gains are balanced by its fields. -/
theorem extendedRow_balance {last : List Value} {value : Value} {removed : List String}
    (forgotten : replacedNames last value = .ok removed) (name : String) :
    removed.count name ≤ Value.occurrencesInAll name last ∧
      Value.occurrencesInAll name (extendedRow last value) + removed.count name =
        Value.occurrencesInAll name last + value.occurrences name := by
  cases value with
  | list fields =>
      have removes : removed.count name = Value.occurrencesInAll name last :=
        Value.count_markersOfAll name forgotten
      constructor
      · omega
      · rw [removes]
        exact Nat.add_comm _ _
  | _ =>
      cases forgotten
      constructor
      · exact Nat.zero_le _
      · simp only [extendedRow, Value.occurrencesInAll_append, Value.occurrencesInAll,
          List.count_nil]
        omega

theorem listed_extendedRow {last : List Value} {value : Value}
    (fields : ∀ field ∈ last, ∃ names, field.markers = .ok names)
    (given : ∃ names, value.markers = .ok names) :
    ∀ field ∈ extendedRow last value, ∃ names, field.markers = .ok names := by
  cases value with
  | list items => exact Value.markers_of_list.mp given
  | _ =>
      intro field mem
      rcases List.mem_append.mp mem with old | new
      · exact fields field old
      · rw [List.mem_singleton.mp new]
        exact given

theorem accounts_extendRow (accounts : s.Accounts) {value : Value}
    (given : value.HoldsOnly Accounts) (done : s.extendRow value = .ok s') : s'.Accounts := by
  obtain ⟨last, removed, names, taken, found, forgotten, tracks, result⟩ := extendRow_ok done
  have stored := values_extendRow found done
  obtain ⟨kept, lastStored⟩ := perm_last found
  have markers : s'.markers = Markers.forget removed s.markers.length (s.markers ++ names) := by
    rw [result]
  have members : s'.memberStatements = s.memberStatements := by
    rw [result]
    rfl
  have givenAll : ∀ other ∈ [value], other.HoldsOnly Accounts := by simpa using given
  apply accounts.of_replaced markers members
  · intro name
    have enough := (extendedRow_balance forgotten name).1
    have recorded := accounts.count_le lastStored name
    omega
  · intro name
    have balance := (extendedRow_balance forgotten name).2
    have sum := Value.occurrencesInAll_perm name stored
    rw [Value.occurrencesInAll_append, Value.occurrencesInAll_append] at sum
    have names_of_value : names.count name = value.occurrences name :=
      Value.count_markersOfAll name tracks.names
    omega
  · exact Value.valid_markersOfAll tracks.names fun other mem inner holds =>
      (givenAll other mem inner holds).valid
  · intro field mem
    have value_listed := Value.markersOfAll_ok_iff.mp ⟨names, tracks.names⟩ value
      (List.mem_singleton_self value)
    rcases List.mem_append.mp (stored.mem_iff.mp (List.mem_append_left _ mem)) with old | new
    · exact accounts.listed field old
    · refine listed_extendedRow (fun other inLast => ?_) value_listed field new
      exact accounts.listed other (lastStored.mem_iff.mpr (List.mem_append_left _ inLast))

theorem accounts_assign (accounts : s.Accounts) {assignments : List Assignment}
    (distinct : DistinctKeys assignments)
    (given : ∀ a ∈ assignments, a.value.HoldsOnly Accounts)
    (done : s.assign assignments = .ok s') : s'.Accounts := by
  obtain ⟨removed, names, taken, forgotten, tracks, result⟩ := assign_ok done
  have stored := values_assign distinct done
  obtain ⟨kept, overwritten⟩ := perm_overwritten (s := s) distinct
  have markers : s'.markers = Markers.forget removed s.markers.length (s.markers ++ names) := by
    rw [result]
  have members : s'.memberStatements = s.memberStatements := by
    rw [result]
    rfl
  apply accounts.of_replaced markers members
  · intro name
    rw [Value.count_markersOfAll name forgotten]
    exact accounts.count_le overwritten name
  · intro name
    have sum := Value.occurrencesInAll_perm name stored
    rw [Value.occurrencesInAll_append, Value.occurrencesInAll_append] at sum
    rw [Value.count_markersOfAll name forgotten, Value.count_markersOfAll name tracks.names]
    exact sum
  · refine Value.valid_markersOfAll tracks.names fun value mem inner holds => ?_
    obtain ⟨a, inAssignments, rfl⟩ := List.mem_map.mp mem
    exact (given a inAssignments inner holds).valid
  · intro value mem
    rcases List.mem_append.mp (stored.mem_iff.mp (List.mem_append_left _ mem)) with old | new
    · exact accounts.listed value old
    · exact Value.markersOfAll_ok_iff.mp ⟨names, tracks.names⟩ value new

theorem accounts_addMember (accounts : s.Accounts) {all : Bool} {member : Statement}
    (given : member.Accounts) (done : s.addMember all member = .ok s') : s'.Accounts := by
  obtain ⟨values, members⟩ := memberStatements_addMember done
  obtain ⟨taken, -, result⟩ := addMember_ok done
  have markers : s'.markers = s.markers ++ member.markers := by rw [result]
  constructor
  · intro name
    have counted := accounts.counted name
    unfold occurrences at counted ⊢
    rw [markers, values, members, List.count_append, List.flatMap_append, List.count_append,
      List.flatMap_singleton]
    omega
  · intro name mem
    rw [markers] at mem
    rcases List.mem_append.mp mem with old | new
    · exact accounts.valid name old
    · exact given.valid name new
  · rw [values]
    exact accounts.listed

/-- Every change keeps the account, if assignments of one call have different keys. -/
theorem Change.accounts (accounts : s.Accounts)
    (change : Change DistinctKeys Accounts s s') : s'.Accounts := by
  cases change with
  | header h config markers => exact accounts.of_same markers rfl rfl
  | bind bindings => exact accounts.of_same rfl rfl rfl
  | conditions predicates given done =>
      have stored := values_addPredicates done
      obtain ⟨names, taken, tracks, result⟩ := addPredicates_ok done
      subst result
      refine accounts.of_added tracks rfl rfl ?_ stored
      intro value mem
      obtain ⟨p, inPredicates, rfl⟩ := List.mem_map.mp mem
      exact given p inPredicates
  | join kind table done =>
      have values := values_addJoin done
      have result := addJoin_ok done
      subst result
      exact accounts.of_same rfl values rfl
  | attach index p valid given done =>
      have stored := values_attach valid done
      obtain ⟨names, taken, tracks, result⟩ := attach_ok done
      subst result
      exact accounts.of_added tracks rfl rfl (by simpa using given) stored
  | row row given done =>
      have stored := values_addRow done
      obtain ⟨names, taken, tracks, result⟩ := addRow_ok done
      subst result
      exact accounts.of_added tracks rfl rfl given stored
  | extend value given done => exact accounts_extendRow accounts given done
  | assign assignments obeys given done => exact accounts_assign accounts obeys given done
  | member all inner given done => exact accounts_addMember accounts given done

/-! ## Reachable statements -/

theorem ReachableBy.accounts (reach : ReachableBy DistinctKeys s) : s.Accounts := by
  apply invariant (P := Accounts) ?_ ?_ ?_ reach
  · intro config
    exact ⟨fun _ => rfl, List.forall_mem_nil _, List.forall_mem_nil _⟩
  · intro config
    exact ⟨fun _ => rfl, List.forall_mem_nil _, List.forall_mem_nil _⟩
  · intro s s' accounts change
    exact Change.accounts accounts (change.mono fun inner given => given.2)

/--
A reachable statement records each name as often as it occurs in what the
statement stores, and only names that are words.  The names that it would
forget for a replaced row or for overwritten assignments are all found.
-/
theorem recorded_names_balance (reach : ReachableBy DistinctKeys s) :
    (∀ name, s.markers.count name = s.occurrences name) ∧
      (∀ name ∈ s.markers, ∃ first rest, name.toList = first :: rest ∧
        (first = '_' ∨ first.isAlpha = true) ∧ ∀ c ∈ rest, c = '_' ∨ c.isAlphanum = true) ∧
      (∀ last value, s.rows.getLast? = some last → ∃ names,
        replacedNames last value = .ok names ∧ Markers.AllFound names s.markers) ∧
      ∀ assignments, DistinctKeys assignments → ∃ names,
        Value.markersOfAll (s.overwritten assignments) = .ok names ∧
          Markers.AllFound names s.markers := by
  have accounts := ReachableBy.accounts reach
  refine ⟨accounts.counted, ?_, ?_, ?_⟩
  · intro name mem
    exact (Parameter.isValid_iff name).mp (accounts.valid name mem)
  · intro last value found
    obtain ⟨kept, stored⟩ := perm_last found
    cases value with
    | list fields =>
        obtain ⟨names, listed⟩ := accounts.listed_of_perm stored
        refine ⟨names, listed, Markers.allFound_of_count fun name => ?_⟩
        rw [Value.count_markersOfAll name listed]
        exact accounts.count_le stored name
    | _ => exact ⟨[], rfl, Markers.allFound_of_count fun name => Nat.zero_le _⟩
  · intro assignments distinct
    obtain ⟨kept, stored⟩ := perm_overwritten (s := s) distinct
    obtain ⟨names, listed⟩ := accounts.listed_of_perm stored
    refine ⟨names, listed, Markers.allFound_of_count fun name => ?_⟩
    rw [Value.count_markersOfAll name listed]
    exact accounts.count_le stored name

/-- A statement that sets two columns to parameters. -/
def setting : Statement :=
  ((Call.set [(.name "level", .parameter "level"), (.name "rank", .parameter "rank")]).run.after
    { statement := ({} : Config).statement }).statement

theorem recorded_names_balance_set :
    setting.markers.count "rank" = setting.occurrences "rank" ∧
      ∃ names, Value.markersOfAll (setting.overwritten [⟨"rank", .name "rank", .int 1⟩]) =
        .ok names ∧ Markers.AllFound names setting.markers := by
  have reach : ReachableBy DistinctKeys setting := by
    refine .call _ (.fresh {}) rfl ?_ ?_ (fun _ mem => nomatch mem)
    · intro assignments trace resolved
      cases resolved
      decide
    · intro value mem inner holds
      simp only [Call.givenValues, List.map_cons, List.map_nil, List.mem_cons,
        List.not_mem_nil, or_false] at mem
      rcases mem with rfl | rfl <;> cases holds
  obtain ⟨counted, -, -, found⟩ := recorded_names_balance reach
  exact ⟨counted "rank", found _ (by decide)⟩

end Statement

end SqlBuilder
