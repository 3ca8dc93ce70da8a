import SqlBuilder.Proofs.OneValue
import SqlBuilder.Proofs.Overwriting

/-!
# What an overwritten value leaves behind

An assignment that takes the place of another leaves nothing of it among the
assignments and the recorded names.  The bindings that were taken over for the
old value stay: they are sent on, and a new value that binds one of their names
to something else is refused.
-/

namespace SqlBuilder

namespace Markers

/-- Names that were recorded last are forgotten without a trace. -/
theorem foldr_eraseLast_self (before names : List String) :
    names.foldr eraseLast (before ++ names) = before := by
  induction names generalizing before with
  | nil => exact List.append_nil before
  | cons name names ih =>
      rw [List.foldr_cons, List.append_cons, ih]
      unfold eraseLast
      rw [List.reverse_append, List.reverse_singleton, List.singleton_append,
        List.erase_cons_head, List.reverse_reverse]

end Markers

namespace Binding

/-! ## Taking over behind other bindings -/

/-- The name of the binding, if it has one, is free in the list. -/
def isUnclaimed (own : List Binding) (b : Binding) : Bool :=
  match b.name with
  | none => true
  | some name => (find? name own).isNone

/-- The name of the binding is free in the list, or stands for the same value there. -/
def AgreesWith (own : List Binding) (b : Binding) : Prop :=
  ∀ name earlier, b.name = some name → find? name own = some earlier →
    earlier.value.same b.value = true

variable {own taken before left right : List Binding} {b : Binding} {name : String}

theorem isUnclaimed_of_name (named : b.name = some name) :
    b.isUnclaimed own = true ↔ find? name own = none := by
  unfold isUnclaimed
  rw [named]
  exact Option.isNone_iff_eq_none

theorem agreesWith_of_unclaimed (free : b.isUnclaimed own = true) : b.AgreesWith own := by
  intro name earlier named found
  rw [(isUnclaimed_of_name named).mp free] at found
  cases found

theorem isUnclaimed_nil (b : Binding) : b.isUnclaimed [] = true := by
  unfold isUnclaimed
  cases b.name <;> rfl

theorem agreesWith_nil (b : Binding) : b.AgreesWith [] :=
  agreesWith_of_unclaimed (isUnclaimed_nil b)

/-- A name is looked up in the first of two lists, and then in the second. -/
theorem find?_append (name : String) (left right : List Binding) :
    find? name (left ++ right) = (find? name left).or (find? name right) :=
  List.find?_append

theorem isUnclaimed_append :
    b.isUnclaimed (left ++ right) = (b.isUnclaimed left && b.isUnclaimed right) := by
  unfold isUnclaimed
  cases b.name with
  | none => rfl
  | some name =>
      dsimp only
      rw [find?_append]
      cases find? name left <;> rfl

/-- A binding agrees with the first list, and with the second if its name is free before. -/
theorem agreesWith_append :
    b.AgreesWith (left ++ right) ↔
      b.AgreesWith left ∧ (b.isUnclaimed left = true → b.AgreesWith right) := by
  constructor
  · intro agrees
    refine ⟨fun name earlier named found => ?_, fun free name earlier named found => ?_⟩
    · exact agrees name earlier named (find?_append_left right found)
    · refine agrees name earlier named ?_
      rw [find?_append, (isUnclaimed_of_name named).mp free]
      exact found
  · rintro ⟨first, second⟩ name earlier named found
    rw [find?_append] at found
    cases bound : find? name left with
    | some b' =>
        rw [bound] at found
        cases found
        exact first name _ named bound
    | none =>
        rw [bound] at found
        exact second ((isUnclaimed_of_name named).mpr bound) name earlier named found

/-- A binding that agrees with what is there is taken over if its name is free. -/
theorem takeOver_ok_iff {after : List Binding} :
    takeOver own before b = .ok after ↔
      b.AgreesWith (own ++ before) ∧
        after = before ++ [b].filter (isUnclaimed (own ++ before)) := by
  have comes_in (free : b.isUnclaimed (own ++ before) = true)
      (done : takeOver own before b = .ok (before ++ [b])) :
      takeOver own before b = .ok after ↔ b.AgreesWith (own ++ before) ∧
        after = before ++ [b].filter (isUnclaimed (own ++ before)) := by
    rw [done, List.filter_cons_of_pos free, List.filter_nil,
      and_iff_right (agreesWith_of_unclaimed free), Except.ok.injEq, eq_comm]
  cases named : b.name with
  | none =>
      refine comes_in ?_ ?_
      · rw [isUnclaimed, named]
      · rw [takeOver, named]
  | some name =>
      cases found : find? name (own ++ before) with
      | none =>
          refine comes_in ((isUnclaimed_of_name named).mpr found) ?_
          simp only [takeOver, named, found]
      | some earlier =>
          have bound : ¬ b.isUnclaimed (own ++ before) = true := by
            rw [isUnclaimed_of_name named, found]
            exact Option.some_ne_none earlier
          have agrees : b.AgreesWith (own ++ before) ↔ earlier.value.same b.value = true := by
            constructor
            · intro agrees
              exact agrees name earlier named found
            · rintro same other first named' found'
              cases named.symm.trans named'
              cases found.symm.trans found'
              exact same
          rw [agrees, List.filter_cons_of_neg bound, List.filter_nil, List.append_nil]
          simp only [takeOver, named, found]
          split
          · next same => rw [and_iff_right same, Except.ok.injEq, eq_comm]
          · next differs =>
              constructor
              · rintro ⟨⟩
              · rintro ⟨same, -⟩
                exact absurd same differs

/-- What is taken over was not bound before. -/
theorem unclaimed_of_merge {nested : List Statement} (done : merge own nested = .ok taken) :
    ∀ b ∈ taken, b.isUnclaimed own = true := by
  refine Outcome.foldlM_keeps (P := fun taken => ∀ b ∈ taken, b.isUnclaimed own = true)
    (fun before b after start head other mem => ?_) (List.forall_mem_nil _) done
  obtain ⟨-, rfl⟩ := takeOver_ok_iff.mp head
  rcases List.mem_append.mp mem with old | new
  · exact start other old
  · have free := (List.mem_filter.mp new).2
    rw [isUnclaimed_append, Bool.and_eq_true] at free
    exact free.1

/-- Bindings under other names that are left out do not matter to a name. -/
theorem find?_filter_isUnclaimed (free : find? name taken = none) (bindings : List Binding) :
    find? name (bindings.filter (isUnclaimed taken)) = find? name bindings := by
  unfold find?
  rw [List.find?_filter]
  refine congrArg (List.find? · bindings) (funext fun b => ?_)
  rw [Bool.decide_and, Bool.decide_eq_true, Bool.decide_eq_true]
  cases named : b.name == some name with
  | false => exact Bool.and_false _
  | true => rw [(isUnclaimed_of_name (beq_iff_eq.mp named)).mpr free, Bool.and_true]

section Behind

variable {nested : List Statement} (apart : ∀ b ∈ taken, b.isUnclaimed own = true)
  (agree : ∀ b ∈ before, b.AgreesWith taken)

include apart in
/-- A name that is bound in the first list is free in what was taken over for it. -/
theorem unclaimed_of_bound (bound : ¬ b.isUnclaimed own = true) :
    b.isUnclaimed taken = true := by
  cases named : b.name with
  | none => rw [isUnclaimed, named]
  | some name =>
      rw [isUnclaimed_of_name named] at bound ⊢
      cases found : find? name taken with
      | none => rfl
      | some other =>
          obtain ⟨mem, sameName⟩ := mem_of_find? found
          exact absurd ((isUnclaimed_of_name sameName).mp (apart other mem)) bound

include agree in
/-- Among bindings that agree with a list it does not matter if those of its names are left out. -/
theorem agreesWith_filter (agrees : b.AgreesWith taken) :
    (b.isUnclaimed taken = true → b.AgreesWith (before.filter (isUnclaimed taken))) ↔
      b.AgreesWith before := by
  by_cases free : b.isUnclaimed taken = true
  · rw [forall_prop_of_true free]
    unfold AgreesWith
    refine forall₃_congr fun name earlier named => ?_
    rw [find?_filter_isUnclaimed ((isUnclaimed_of_name named).mp free)]
  · refine iff_of_true (fun isFree => absurd isFree free) ?_
    intro name earlier named found
    obtain ⟨other, taken_first⟩ :=
      Option.ne_none_iff_exists'.mp (mt (isUnclaimed_of_name named).mpr free)
    obtain ⟨mem, sameName⟩ := mem_of_find? found
    -- both have the value that the name stands for in the list
    have one := agree earlier mem name other sameName taken_first
    exact Value.same_trans (Value.same_symm one) (agrees name other named taken_first)

/-- The names that are free behind all the bindings are free in each part. -/
theorem isUnclaimed_behind :
    b.isUnclaimed (own ++ taken ++ before.filter (isUnclaimed taken)) =
      (b.isUnclaimed taken && b.isUnclaimed (own ++ before)) := by
  cases free : b.isUnclaimed taken with
  | false => rw [isUnclaimed_append, isUnclaimed_append, free, Bool.and_false]; rfl
  | true =>
      have kept : b.isUnclaimed (before.filter (isUnclaimed taken)) = b.isUnclaimed before := by
        cases named : b.name with
        | none => rw [isUnclaimed, isUnclaimed, named]
        | some name =>
            rw [isUnclaimed, isUnclaimed, named]
            dsimp only
            rw [find?_filter_isUnclaimed ((isUnclaimed_of_name named).mp free)]
      rw [isUnclaimed_append, isUnclaimed_append, isUnclaimed_append, free, kept, Bool.and_true,
        Bool.true_and]

include apart agree in
/-- What agrees behind others agrees without them and with them. -/
theorem agreesWith_behind :
    b.AgreesWith (own ++ taken ++ before.filter (isUnclaimed taken)) ↔
      b.AgreesWith (own ++ before) ∧ b.AgreesWith taken := by
  rw [agreesWith_append, agreesWith_append, agreesWith_append, isUnclaimed_append,
    Bool.and_eq_true]
  by_cases free : b.isUnclaimed own = true
  · rw [and_iff_right free, forall_prop_of_true free, forall_prop_of_true free, and_assoc,
      and_assoc, and_congr_right_iff]
    intro _
    rw [and_comm (b := b.AgreesWith taken), and_congr_right_iff]
    exact agreesWith_filter agree
  · have agrees := agreesWith_of_unclaimed (unclaimed_of_bound apart free)
    simp only [agrees, free, Bool.false_eq_true, false_and, false_implies, and_true]

include apart agree in
/-- A binding is taken over behind others as without them, if it agrees with them. -/
theorem takeOver_behind {after : List Binding} :
    takeOver (own ++ taken) (before.filter (isUnclaimed taken)) b = .ok after ↔
      ∃ alone, takeOver own before b = .ok alone ∧ b.AgreesWith taken ∧
        after = alone.filter (isUnclaimed taken) := by
  have left_out : (before ++ [b].filter (isUnclaimed (own ++ before))).filter (isUnclaimed taken) =
      before.filter (isUnclaimed taken) ++
        [b].filter (isUnclaimed (own ++ taken ++ before.filter (isUnclaimed taken))) := by
    rw [List.filter_append, List.filter_filter]
    exact congrArg (before.filter (isUnclaimed taken) ++ [b].filter ·)
      (funext fun _ => isUnclaimed_behind.symm)
  rw [takeOver_ok_iff, agreesWith_behind apart agree, ← left_out]
  constructor
  · rintro ⟨⟨agrees, agrees_taken⟩, rfl⟩
    exact ⟨_, takeOver_ok_iff.mpr ⟨agrees, rfl⟩, agrees_taken, rfl⟩
  · rintro ⟨alone, done, agrees_taken, rfl⟩
    obtain ⟨agrees, rfl⟩ := takeOver_ok_iff.mp done
    exact ⟨⟨agrees, agrees_taken⟩, rfl⟩

include apart agree in
/-- Bindings are taken over behind others as without them, if all agree with them. -/
theorem foldlM_takeOver_behind {bindings after : List Binding} :
    bindings.foldlM (takeOver (own ++ taken)) (before.filter (isUnclaimed taken)) = .ok after ↔
      ∃ alone, bindings.foldlM (takeOver own) before = .ok alone ∧
        (∀ b ∈ bindings, b.AgreesWith taken) ∧ after = alone.filter (isUnclaimed taken) := by
  induction bindings generalizing before with
  | nil =>
      constructor
      · rintro ⟨⟩
        exact ⟨before, rfl, List.forall_mem_nil _, rfl⟩
      · rintro ⟨alone, ⟨⟩, -, rfl⟩
        rfl
  | cons first rest ih =>
      -- what is there after the first binding agrees as well
      have goes_on {between : List Binding} (head : takeOver own before first = .ok between)
          (agrees : first.AgreesWith taken) : ∀ b ∈ between, b.AgreesWith taken := by
        obtain ⟨-, rfl⟩ := takeOver_ok_iff.mp head
        intro b mem
        rcases List.mem_append.mp mem with old | new
        · exact agree b old
        · rw [List.mem_singleton.mp (List.mem_filter.mp new).1]
          exact agrees
      rw [List.foldlM_cons, List.foldlM_cons]
      constructor
      · intro done
        obtain ⟨between, head, tail⟩ := Outcome.except_bind_ok done
        obtain ⟨alone, alone_head, agrees, rfl⟩ := (takeOver_behind apart agree).mp head
        obtain ⟨all, alone_tail, others, rfl⟩ := (ih (goes_on alone_head agrees)).mp tail
        refine ⟨all, ?_, List.forall_mem_cons.mpr ⟨agrees, others⟩, rfl⟩
        rw [alone_head]
        exact alone_tail
      · rintro ⟨all, done, agrees, rfl⟩
        obtain ⟨between, head, tail⟩ := Outcome.except_bind_ok done
        obtain ⟨agrees_first, others⟩ := List.forall_mem_cons.mp agrees
        rw [(takeOver_behind apart agree).mpr ⟨between, head, agrees_first, rfl⟩]
        exact (ih (goes_on head agrees_first)).mpr ⟨all, tail, others, rfl⟩

include apart in
/-- Statements are merged behind other bindings as without them, if they agree with them. -/
theorem merge_behind {after : List Binding} :
    merge (own ++ taken) nested = .ok after ↔
      ∃ alone, merge own nested = .ok alone ∧
        (∀ inner ∈ nested, ∀ b ∈ inner.bindings, b.AgreesWith taken) ∧
        after = alone.filter (isUnclaimed taken) := by
  have none_yet : ∀ b ∈ ([] : List Binding), b.AgreesWith taken :=
    List.forall_mem_nil _
  refine (foldlM_takeOver_behind apart none_yet).trans ?_
  refine exists_congr fun alone => and_congr_right fun _ => and_congr_left fun _ => ?_
  constructor
  · intro agrees inner mem b inBindings
    exact agrees b (List.mem_flatMap.mpr ⟨inner, mem, inBindings⟩)
  · intro agrees b mem
    obtain ⟨inner, inNested, inBindings⟩ := List.mem_flatMap.mp mem
    exact agrees inner inNested b inBindings

end Behind

end Binding

/-- A single value holds its own statements only. -/
theorem Value.nestedInAll_singleton (value : Value) : nestedInAll [value] = value.nested :=
  List.append_nil _

namespace Statement

/-! ## Storing one assignment after the other -/

variable {s m t : Statement}

/-- The statement after an assignment, with what its value brings and without what it replaces. -/
def withAssignment (s : Statement) (a : Assignment) (replaced names : List String)
    (taken : List Binding) : Statement :=
  { s with
    bindings := s.bindings ++ taken
    markers := Markers.forget replaced s.markers.length (s.markers ++ names)
    assignments := Keyed.upsert Assignment.key a s.assignments }

/-- An assignment is stored if the names of the old value are listed and the new one is tracked. -/
theorem assign_single_ok_iff {a : Assignment} :
    s.assign [a] = .ok t ↔ ∃ replaced names taken,
      Value.markersOfAll (s.overwritten [a]) = .ok replaced ∧ s.Tracks [a.value] names taken ∧
        t = s.withAssignment a replaced names taken := by
  constructor
  · exact assign_ok
  · rintro ⟨replaced, names, taken, forgotten, tracks, rfl⟩
    exact Tracks.assign_eq tracks forgotten

/-- After two assignments to one key, only the bindings are left of the first. -/
theorem withAssignment_again {a b : Assignment} (same : a.key = b.key)
    (replaced names more : List String) (taken brought : List Binding) :
    (s.withAssignment a replaced names taken).withAssignment b names more brought =
      s.withAssignment b replaced more (taken ++ brought) := by
  unfold withAssignment
  dsimp only
  rw [Keyed.upsert_upsert Assignment.key same, List.append_assoc, Markers.forget_append,
    Markers.forget_append, Markers.forget_append, Markers.foldr_eraseLast_self]

/-- After an assignment, its value is what the next one to the same key overwrites. -/
theorem overwritten_withAssignment {a b : Assignment} (same : a.key = b.key)
    (replaced names : List String) (taken : List Binding) :
    (s.withAssignment a replaced names taken).overwritten [b] = [a.value] := by
  rw [overwritten_eq, withAssignment, Keyed.pushedOut, List.flatMap_singleton,
    Keyed.find?_upsert, if_pos same]
  rfl

/--
The statement is what a value alone makes of `s`, except that other bindings
came in before those of the value.  The value agrees with them, and brings the
bindings whose names are free among them.
-/
structure StoredBehind (s : Statement) (taken : List Binding) (operand : Value)
    (alone t : Statement) : Prop where
  agrees : ∀ inner ∈ operand.nested, ∀ b ∈ inner.bindings, b.AgreesWith taken
  result : ∃ brought, alone.bindings = s.bindings ++ brought ∧
    t = { alone with
      bindings := s.bindings ++ (taken ++ brought.filter (Binding.isUnclaimed taken)) }

/-- Behind no bindings at all, a value is stored as if alone. -/
theorem storedBehind_nil {operand : Value} {alone : Statement}
    (grows : s.bindings <+: alone.bindings) : s.StoredBehind [] operand alone t ↔ t = alone := by
  obtain ⟨brought, brings⟩ := grows
  have all_kept (b : List Binding) : b.filter (Binding.isUnclaimed []) = b :=
    List.filter_eq_self.mpr fun b _ => Binding.isUnclaimed_nil b
  have unchanged :
      { alone with
        bindings := s.bindings ++ ([] ++ brought.filter (Binding.isUnclaimed [])) } = alone := by
    rw [all_kept, List.nil_append, brings]
    -- a statement lies in a nest of types, so its fields have to be taken apart
    cases alone
    rfl
  constructor
  · rintro ⟨-, brought', brings', result⟩
    cases List.append_cancel_left (brings.trans brings')
    exact result.trans unchanged
  · rintro rfl
    exact ⟨fun _ _ b _ => Binding.agreesWith_nil b, brought, brings.symm, unchanged.symm⟩

/-- A value is stored in the place of another as behind the bindings that came with the other. -/
theorem assign_again {key : String} {column : Column} {old : Value}
    (first : s.assign [⟨key, column, old⟩] = .ok m) :
    ∃ taken, m.bindings = s.bindings ++ taken ∧
      Binding.merge s.bindings old.nested = .ok taken ∧ ∀ operand t,
        m.assign [⟨key, column, operand⟩] = .ok t ↔
          ∃ alone, s.assign [⟨key, column, operand⟩] = .ok alone ∧
            s.StoredBehind taken operand alone t := by
  obtain ⟨replaced, names, taken, forgotten, ⟨listed, merged⟩, rfl⟩ :=
    assign_single_ok_iff.mp first
  rw [Value.nestedInAll_singleton] at merged
  have apart := Binding.unclaimed_of_merge merged
  refine ⟨taken, rfl, merged, fun operand t => ?_⟩
  have same : (⟨key, column, old⟩ : Assignment).key =
      (⟨key, column, operand⟩ : Assignment).key := rfl
  rw [assign_single_ok_iff, overwritten_withAssignment same]
  constructor
  · rintro ⟨forgets, more, after, listed', ⟨others, behind⟩, rfl⟩
    cases listed.symm.trans listed'
    rw [Value.nestedInAll_singleton] at behind
    obtain ⟨brought, alone, agrees, rfl⟩ := (Binding.merge_behind apart).mp behind
    refine ⟨s.withAssignment ⟨key, column, operand⟩ replaced more brought, ?_, agrees, brought,
      rfl, withAssignment_again same replaced names more taken _⟩
    rw [← Value.nestedInAll_singleton] at alone
    exact assign_single_ok_iff.mpr ⟨replaced, more, brought, forgotten, ⟨others, alone⟩, rfl⟩
  · rintro ⟨alone, done, agrees, brought, brings, rfl⟩
    obtain ⟨replaced', more, brought', forgotten', ⟨others, merges⟩, rfl⟩ :=
      assign_single_ok_iff.mp done
    cases forgotten.symm.trans forgotten'
    cases List.append_cancel_left brings
    rw [Value.nestedInAll_singleton] at merges
    have behind := (Binding.merge_behind apart).mpr ⟨brought, merges, agrees, rfl⟩
    rw [← Value.nestedInAll_singleton] at behind
    exact ⟨names, more, _, listed, ⟨others, behind⟩,
      (withAssignment_again same replaced names more taken _).symm⟩

end Statement

namespace Call

/--
A value that is set in the place of another is stored as behind the bindings
that were taken over for the other: they stay, and a value that binds one of
their names to something else is refused.  Nothing else is left of the other
value, and nothing at all if no bindings came with it.
-/
theorem set_again {column : Column} {old : Value} {session mid : Session} {key : String}
    {later : Trace} (first : (Call.set [(column, old)]).run session = .ok .done mid)
    (keyed : column.key session.trace = .ok key mid.trace)
    (again : column.key mid.trace = .ok key later) :
    ∃ taken, mid.statement.bindings = session.statement.bindings ++ taken ∧
      Binding.merge session.statement.bindings old.nested = .ok taken ∧
      (∀ operand left,
        (Call.set [(column, operand)]).run mid = .ok .done left ↔
          left.trace = later ∧ ∃ alone,
            (Call.set [(column, operand)]).run session = .ok .done alone ∧
            session.statement.StoredBehind taken operand alone.statement left.statement) ∧
      (taken = [] → ∀ operand left,
        (Call.set [(column, operand)]).run mid = .ok .done left ↔
          left.trace = later ∧ ∃ alone,
            (Call.set [(column, operand)]).run session = .ok .done alone ∧
            left.statement = alone.statement) := by
  obtain ⟨-, _, keyed', stored⟩ := set_single_ok_iff.mp first
  cases keyed.symm.trans keyed'
  obtain ⟨taken, grown, merged, stores⟩ := Statement.assign_again stored
  have accepted (operand : Value) (left : Session) :
      (Call.set [(column, operand)]).run mid = .ok .done left ↔
        left.trace = later ∧ ∃ alone,
          (Call.set [(column, operand)]).run session = .ok .done alone ∧
          session.statement.StoredBehind taken operand alone.statement left.statement := by
    constructor
    · intro run
      obtain ⟨-, _, worked, done⟩ := set_single_ok_iff.mp run
      cases again.symm.trans worked
      obtain ⟨alone, done, behind⟩ := (stores operand _).mp done
      refine ⟨rfl, { statement := alone, trace := mid.trace }, ?_, behind⟩
      exact set_single_ok_iff.mpr ⟨rfl, key, keyed, done⟩
    · rintro ⟨trace, alone, run, behind⟩
      obtain ⟨-, _, worked, done⟩ := set_single_ok_iff.mp run
      cases alone
      cases keyed.symm.trans worked
      exact set_single_ok_iff.mpr
        ⟨rfl, key, trace ▸ again, (stores operand _).mpr ⟨_, done, behind⟩⟩
  refine ⟨taken, grown, merged, accepted, ?_⟩
  rintro rfl operand left
  refine (accepted operand left).trans (and_congr_right fun _ => ?_)
  refine exists_congr fun alone => and_congr_right fun run => ?_
  have grows := (Call.set [(column, operand)]).bindings_grow session
  rw [Build.after_of_ok run] at grows
  exact Statement.storedBehind_nil grows

/-- Set one column to a sub-query that binds `team`. -/
def setTeam (tag : Nat) (team : Int64) : Call :=
  .set [(.name "best", .query tag (Statement.binder "team" team))]

theorem set_again_same_team :
    ∃ mid left alone,
      (setTeam 0 1).run .fresh = .ok .done mid ∧
      (setTeam 1 1).run .fresh = .ok .done alone ∧
      (setTeam 1 1).run mid = .ok .done left ∧
      Session.fresh.statement.StoredBehind [.named "team" (.int 1)]
        (.query 1 (Statement.binder "team" 1)) alone.statement left.statement := by
  have first : (setTeam 0 1).run .fresh = .ok .done _ := rfl
  obtain ⟨taken, -, merged, accepted, -⟩ := set_again first rfl rfl
  cases merged
  obtain ⟨-, alone, run, behind⟩ := (accepted (.query 1 (Statement.binder "team" 1)) _).mp rfl
  exact ⟨_, _, alone, first, run, rfl, behind⟩

/-- After another value, a value is refused or more is bound, though it is fine alone. -/
theorem superseded_team_is_still_bound :
    Session.fresh.statement.Reachable ∧ (Statement.binder "team" 1).Reachable ∧
      (Statement.binder "team" 2).Reachable ∧
      Session.fresh.statement.assigned? "best" = none ∧
      ∃ mid alone refused,
        (setTeam 0 1).run .fresh = .ok .done mid ∧
        (setTeam 1 2).run .fresh = .ok .done alone ∧
        (setTeam 1 2).run mid = .error (.argument (.conflictingBinding "team")) refused ∧
        ∃ left plain,
          (Call.set [(.name "best", .int 1)]).run mid = .ok .done left ∧
          (Call.set [(.name "best", .int 1)]).run .fresh = .ok .done plain ∧
          left.statement.bindings.length = 1 ∧ plain.statement.bindings.length = 0 :=
  ⟨.fresh {}, Statement.reachable_binder "team" 1, Statement.reachable_binder "team" 2, rfl,
    _, _, _, rfl, rfl, rfl, _, _, rfl, rfl, rfl, rfl⟩

end Call

end SqlBuilder
