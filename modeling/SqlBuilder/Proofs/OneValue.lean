import Mathlib.Data.List.Induction
import SqlBuilder.Proofs.Numbering
import SqlBuilder.Proofs.Step

/-!
# One value for a name

Values that come in through nested statements never give a name a second
value: a different one is refused.  Values that are bound directly are added
as they are, and a parameter always stands for the first binding of its name.
So the names of a statement have one value each as long as every value that is
bound directly agrees with the first one of its name, and only then.
-/

namespace SqlBuilder

/-! ## Equality of values is symmetric -/

theorem Double.equal_symm {x y : Double} (same : x.equal y = true) : y.equal x = true := by
  rw [Double.equal_iff] at same ⊢
  obtain ⟨xNumber, yNumber, same⟩ := same
  exact ⟨yNumber, xNumber, same.imp Eq.symm And.symm⟩

theorem Column.same_symm {x y : Column} (same : x.same y = true) : y.same x = true := by
  cases x <;> cases y <;> simp_all [Column.same, Deferred.same]

namespace Value

mutual

/-- Equality of values is symmetric. -/
theorem same_symm : ∀ {u v : Value}, u.same v = true → v.same u = true
  | .null, v, equal => by
      cases v <;> simp only [same, Bool.false_eq_true] at equal
      rfl
  | .float _, v, equal => by
      cases v <;> simp only [same, Bool.false_eq_true] at equal
      exact Double.equal_symm equal
  | .column _, v, equal => by
      cases v <;> simp only [same, Bool.false_eq_true] at equal
      exact Column.same_symm equal
  | .list _, v, equal => by
      cases v <;> simp only [same, Bool.false_eq_true] at equal
      exact sameAll_symm equal
  -- the other kinds are compared by equality of what they hold
  | .bool _, v, equal | .int _, v, equal | .text _, v, equal | .date _, v, equal
  | .dateTime _, v, equal | .parameter _, v, equal | .query _ _, v, equal
  | .group _ _, v, equal => by
      cases v <;> simp only [same, Bool.false_eq_true] at equal
      simp only [same, beq_iff_eq] at equal ⊢
      exact equal.symm
termination_by structural value => value

/-- Equality of lists of values is symmetric. -/
theorem sameAll_symm : ∀ {us vs : List Value}, sameAll us vs = true → sameAll vs us = true
  | [], vs, equal => by
      cases vs <;> simp only [sameAll, Bool.false_eq_true] at equal
      rfl
  | u :: us, vs, equal => by
      cases vs <;> simp only [sameAll, Bool.false_eq_true, Bool.and_eq_true] at equal
      rw [sameAll, Bool.and_eq_true]
      exact ⟨same_symm equal.1, sameAll_symm equal.2⟩
termination_by structural values => values

end

theorem Agrees.symm {u v : Value} (agrees : u.Agrees v) : v.Agrees u :=
  agrees.imp Eq.symm same_symm

end Value

namespace Binding

/-! ## Lists of bindings -/

/-- No name is bound to two different values. -/
def OneValued (bindings : List Binding) : Prop :=
  ∀ name first second, first ∈ bindings → second ∈ bindings → first.name = some name →
    second.name = some name → first.value.Agrees second.value

/-- Bindings that are added, each of which agrees with the first one of its name so far. -/
def Repeats (own added : List Binding) : Prop :=
  ∀ front b back, added = front ++ b :: back → ∀ name earlier, b.name = some name →
    find? name (own ++ front) = some earlier → earlier.value.Agrees b.value

/-- The first bindings of a list have one value for each name if the list has. -/
theorem OneValued.of_prefix {own all : List Binding} (grows : own <+: all) (one : OneValued all) :
    OneValued own :=
  fun name first second inFirst inSecond =>
    one name first second (grows.subset inFirst) (grows.subset inSecond)

/-- A bound name has a first binding. -/
theorem exists_find? {bindings : List Binding} {b : Binding} {name : String}
    (mem : b ∈ bindings) (named : b.name = some name) :
    ∃ earlier, find? name bindings = some earlier := by
  refine Option.isSome_iff_exists.mp ?_
  unfold find?
  rw [List.find?_isSome]
  exact ⟨b, mem, by simp [named]⟩

/-- One more binding has to agree with the first one of its name. -/
theorem oneValued_append_singleton {own : List Binding} {b : Binding} :
    OneValued (own ++ [b]) ↔ OneValued own ∧ ∀ name earlier, b.name = some name →
      find? name own = some earlier → earlier.value.Agrees b.value := by
  constructor
  · intro one
    refine ⟨one.of_prefix (List.prefix_append own [b]), ?_⟩
    intro name earlier named found
    obtain ⟨mem, same⟩ := mem_of_find? found
    exact one name earlier b (List.mem_append_left _ mem) (by simp) same named
  · rintro ⟨one, agrees⟩ name first second inFirst inSecond firstNamed secondNamed
    have old_new (old : Binding) (mem : old ∈ own) (oldNamed : old.name = some name)
        (named : b.name = some name) : old.value.Agrees b.value := by
      obtain ⟨earlier, found⟩ := exists_find? mem oldNamed
      obtain ⟨inOwn, same⟩ := mem_of_find? found
      exact (one name old earlier mem inOwn oldNamed same).trans (agrees name earlier named found)
    rcases List.mem_append.mp inFirst with firstOld | firstNew
    · rcases List.mem_append.mp inSecond with secondOld | secondNew
      · exact one name first second firstOld secondOld firstNamed secondNamed
      · obtain rfl := List.mem_singleton.mp secondNew
        exact old_new first firstOld firstNamed secondNamed
    · obtain rfl := List.mem_singleton.mp firstNew
      rcases List.mem_append.mp inSecond with secondOld | secondNew
      · exact (old_new second secondOld secondNamed firstNamed).symm
      · obtain rfl := List.mem_singleton.mp secondNew
        exact .refl _

/-- Several more bindings have to agree, each with the first one of its name. -/
theorem oneValued_append {own added : List Binding} :
    OneValued (own ++ added) ↔ OneValued own ∧ Repeats own added := by
  induction added using List.reverseRecOn with
  | nil =>
      rw [List.append_nil]
      refine ⟨fun one => ⟨one, ?_⟩, And.left⟩
      intro front b back split
      exact absurd split (by simp)
  | append_singleton added last ih =>
      rw [← List.append_assoc, oneValued_append_singleton, ih]
      constructor
      · rintro ⟨⟨one, repeats⟩, agrees⟩
        refine ⟨one, fun front b back split => ?_⟩
        rcases List.eq_nil_or_concat back with rfl | ⟨back, final, rfl⟩
        · obtain ⟨rfl, same⟩ := List.append_inj' split rfl
          cases same
          exact agrees
        · rw [List.concat_eq_append, ← List.cons_append, ← List.append_assoc] at split
          obtain ⟨rfl, -⟩ := List.append_inj' split rfl
          exact repeats front b back rfl
      · rintro ⟨one, repeats⟩
        refine ⟨⟨one, fun front b back split => ?_⟩, ?_⟩
        · exact repeats front b (back ++ [last]) (by rw [split]; simp)
        · exact repeats added last [] rfl

/-- Taking over a binding gives no name a second value. -/
theorem takeOver_oneValued {own taken taken' : List Binding} {binding : Binding}
    (one : OneValued (own ++ taken)) (done : takeOver own taken binding = .ok taken') :
    OneValued (own ++ taken') := by
  unfold takeOver at done
  split at done
  · next unnamed =>
      cases done
      rw [← List.append_assoc, oneValued_append_singleton]
      refine ⟨one, fun name earlier named => ?_⟩
      rw [unnamed] at named
      cases named
  · next name named =>
      split at done
      · next unbound =>
          cases done
          rw [← List.append_assoc, oneValued_append_singleton]
          refine ⟨one, fun other earlier same found => ?_⟩
          rw [named] at same
          cases same
          rw [unbound] at found
          cases found
      · split at done
        · cases done
          exact one
        · cases done

/-- Taking over the bindings of nested statements gives no name a second value. -/
theorem merge_oneValued {own taken : List Binding} {nested : List Statement}
    (one : OneValued own) (done : merge own nested = .ok taken) : OneValued (own ++ taken) := by
  have start : OneValued (own ++ []) := by rwa [List.append_nil]
  exact Outcome.foldlM_keeps (P := fun taken => OneValued (own ++ taken))
    (fun _ _ _ => takeOver_oneValued) start done

end Binding

/-! ## Steps and calls -/

/-- A step gives no name a second value if what it binds directly agrees with the first one. -/
theorem Statement.Step.oneValued {s s' : Statement} (one : Binding.OneValued s.bindings)
    (step : Step (fun s bindings => Binding.Repeats s.bindings bindings) s s') :
    Binding.OneValued s'.bindings := by
  cases step with
  | bind bindings bound => exact Binding.oneValued_append.mpr ⟨one, bound⟩
  | conditions predicates valid done =>
      obtain ⟨names, taken, tracks, rfl⟩ := addPredicates_ok done
      exact Binding.merge_oneValued one tracks.taken
  | attach index p valid done =>
      obtain ⟨names, taken, tracks, rfl⟩ := attach_ok done
      exact Binding.merge_oneValued one tracks.taken
  | row row done =>
      obtain ⟨names, taken, tracks, rfl⟩ := addRow_ok done
      exact Binding.merge_oneValued one tracks.taken
  | extend value done =>
      obtain ⟨last, replaced, names, taken, -, -, tracks, rfl⟩ := extendRow_ok done
      exact Binding.merge_oneValued one tracks.taken
  | assign assignments done =>
      obtain ⟨replaced, names, taken, -, tracks, rfl⟩ := assign_ok done
      exact Binding.merge_oneValued one tracks.taken
  | member all inner done =>
      obtain ⟨taken, merged, rfl⟩ := addMember_ok done
      exact Binding.merge_oneValued one merged
  | _ => exact one

namespace Call

/-- What a call binds directly agrees, value by value, with the first one of its name. -/
abbrev BindsAlike (c : Call) (s : Statement) : Prop :=
  c.Binds (fun s bindings => Binding.Repeats s.bindings bindings) s

/-- A call leaves one value for each name just if it found that, and what it binds agrees. -/
theorem oneValued_run_iff (c : Call) (session : Session) :
    Binding.OneValued (c.run.after session).statement.bindings ↔
      Binding.OneValued session.statement.bindings ∧ c.BindsAlike session.statement := by
  constructor
  · intro one
    refine ⟨one.of_prefix (c.bindings_grow session), ?_⟩
    cases c with
    | bind bindings => exact (Binding.oneValued_append.mp one).2
    | _ => trivial
  · rintro ⟨one, alike⟩
    exact Statement.Steps.keep (fun _ _ => Statement.Step.oneValued) one (c.steps_run alike)

/-- The same for each call that is made in a run. -/
def AllBindAlike (tolerant : Bool) : List Call → Session → Prop
  | [], _ => True
  | c :: cs, session =>
    c.BindsAlike session.statement ∧ ∀ left,
      Build.step tolerant c.run session = .ok () left → AllBindAlike tolerant cs left

/-- A run leaves one value for each name just if it found that, and what it binds agrees. -/
theorem oneValued_runAll_iff (tolerant : Bool) (cs : List Call) (session : Session) :
    Binding.OneValued ((runAll tolerant cs).after session).statement.bindings ↔
      Binding.OneValued session.statement.bindings ∧ AllBindAlike tolerant cs session := by
  induction cs generalizing session with
  | nil => exact ⟨fun one => ⟨one, trivial⟩, And.left⟩
  | cons c cs ih =>
      have step := oneValued_run_iff c session
      rw [← Build.after_step tolerant c.run session] at step
      rw [runAll_cons]
      cases ran : Build.step tolerant c.run session with
      | ok answer left =>
          rw [Build.after_of_ok ran] at step
          have went : (Build.step tolerant c.run >>= fun _ => runAll tolerant cs).after session =
              (runAll tolerant cs).after left := by
            unfold Build.after
            rw [Outcome.bind_of_ok ran]
          rw [went, ih left, step, and_assoc]
          refine and_congr_right fun _ => and_congr_right fun _ => ⟨?_, ?_⟩
          · intro alike other same
            rw [ran] at same
            cases same
            exact alike
          · intro alike
            exact alike left ran
      | error error left =>
          rw [Build.after_of_error ran] at step
          rw [Build.after_of_error (Outcome.bind_of_error ran), step]
          refine and_congr_right fun _ => ⟨fun alike => ⟨alike, ?_⟩, And.left⟩
          intro other same
          rw [ran] at same
          cases same

end Call

namespace Statement

/--
Names have one value each after a run just if they had before and every value
bound directly agreed with the first one of its name.  A parameter stands for
the first binding of its name: after a value is bound, for the earlier one if
there is one, and otherwise for the new one.  So the new value takes effect
just if the name was free, or had that value already.
-/
theorem one_value_for_a_name (tolerant : Bool) (calls : List Call) (session : Session)
    (given : String) (v : Value) :
    (Binding.OneValued ((Call.runAll tolerant calls).after session).statement.bindings ↔
      Binding.OneValued session.statement.bindings ∧ Call.AllBindAlike tolerant calls session) ∧
    ∃ k b,
      ((Call.bind [.named given v]).run.after session).statement.BindsAt
        (Parameter.name given) k b ∧
      b = (Binding.find? (Parameter.name given) session.statement.bindings).getD
        (.named given v) ∧
      (b.value.Agrees v ↔ ∀ earlier,
        Binding.find? (Parameter.name given) session.statement.bindings = some earlier →
          earlier.value.Agrees v) := by
  refine ⟨Call.oneValued_runAll_iff tolerant calls session, ?_⟩
  have bindings : ((Call.bind [.named given v]).run.after session).statement.bindings =
      session.statement.bindings ++ [.named given v] := rfl
  cases found : Binding.find? (Parameter.name given) session.statement.bindings with
  | none =>
      have first := Binding.find?_append_singleton (b := .named given v) found rfl
      rw [← bindings] at first
      obtain ⟨k, binds⟩ := BindsAt.of_find? first
      refine ⟨k, _, binds, rfl, ?_, fun _ => Value.Agrees.refl v⟩
      rintro - earlier ⟨⟩
  | some b =>
      have first := Binding.find?_append_left [.named given v] found
      rw [← bindings] at first
      obtain ⟨k, binds⟩ := BindsAt.of_find? first
      refine ⟨k, b, binds, rfl, ?_, fun alike => alike b rfl⟩
      rintro alike earlier ⟨⟩
      exact alike

/-- A statement that binds a name twice, to different values. -/
def boundTwice : Statement :=
  ((Call.bind [.named "id" (.int 2)]).run.after { statement := binder "id" 1 }).statement

/-- The second value of a name is neither refused nor takes effect. -/
theorem second_value_without_effect :
    boundTwice.Reachable ∧ ¬ Binding.OneValued boundTwice.bindings ∧
      boundTwice.BindsAt "id" 1 (.named "id" (.int 1)) := by
  have reach : boundTwice.Reachable :=
    .call _ (reachable_binder "id" 1) rfl trivial (fun _ mem => nomatch mem)
      (fun _ mem => nomatch mem)
  refine ⟨reach, ?_, ?_⟩
  · intro one
    have agrees : (Value.int 1).Agrees (.int 2) :=
      one "id" (.named "id" (.int 1)) (.named "id" (.int 2)) List.mem_cons_self
        (List.mem_cons_of_mem _ List.mem_cons_self) rfl rfl
    rcases agrees with equal | same
    · cases equal
    · cases same
  · have found : Binding.find? "id" boundTwice.bindings = some (.named "id" (.int 1)) := rfl
    obtain ⟨k, binds⟩ := BindsAt.of_find? found
    have first : (boundTwice.scope .postgres).position? "id" = some 1 := rfl
    have position := binds.position .postgres
    rw [first] at position
    cases position
    exact binds

end Statement

end SqlBuilder
