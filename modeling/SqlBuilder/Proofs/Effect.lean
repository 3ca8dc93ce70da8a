import SqlBuilder.Proofs.Whole

/-!
# What a call does to a statement

A call leaves a session whether it answers or fails.  Two things are said of
calls here.  A call moves statements along a relation if every outcome stands
in the relation to the statement it started with.  A call is atomic if its
failure leaves the statement as it was.  Both are derived from the steps that
a call is made of.
-/

namespace SqlBuilder

namespace Build

variable {α β : Type} {R : Statement → Statement → Prop}

/-- The session that a call leaves, whether it answers or fails. -/
def after (call : Build α) (session : Session) : Session :=
  match call session with
  | .ok _ left => left
  | .error _ left => left

/-- Every outcome of the call stands in the relation to the statement before it. -/
def Moves (R : Statement → Statement → Prop) (call : Build α) : Prop :=
  ∀ session, R session.statement (call.after session).statement

/-- The call reads the statement but never changes it. -/
def Reads (call : Build α) : Prop :=
  call.Moves fun before left => left = before

/-- A failure of the call leaves the statement as it was. -/
def Atomic (call : Build α) : Prop :=
  ∀ session error left, call session = .error error left → left.statement = session.statement

theorem after_of_ok {call : Build α} {session left : Session} {answer : α}
    (run : call session = .ok answer left) : call.after session = left := by
  unfold after
  rw [run]

theorem after_of_error {call : Build α} {session left : Session} {error : Error}
    (run : call session = .error error left) : call.after session = left := by
  unfold after
  rw [run]

/-- A sequence of calls ends in the first or goes on where the first answered. -/
theorem after_bind (first : Build α) (next : α → Build β) (session : Session) :
    (first >>= next).after session = first.after session ∨
      ∃ answer left, first session = .ok answer left ∧
        (first >>= next).after session = (next answer).after left := by
  cases run : first session with
  | ok answer left =>
      refine Or.inr ⟨answer, left, rfl, ?_⟩
      unfold after
      rw [Outcome.bind_of_ok run]
  | error error left =>
      refine Or.inl ?_
      rw [after_of_error run, after_of_error (Outcome.bind_of_error run)]

/-- What is answered in the end has no effect. -/
theorem after_bind_pure (call : Build α) (answer : α → β) (session : Session) :
    (call >>= fun a => pure (answer a)).after session = call.after session := by
  rcases after_bind call (fun a => pure (answer a)) session with same | ⟨_, left, run, went⟩
  · exact same
  · rw [after_of_ok run]
    exact went

theorem update_ok {f : Statement → Statement} {session left : Session} {answer : Unit}
    (run : update f session = .ok answer left) :
    left = { session with statement := f session.statement } := by
  cases run
  rfl

theorem change_ok {f : Statement → Except Error Statement} {session left : Session} {answer : Unit}
    (run : change f session = .ok answer left) :
    f session.statement = .ok left.statement ∧ left.trace = session.trace := by
  unfold change at run
  cases done : f session.statement with
  | ok s =>
      rw [done] at run
      cases run
      exact ⟨rfl, rfl⟩
  | error error =>
      rw [done] at run
      cases run

theorem change_error {f : Statement → Except Error Statement} {session left : Session}
    {error : Error} (run : change f session = .error error left) :
    f session.statement = .error error ∧ left = session := by
  unfold change at run
  cases failed : f session.statement with
  | ok s =>
      rw [failed] at run
      cases run
  | error error =>
      rw [failed] at run
      cases run
      exact ⟨rfl, rfl⟩

/-- A change fails and changes nothing, or leaves its result. -/
theorem after_change (f : Statement → Except Error Statement) (session : Session) :
    ((change f).after session).statement = session.statement ∨
      f session.statement = .ok ((change f).after session).statement := by
  unfold after change
  cases f session.statement with
  | ok s => exact Or.inr rfl
  | error error => exact Or.inl rfl

section Observations

variable {action : EStateM Error Trace α} {session left : Session} {trace : Trace} {answer : α}

theorem observe_of_ok (run : action session.trace = .ok answer trace) :
    observe action session = .ok answer { session with trace } := by
  unfold observe
  rw [run]

theorem observe_of_error {error : Error} (run : action session.trace = .error error trace) :
    observe action session = .error error { session with trace } := by
  unfold observe
  rw [run]

/-- An observation answers what its action does, and leaves the statement alone. -/
theorem observe_ok (run : observe action session = .ok answer left) :
    action session.trace = .ok answer left.trace ∧ left.statement = session.statement := by
  cases went : action session.trace with
  | ok found trace =>
      cases (observe_of_ok went).symm.trans run
      exact ⟨rfl, rfl⟩
  | error error trace => cases (observe_of_error went).symm.trans run

/-- A change that follows an observation succeeds on what was observed. -/
theorem observe_change_ok {f : α → Statement → Except Error Statement} :
    (observe action >>= fun a => change (f a)) session = .ok () left ↔
      ∃ a, action session.trace = .ok a left.trace ∧
        f a session.statement = .ok left.statement := by
  constructor
  · intro run
    obtain ⟨a, between, observed, changed⟩ := Outcome.bind_ok run
    obtain ⟨went, same⟩ := observe_ok observed
    obtain ⟨done, later⟩ := change_ok changed
    rw [same] at done
    exact ⟨a, later ▸ went, done⟩
  · rintro ⟨a, went, done⟩
    have observed : observe action session = .ok a { session with trace := left.trace } :=
      observe_of_ok went
    rw [Outcome.bind_of_ok observed]
    exact change_of_ok done

end Observations

theorem values_ok {row : List Value} {session left : Session}
    (run : values row session = .ok () left) :
    session.statement.addRow row = .ok left.statement := by
  rw [values_eq] at run
  exact (change_ok run).1

theorem value_ok {field : Value} {session left : Session}
    (run : value field session = .ok () left) :
    session.statement.extendRow field = .ok left.statement := by
  rw [value_eq] at run
  exact (change_ok run).1

/-- Columns are set as their keys are worked out and the assignments are stored. -/
theorem set_ok_iff {pairs : List (Column × Value)} {session left : Session} :
    set pairs session = .ok () left ↔
      ∃ assignments, Assignment.resolveAll pairs session.trace = .ok assignments left.trace ∧
        session.statement.assign assignments = .ok left.statement := by
  rw [set_eq]
  exact observe_change_ok (f := fun assignments => (·.assign assignments))

/-- A call for its effect only succeeds as the call does. -/
theorem done_ok_iff {call : Build Unit} {session left : Session} {answer : Answer} :
    done call session = .ok answer left ↔ answer = .done ∧ call session = .ok () left := by
  constructor
  · intro run
    obtain ⟨_, between, ran, run⟩ := Outcome.bind_ok run
    obtain ⟨rfl, rfl⟩ := Outcome.pure_ok run
    exact ⟨rfl, ran⟩
  · rintro ⟨rfl, ran⟩
    exact Outcome.bind_of_ok ran

/-- A call for its effect only fails as the call does. -/
theorem done_error {call : Build Unit} {session left : Session} {error : Error}
    (run : done call session = .error error left) : call session = .error error left := by
  rcases Outcome.bind_error run with failed | ⟨_, _, -, failed⟩
  · exact failed
  · cases failed

/-- An observation fails and changes nothing, or is followed on the same statement. -/
theorem after_observe_bind (action : EStateM Error Trace α) (next : α → Build β)
    (session : Session) :
    ((observe action >>= next).after session).statement = session.statement ∨
      ∃ answer trace, action session.trace = .ok answer trace ∧
        (observe action >>= next).after session =
          (next answer).after { session with trace } := by
  cases run : action session.trace with
  | ok answer trace =>
      refine Or.inr ⟨answer, trace, rfl, ?_⟩
      unfold after
      rw [Outcome.bind_of_ok (observe_of_ok run)]
  | error error trace =>
      have failed : (observe action >>= next) session = .error error { session with trace } :=
        Outcome.bind_of_error (observe_of_error run)
      exact Or.inl (by rw [after_of_error failed])

/-! ## Relations along calls -/

namespace Moves

theorem pure (refl : ∀ s, R s s) (answer : α) : Moves R (Pure.pure answer : Build α) :=
  fun session => refl session.statement

theorem throw (refl : ∀ s, R s s) (error : Error) : Moves R (throw error : Build α) :=
  fun session => refl session.statement

theorem get (refl : ∀ s, R s s) : Moves R (MonadState.get : Build Session) :=
  fun session => refl session.statement

theorem observe (refl : ∀ s, R s s) (action : EStateM Error Trace α) :
    Moves R (Build.observe action) := by
  intro session
  unfold Build.after Build.observe
  cases action session.trace with
  | ok answer trace => exact refl session.statement
  | error error trace => exact refl session.statement

/-- A change moves along a relation in which its successful outcomes stand. -/
theorem change (refl : ∀ s, R s s) {f : Statement → Except Error Statement}
    (step : ∀ s s', f s = .ok s' → R s s') : Moves R (Build.change f) := by
  intro session
  rcases after_change f session with same | done
  · rw [same]
    exact refl session.statement
  · exact step session.statement _ done

theorem update {f : Statement → Statement} (step : ∀ s, R s (f s)) :
    Moves R (Build.update f) :=
  fun session => step session.statement

theorem bind (trans : ∀ {s t u}, R s t → R t u → R s u) {first : Build α} {next : α → Build β}
    (moves : Moves R first) (then_ : ∀ answer, Moves R (next answer)) :
    Moves R (first >>= next) := by
  intro session
  have start := moves session
  rcases after_bind first next session with stopped | ⟨answer, left, run, went⟩
  · rwa [stopped]
  · rw [after_of_ok run] at start
    rw [went]
    exact trans start (then_ answer left)

/-- A call for its effect moves as the call does. -/
theorem done {call : Build Unit} (moves : Moves R call) : Moves R (Build.done call) := by
  intro session
  unfold Build.done
  rw [after_bind_pure]
  exact moves session

/-- What follows an observation may rely on what was observed. -/
theorem observe_bind (refl : ∀ s, R s s) {action : EStateM Error Trace α} {next : α → Build β}
    (then_ : ∀ answer before after, action before = .ok answer after → Moves R (next answer)) :
    Moves R (Build.observe action >>= next) := by
  intro session
  rcases after_observe_bind action next session with same | ⟨answer, trace, run, went⟩
  · rw [same]
    exact refl session.statement
  · rw [went]
    exact then_ answer session.trace trace run { session with trace }

end Moves

end Build

end SqlBuilder
