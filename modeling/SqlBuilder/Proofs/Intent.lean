import SqlBuilder.Proofs.Representation

/-!
# What a statement is for

The kind of a statement is decided once.  No call changes it afterwards,
whatever becomes of the call, and a call that is for another kind fails and
leaves the statement as it is.  Groups of conditions and group concatenations
are decided from the start: they select.
-/

namespace SqlBuilder

/-- The kind that a call is for, if it is for one. -/
def Call.intent? : Call → Option StatementKind
  | .select _ => some .select
  | .random _ => some .random
  | .raw _ => some .raw
  | .insert _ => some .insert
  | .update _ => some .update
  | .delete => some .delete
  | _ => none

namespace Statement

/-- The kind is the same, unless the statement was undecided. -/
def KeepsKind (s s' : Statement) : Prop :=
  s.kind = .undecided ∨ s'.kind = s.kind

variable {s s' t : Statement}

theorem KeepsKind.refl (s : Statement) : s.KeepsKind s :=
  Or.inr rfl

theorem KeepsKind.trans (first : s.KeepsKind s') (second : s'.KeepsKind t) : s.KeepsKind t := by
  rcases first with undecided | same
  · exact Or.inl undecided
  · rcases second with undecided | same'
    · exact Or.inl (same.symm.trans undecided)
    · exact Or.inr (same'.trans same)

/-- A kind that is admitted is kept from then on. -/
theorem Admits.keepsKind {kind : StatementKind} (admits : s.Admits kind) (taken : s'.kind = kind) :
    s.KeepsKind s' := by
  rcases admits with undecided | same
  · exact Or.inl undecided
  · exact Or.inr (taken.trans same.symm)

/-- No step changes a kind that is decided. -/
theorem Step.keepsKind {Bound : Statement → List Binding → Prop} (step : Step Bound s s') :
    s.KeepsKind s' := by
  cases step with
  | claim kind plain admits => exact admits.keepsKind rfl
  | raw text admits => exact admits.keepsKind rfl
  | delete admits => exact admits.keepsKind rfl
  | conditions predicates valid done =>
      obtain ⟨names, taken, -, rfl⟩ := addPredicates_ok done
      exact Or.inr rfl
  | attach index p valid done =>
      obtain ⟨names, taken, -, rfl⟩ := attach_ok done
      exact Or.inr rfl
  | row row done =>
      obtain ⟨names, taken, -, rfl⟩ := addRow_ok done
      exact Or.inr rfl
  | extend value done =>
      obtain ⟨last, replaced, names, taken, -, -, -, rfl⟩ := extendRow_ok done
      exact Or.inr rfl
  | assign assignments done =>
      obtain ⟨replaced, names, taken, -, -, rfl⟩ := assign_ok done
      exact Or.inr rfl
  | member all inner done =>
      obtain ⟨taken, -, rfl⟩ := addMember_ok done
      exact Or.inr rfl
  | _ => exact Or.inr rfl

end Statement

namespace Call

/-- No call changes a kind that is decided. -/
theorem keepsKind_run (c : Call) : c.run.Moves Statement.KeepsKind := by
  intro session
  have binds : c.Binds (fun _ _ => True) session.statement := by
    cases c <;> trivial
  exact Statement.Steps.keep (P := session.statement.KeepsKind)
    (fun _ _ kept step => kept.trans step.keepsKind) (.refl _) (c.steps_run binds)

/-- No run of calls changes a kind that is decided. -/
theorem keepsKind_runAll (tolerant : Bool) (calls : List Call) :
    (runAll tolerant calls).Moves Statement.KeepsKind :=
  moves_runAll Statement.KeepsKind.refl Statement.KeepsKind.trans tolerant fun c _ => c.keepsKind_run

/-- A statement that selects goes on selecting. -/
theorem select_run (c : Call) {session : Session} (selects : session.statement.kind = .select) :
    (c.run.after session).statement.kind = .select := by
  rcases c.keepsKind_run session with undecided | same
  · rw [selects] at undecided
    cases undecided
  · exact same.trans selects

end Call

/-! ## Calls for another kind -/

namespace Build

/-- A check that passes and changes nothing, or refuses on a read-only statement. -/
def ChecksAccess (check : Build Unit) : Prop :=
  ∀ session, check session = .ok () session ∨
    ∃ refusal left, check session = .error (.readOnly refusal) left ∧
      left.statement = session.statement

/-- The call is refused, either as a conflict of kinds or by a read-only statement. -/
def FailsFor {α : Type} (kind : StatementKind) (call : Build α) (session : Session) : Prop :=
  ∃ error left, call session = .error error left ∧ left.statement = session.statement ∧
    (error = .kindConflict session.statement.kind kind ∨ ∃ refusal, error = .readOnly refusal)

theorem checksAccess_requireWritable (kind : WriteKind) : ChecksAccess (requireWritable kind) := by
  intro session
  cases access : session.statement.config.readOnly with
  | true => exact Or.inr ⟨_, _, requireWritable_refuses kind access, rfl⟩
  | false => exact Or.inl (requireWritable_passes kind access)

theorem checksAccess_requireHarmless (sql : String) : ChecksAccess (requireHarmless sql) := by
  intro session
  by_cases has : HasWriteWord sql
  · cases access : session.statement.config.readOnly with
    | true =>
        obtain ⟨word, refused⟩ := requireHarmless_refuses has access
        exact Or.inr ⟨_, _, refused, rfl⟩
    | false => exact Or.inl (requireHarmless_of_writable sql access)
  · exact Or.inl (requireHarmless_passes has)

variable {α β : Type} {kind : StatementKind} {session : Session}

/-- A kind that the statement does not admit cannot be taken. -/
theorem failsFor_claim (refuses : ¬ session.statement.Admits kind) :
    FailsFor kind (claim kind) session :=
  ⟨_, session, claim_refused refuses, rfl, Or.inl rfl⟩

/-- What begins with a failure fails. -/
theorem FailsFor.bind {first : Build α} {next : α → Build β}
    (fails : FailsFor kind first session) : FailsFor kind (first >>= next) session := by
  obtain ⟨error, left, run, same, cause⟩ := fails
  exact ⟨error, left, Outcome.bind_of_error run, same, cause⟩

/-- What fails behind a check of access fails with the check. -/
theorem FailsFor.behind {check : Build Unit} {next : Unit → Build β}
    (checks : ChecksAccess check) (fails : FailsFor kind (next ()) session) :
    FailsFor kind (check >>= next) session := by
  rcases checks session with passed | ⟨refusal, left, refused, same⟩
  · obtain ⟨error, left, run, same, cause⟩ := fails
    exact ⟨error, left, (Outcome.bind_of_ok passed).trans run, same, cause⟩
  · exact ⟨_, left, Outcome.bind_of_error refused, same, Or.inr ⟨refusal, rfl⟩⟩

end Build

/-- A call for a kind that the statement does not admit fails and changes nothing. -/
theorem Call.failsFor_intent {c : Call} {kind : StatementKind} {session : Session}
    (intent : c.intent? = some kind) (refuses : ¬ session.statement.Admits kind) :
    Build.FailsFor kind c.run session := by
  have claim := Build.failsFor_claim refuses
  cases c with
  | select columns | random columns =>
      cases intent
      exact claim.bind.bind
  | insert columns | update tables =>
      cases intent
      exact (claim.bind.behind (Build.checksAccess_requireWritable _)).bind
  | raw sql =>
      cases intent
      exact (claim.bind.behind (Build.checksAccess_requireHarmless sql)).bind
  | delete =>
      cases intent
      exact (claim.bind.behind (Build.checksAccess_requireWritable _)).bind
  | _ => cases intent

/-! ## Statements that select from the start -/

/-- A group of conditions, or the statement of a group concatenation, with calls on it. -/
inductive Statement.MadeSelection : Statement → Prop where
  | fresh (config : Config) : MadeSelection config.selection
  | ofStatement {s s' : Statement} (reach : s.Reachable) (done : s.asSelection = .ok s') :
      MadeSelection s'
  | call {session : Session} (c : Call) (made : MadeSelection session.statement)
      (gives : c.Gives (fun _ => True) Statement.Reachable session) :
      MadeSelection (c.run.after session).statement

/-- Such a statement is reachable and selects. -/
theorem Statement.MadeSelection.selects {s : Statement} (made : s.MadeSelection) :
    s.Reachable ∧ s.kind = .select := by
  induction made with
  | fresh config => exact ⟨.selection config, rfl⟩
  | ofStatement reach done =>
      refine ⟨.asSelection reach done, ?_⟩
      rw [claim_eq_ok done]
  | call c made gives ih => exact ⟨ReachableBy.run c _ ih.1 gives, c.select_run ih.2⟩

/-- Calls lead to the group concatenation, whether they succeed or fail. -/
inductive GroupConcat.Made : GroupConcat → Prop where
  | fresh (config : Config) : Made (.ofConfig config)
  | ofStatement {s : Statement} {c : GroupConcat} (reach : s.Reachable)
      (done : GroupConcat.ofStatement? s = .ok c) : Made c
  | call {session : Session} {c : GroupConcat} (made : c.Made) (call : Call)
      (on : session.statement = c.statement)
      (gives : call.Gives (fun _ => True) Statement.Reachable session) :
      Made { c with statement := (call.run.after session).statement }
  | columns {c : GroupConcat} (made : c.Made) (items : List Expression) :
      Made (c.addColumns items).1
  | separator {c : GroupConcat} (made : c.Made) (text : String) : Made (c.separatedBy text)
  | label {c c' : GroupConcat} (made : c.Made) (text : String) (done : c.labelled text = .ok c') :
      Made c'

namespace GroupConcat

/-- Columns that come in are not blank, and the statement is left alone. -/
theorem addColumns_filled (c : GroupConcat) (items : List Expression)
    (filled : Expression.AllFilled c.columns) :
    (c.addColumns items).1.statement = c.statement ∧
      Expression.AllFilled (c.addColumns items).1.columns := by
  induction items generalizing c with
  | nil => exact ⟨rfl, filled⟩
  | cons item items ih =>
      unfold addColumns
      cases checked : Expression.checkAll .concatColumn [item] with
      | error error => exact ⟨rfl, filled⟩
      | ok answer =>
          refine ih { c with columns := c.columns ++ [item] } ?_
          exact List.forall_mem_append.mpr ⟨filled, Expression.allFilled_of_checkAll checked⟩

/-- The statement of a group concatenation selects, and none of its columns is blank. -/
theorem Made.selects {c : GroupConcat} (made : c.Made) :
    c.statement.MadeSelection ∧ Expression.AllFilled c.columns := by
  induction made with
  | fresh config => exact ⟨.fresh config, fun _ mem => nomatch mem⟩
  | ofStatement reach done =>
      obtain ⟨s', claimed, done⟩ := Outcome.except_bind_ok done
      cases done
      exact ⟨.ofStatement reach claimed, fun _ mem => nomatch mem⟩
  | call made call on gives ih =>
      rw [← on] at ih
      exact ⟨.call call ih.1 gives, ih.2⟩
  | columns made items ih =>
      obtain ⟨same, filled⟩ := addColumns_filled _ items ih.2
      rw [same]
      exact ⟨ih.1, filled⟩
  | separator made text ih => exact ih
  | label made text done ih =>
      unfold labelled at done
      split at done
      · cases done
      · cases done
        exact ih

end GroupConcat

end SqlBuilder
