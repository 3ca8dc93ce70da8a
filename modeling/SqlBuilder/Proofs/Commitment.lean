import SqlBuilder.Proofs.Intent

/-!
# What a failed call decides

A call for a kind of statement checks whether it may be made at all, takes the
kind, and only then looks at its expressions.  When it fails for a blank
expression, the statement has taken the kind and nothing else.  If it was
undecided before, calls for other kinds are refused from then on.
-/

namespace SqlBuilder

namespace Expression

/-- Expressions pass the check just if none of them is blank. -/
theorem checkAll_eq_ok_iff {place : Place} {items : List Expression} :
    checkAll place items = .ok () ↔ AllFilled items := by
  constructor
  · exact allFilled_of_checkAll
  · intro filled
    have noBlank : items.any Expression.isBlank = false := by
      rw [List.any_eq_false]
      intro item mem
      rw [filled item mem]
      exact Bool.false_ne_true
    unfold checkAll
    rw [noBlank]
    rfl

theorem checkAll_error {place : Place} {items : List Expression} {error : Error}
    (failed : checkAll place items = .error error) :
    error = .argument (.blankExpression place) := by
  unfold checkAll at failed
  split at failed <;> cases failed
  rfl

end Expression

namespace Build

/-! ## Calls that succeed -/

variable {α : Type} {session left : Session} {kind : StatementKind}

/-- The call answers. -/
def Succeeds (call : Build α) (session : Session) : Prop :=
  ∃ answer left, call session = .ok answer left

theorem succeeds_done {call : Build Unit} :
    (done call).Succeeds session ↔ call.Succeeds session := by
  constructor
  · rintro ⟨answer, left, run⟩
    exact ⟨(), left, (done_ok_iff.mp run).2⟩
  · rintro ⟨answer, left, run⟩
    exact ⟨.done, left, done_ok_iff.mpr ⟨rfl, run⟩⟩

theorem succeeds_change {f : Statement → Except Error Statement} :
    (change f).Succeeds session ↔ ∃ s, f session.statement = .ok s := by
  constructor
  · rintro ⟨answer, left, run⟩
    exact ⟨left.statement, (change_ok run).1⟩
  · rintro ⟨s, done⟩
    exact ⟨(), _, change_of_ok done⟩

/-- A call behind a check of access answers if the check passes and the call answers. -/
theorem succeeds_behind {check : Build Unit} {next : Build α} (checks : ChecksAccess check) :
    (check >>= fun _ => next).Succeeds session ↔
      check session = .ok () session ∧ next.Succeeds session := by
  rcases checks session with passed | ⟨refusal, left, refused, -⟩
  · unfold Succeeds
    rw [Outcome.bind_of_ok passed, and_iff_right passed]
  · constructor
    · rintro ⟨answer, after, run⟩
      rw [Outcome.bind_of_error refused] at run
      cases run
    · rintro ⟨passed, -⟩
      cases refused.symm.trans passed

theorem requireWritable_ok_iff (write : WriteKind) :
    requireWritable write session = .ok () session ↔
      session.statement.config.readOnly = false := by
  refine ⟨fun passed => ?_, requireWritable_passes write⟩
  cases access : session.statement.config.readOnly with
  | true => cases (requireWritable_refuses write access).symm.trans passed
  | false => rfl

theorem requireHarmless_ok_iff (sql : String) :
    requireHarmless sql session = .ok () session ↔
      (session.statement.config.readOnly = true → ¬ HasWriteWord sql) := by
  constructor
  · intro passed access has
    obtain ⟨word, refused⟩ := requireHarmless_refuses has access
    cases refused.symm.trans passed
  · intro harmless
    cases access : session.statement.config.readOnly with
    | true => exact requireHarmless_passes (harmless access)
    | false => exact requireHarmless_of_writable sql access

theorem checksAccess_pure : ChecksAccess (pure ()) :=
  fun _ => Or.inl rfl

/-- A call that takes a kind and then writes what it likes needs the kind only. -/
theorem succeeds_claim_update {write : Statement → Statement} :
    (claim kind >>= fun _ => update write).Succeeds session ↔ session.statement.Admits kind := by
  constructor
  · rintro ⟨answer, left, run⟩
    obtain ⟨_, between, claimed, -⟩ := Outcome.bind_ok run
    exact admits_of_claim_ok claimed
  · intro admits
    exact ⟨(), _, (Outcome.bind_of_ok (claim_admitted admits)).trans rfl⟩

section Extending

variable {place : Place} {items : List Expression} {store : Statement → List Expression → Statement}

/-- Expressions are stored under a kind if the statement admits it and none of them is blank. -/
theorem succeeds_claim_extend :
    (claim kind >>= fun _ => extend place items store).Succeeds session ↔
      session.statement.Admits kind ∧ Expression.AllFilled items := by
  constructor
  · rintro ⟨answer, left, run⟩
    obtain ⟨_, between, claimed, run⟩ := Outcome.bind_ok run
    rw [extend_eq] at run
    obtain ⟨_, passed, -⟩ := Outcome.except_bind_ok (change_ok run).1
    exact ⟨admits_of_claim_ok claimed, Expression.allFilled_of_checkAll passed⟩
  · rintro ⟨admits, filled⟩
    unfold Succeeds
    rw [Outcome.bind_of_ok (claim_admitted admits), extend_eq]
    refine succeeds_change.mpr ?_
    rw [Expression.checkAll_eq_ok_iff.mpr filled]
    exact ⟨_, rfl⟩

/-- A kind that is refused changes nothing; a blank expression is refused under the new kind. -/
theorem claim_extend_error {error : Error}
    (failed : (claim kind >>= fun _ => extend place items store) session =
      .error error left) :
    (error = .kindConflict session.statement.kind kind ∧ left.statement = session.statement) ∨
      (error = .argument (.blankExpression place) ∧ session.statement.Admits kind ∧
        left.statement = { session.statement with kind }) := by
  by_cases admits : session.statement.Admits kind
  · rw [Outcome.bind_of_ok (claim_admitted admits), extend_eq] at failed
    obtain ⟨refused, rfl⟩ := change_error failed
    refine Or.inr ⟨?_, admits, rfl⟩
    cases checked : Expression.checkAll place items with
    | ok answer =>
        rw [checked] at refused
        cases refused
    | error error' =>
        rw [checked] at refused
        cases refused
        exact Expression.checkAll_error checked
  · rw [Outcome.bind_of_error (claim_refused admits)] at failed
    cases failed
    exact Or.inl ⟨rfl, rfl⟩

end Extending

end Build

/-- To take the kind that it has leaves a statement as it is. -/
theorem Statement.with_own_kind {s : Statement} {kind : StatementKind} (own : s.kind = kind) :
    { s with kind } = s := by
  rw [← own]
  -- a statement lies in a nest of types, so its fields have to be taken apart
  cases s
  rfl

namespace Call

variable {c : Call} {kind : StatementKind} {session left : Session}

/-- What a call for a kind needs besides a statement that admits the kind. -/
def Permitted : Call → Config → Prop
  | .select items, _ | .random items, _ => Expression.AllFilled items
  | .insert items, config | .update items, config =>
    config.readOnly = false ∧ Expression.AllFilled items
  | .raw sql, config => config.readOnly = true → ¬ HasWriteWord sql
  | .delete, config => config.readOnly = false
  | _, _ => True

/-- A call for a kind succeeds if the statement admits the kind and permits the call. -/
theorem succeeds_intent (intent : c.intent? = some kind) :
    c.run.Succeeds session ↔
      session.statement.Admits kind ∧ c.Permitted session.statement.config := by
  cases c with
  | select items | random items =>
      cases intent
      exact Build.succeeds_done.trans Build.succeeds_claim_extend
  | insert items | update items =>
      cases intent
      refine Build.succeeds_done.trans
        ((Build.succeeds_behind (Build.checksAccess_requireWritable _)).trans ?_)
      rw [Build.requireWritable_ok_iff, Build.succeeds_claim_extend]
      exact and_left_comm
  | raw sql =>
      cases intent
      refine Build.succeeds_done.trans
        ((Build.succeeds_behind (Build.checksAccess_requireHarmless sql)).trans ?_)
      rw [Build.requireHarmless_ok_iff, Build.succeeds_claim_update]
      exact and_comm
  | delete =>
      cases intent
      refine Build.succeeds_done.trans
        ((Build.succeeds_behind (Build.checksAccess_requireWritable _)).trans ?_)
      rw [Build.requireWritable_ok_iff, Build.succeeds_claim_update]
      exact and_comm
  | _ => cases intent

/-- A call that takes a kind and fills a list checks the access, the kind and then the list. -/
theorem run_claims (intent : c.intent? = some kind) (listed : kind ∈ Statement.claimedKinds) :
    ∃ check place items store, Build.ChecksAccess check ∧ c.run = Build.done
      (check >>= fun _ => Build.claim kind >>= fun _ =>
        Build.extend place items store) := by
  cases c with
  | select items | random items =>
      cases intent
      exact ⟨pure (), _, _, _, Build.checksAccess_pure, rfl⟩
  | insert items | update items =>
      cases intent
      exact ⟨_, _, _, _, Build.checksAccess_requireWritable _, rfl⟩
  | raw sql | delete =>
      cases intent
      exact absurd listed (by decide)
  | _ => cases intent

/-- The error is that an expression is blank. -/
def BlankRefused (error : Error) : Prop :=
  ∃ place, error = .argument (.blankExpression place)

/-- A call for one of these kinds that fails has taken the kind just if an expression is blank. -/
theorem claims_error (intent : c.intent? = some kind) (listed : kind ∈ Statement.claimedKinds)
    {error : Error} (failed : c.run session = .error error left) :
    (¬ BlankRefused error ∧ left.statement = session.statement) ∨
      (BlankRefused error ∧ session.statement.Admits kind ∧
        left.statement = { session.statement with kind }) := by
  obtain ⟨check, place, items, store, checks, form⟩ := run_claims intent listed
  rw [form] at failed
  replace failed := Build.done_error failed
  rcases checks session with passed | ⟨refusal, stopped, refused, same⟩
  · rw [Outcome.bind_of_ok passed] at failed
    rcases Build.claim_extend_error failed with ⟨rfl, same⟩ | ⟨rfl, taken⟩
    · refine Or.inl ⟨?_, same⟩
      rintro ⟨_, ⟨⟩⟩
    · exact Or.inr ⟨⟨place, rfl⟩, taken⟩
  · rw [Outcome.bind_of_error refused] at failed
    cases failed
    refine Or.inl ⟨?_, same⟩
    rintro ⟨_, ⟨⟩⟩

/-- No call is for being undecided. -/
theorem intent_ne_undecided (intent : c.intent? = some kind) : kind ≠ .undecided := by
  rintro rfl
  cases c <;> cases intent

/--
A call for a kind that fails leaves the statement as it was, unless one of its
expressions is blank: then the statement has taken the kind, which makes a
difference if it was undecided.  Every other call for a kind that would have
succeeded before still does just if nothing was changed or the kind is the same.
-/
theorem failed_intent (intent : c.intent? = some kind) (listed : kind ∈ Statement.claimedKinds)
    {error : Error} (failed : c.run session = .error error left) :
    (¬ BlankRefused error → left.statement = session.statement) ∧
      (BlankRefused error →
        session.statement.Admits kind ∧ left.statement = { session.statement with kind }) ∧
      (left.statement = session.statement ↔
        session.statement.kind ≠ .undecided ∨ ¬ BlankRefused error) ∧
      ∀ (d : Call) other, d.intent? = some other → d.run.Succeeds session →
        (d.run.Succeeds left ↔ left.statement = session.statement ∨ other = kind) := by
  have decided := intent_ne_undecided intent
  rcases claims_error intent listed failed with ⟨filled, same⟩ | ⟨blank, admits, taken⟩
  · refine ⟨fun _ => same, (absurd · filled), iff_of_true same (Or.inr filled), ?_⟩
    intro d other for_other succeeds
    refine iff_of_true ?_ (Or.inl same)
    rw [succeeds_intent for_other] at succeeds ⊢
    rwa [same]
  · refine ⟨(absurd blank ·), fun _ => ⟨admits, taken⟩, ?_, ?_⟩
    · -- to take the kind changes nothing just if the statement was of the kind
      rw [or_iff_left (not_not_intro blank), taken]
      constructor
      · intro same undecided
        rw [← same] at undecided
        exact decided undecided
      · intro known
        exact Statement.with_own_kind (admits.resolve_left known)
    · intro d other for_other succeeds
      -- access and expressions are as before, so that only the kind counts
      rw [succeeds_intent for_other] at succeeds ⊢
      rw [taken]
      constructor
      · rintro ⟨undecided | same, -⟩
        · exact absurd undecided decided
        · exact Or.inr same.symm
      · rintro (same | rfl)
        · rwa [same]
        · exact ⟨Or.inr rfl, succeeds.2⟩

theorem failed_intent_select :
    ∃ error left, (Call.select [.text "id", .text " "]).run .fresh = .error error left ∧
      left.statement = { Session.fresh.statement with kind := .select } ∧
      ¬ (Call.insert [.text "id"]).run.Succeeds left := by
  have failed : (Call.select [.text "id", .text " "]).run .fresh =
      .error (.argument (.blankExpression .select)) _ := rfl
  have blank : BlankRefused (.argument (.blankExpression .select)) := ⟨.select, rfl⟩
  have inserted : (Call.insert [.text "id"]).run.Succeeds .fresh := ⟨_, _, rfl⟩
  obtain ⟨-, takes, unchanged, goes_on⟩ := failed_intent rfl (by decide) failed
  refine ⟨_, _, failed, (takes blank).2, ?_⟩
  rw [goes_on (.insert [.text "id"]) .insert rfl inserted, unchanged]
  rintro ((known | filled) | same)
  · exact known rfl
  · exact filled blank
  · cases same

/-- A call that selects fails, and a call that would have inserted is refused from then on. -/
theorem failed_select_is_decided :
    Session.fresh.statement.Reachable ∧ ∃ error left inserted,
      (Call.select [.text "id", .text " "]).run .fresh = .error error left ∧
      Session.fresh.statement.kind = .undecided ∧ left.statement.kind = .select ∧
      (Call.insert [.text "id"]).run .fresh = .ok .done inserted ∧
      (Call.insert [.text "id"]).run left = .error (.kindConflict .select .insert) left :=
  ⟨.fresh {}, _, _, _, rfl, rfl, rfl, rfl, rfl⟩

end Call

end SqlBuilder
