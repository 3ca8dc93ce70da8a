import SqlBuilder.Proofs.Areas
import SqlBuilder.Proofs.RawText

/-!
# Read-only statements

A statement that is made read-only stays so, whatever is called on it, and so
does every statement that is made from it.  Calls that write are refused
before anything else is looked at, and raw text is searched before it is
taken.  A read-only statement therefore never becomes one that writes, and its
raw text holds no word that writes.
-/

namespace SqlBuilder

namespace Statement

/-- The statement is of no kind that writes, and its raw text holds no word that writes. -/
structure Harmless (s : Statement) : Prop where
  kind : s.kind ∉ [.insert, .update, .delete]
  rawText : ∀ text, s.rawText = some text → ¬ HasWriteWord text

/-- To be harmless is a matter of what a statement is for. -/
theorem Harmless.of_same {s s' : Statement} (harmless : s.Harmless) (same : Area.intent.Same s s') :
    s'.Harmless := by
  obtain ⟨kind, rawText⟩ := harmless
  have sameKind : s'.kind = s.kind := congrArg Prod.fst same
  have sameText : s'.rawText = s.rawText := congrArg Prod.snd same
  rw [← sameKind] at kind
  rw [← sameText] at rawText
  exact ⟨kind, rawText⟩

/-- The statement as a raw text. -/
def asRaw (s : Statement) (text : String) : Statement :=
  { s with kind := .raw, rawText := some text }

end Statement

namespace Build

variable {α : Type} {session : Session}

/-! ## Refusals -/

/-- A call that begins with a refusal is refused. -/
theorem done_refused {first : Build Unit} {next : Unit → Build Unit} {error : Error}
    {left : Session} (refused : first session = .error error left) :
    done (first >>= next) session = .error error left :=
  Outcome.bind_of_error (Outcome.bind_of_error refused)

/-- A read-only statement refuses to write. -/
theorem requireWritable_refuses (kind : WriteKind)
    (readOnly : session.statement.config.readOnly = true) :
    requireWritable kind session = .error (.readOnly (.writes kind))
      { session with trace := session.trace ++ [.refusedWrite kind] } := by
  change (if session.statement.config.readOnly then _ else _ : Build Unit) session = _
  rw [if_pos readOnly]
  rfl

/-- Other statements may write. -/
theorem requireWritable_passes (kind : WriteKind)
    (access : session.statement.config.readOnly = false) :
    requireWritable kind session = .ok () session := by
  change (if session.statement.config.readOnly then _ else _ : Build Unit) session = _
  rw [access]
  rfl

/-- A read-only statement refuses raw text with a word that writes. -/
theorem requireHarmless_refuses {sql : String} (has : HasWriteWord sql)
    (readOnly : session.statement.config.readOnly = true) :
    ∃ word, requireHarmless sql session = .error (.readOnly (.keyword word))
      { session with trace := session.trace ++ [.refusedKeyword word] } := by
  obtain ⟨word, found⟩ := (Statement.find?_writeWords sql).mpr has
  refine ⟨word, ?_⟩
  unfold requireHarmless
  rw [found]
  change (if session.statement.config.readOnly then _ else _ : Build Unit) session = _
  rw [if_pos readOnly]
  rfl

/-- Raw text without a word that writes is not refused, read-only or not. -/
theorem requireHarmless_passes {sql : String} (harmless : ¬ HasWriteWord sql) :
    requireHarmless sql session = .ok () session := by
  have notFound : Statement.writeWords.find? (Text.mentions sql) = none := by
    rw [Option.eq_none_iff_forall_ne_some]
    intro word found
    exact harmless ((Statement.find?_writeWords sql).mp ⟨word, found⟩)
  unfold requireHarmless
  rw [notFound]
  change (if session.statement.config.readOnly then _ else _ : Build Unit) session = _
  split <;> rfl

/-- Other statements take any raw text. -/
theorem requireHarmless_of_writable (sql : String)
    (access : session.statement.config.readOnly = false) :
    requireHarmless sql session = .ok () session := by
  change (if session.statement.config.readOnly then _ else _ : Build Unit) session = _
  rw [access]
  rfl

/-! ## Statements stay harmless -/

/-- The call keeps harmless statements harmless. -/
abbrev KeepsHarmless (call : Build α) : Prop :=
  call.Moves fun before left => before.Harmless → left.Harmless

/-- To fix a kind that does not write is harmless. -/
theorem harmless_claim {kind : StatementKind} (reads : kind ∉ [.insert, .update, .delete]) :
    KeepsHarmless (claim kind) := by
  rw [claim_eq]
  apply Moves.change
  · intro s harmless
    exact harmless
  · intro s s' done harmless
    rw [Statement.claim_eq_ok done]
    exact ⟨reads, harmless.rawText⟩

/-- To fix such a kind and then fill a list of the statement is harmless. -/
theorem harmless_extend {kind : StatementKind} (reads : kind ∉ [.insert, .update, .delete])
    {place : Place} {items : List Expression} {store : Statement → List Expression → Statement}
    (step : ∀ s, Area.intent.Same s (store s items)) :
    KeepsHarmless (claim kind >>= fun _ => extend place items store) := by
  refine Moves.bind ?_ (harmless_claim reads) ?_
  · intro s t u first second harmless
    exact second (first harmless)
  · intro _ session harmless
    exact harmless.of_same (preserves_extend step session)

theorem harmless_select (columns : List Expression) : KeepsHarmless (select columns) :=
  harmless_extend (by decide) fun _ => rfl

theorem harmless_random (columns : List Expression) : KeepsHarmless (random columns) :=
  harmless_extend (by decide) fun _ => rfl

end Build

namespace Call

/-- The kind of statement that a call begins, if it is one that writes. -/
def writeKind? : Call → Option WriteKind
  | .insert _ => some .insert
  | .update _ => some .update
  | .delete => some .delete
  | _ => none

variable {session : Session}

/-- On a read-only statement a call that writes is refused, whatever it is given. -/
theorem write_refused {c : Call} {kind : WriteKind} (writes : c.writeKind? = some kind)
    (readOnly : session.statement.config.readOnly = true) :
    c.run session = .error (.readOnly (.writes kind))
      { session with trace := session.trace ++ [.refusedWrite kind] } := by
  cases c with
  | insert columns =>
      cases writes
      exact Build.done_refused (Build.requireWritable_refuses .insert readOnly)
  | update tables =>
      cases writes
      exact Build.done_refused (Build.requireWritable_refuses .update readOnly)
  | delete =>
      cases writes
      exact Build.done_refused (Build.requireWritable_refuses .delete readOnly)
  | _ => cases writes

/-- On a read-only statement raw text with a word that writes is refused. -/
theorem raw_refused {sql : String} (has : HasWriteWord sql)
    (readOnly : session.statement.config.readOnly = true) :
    ∃ word, (Call.raw sql).run session = .error (.readOnly (.keyword word))
      { session with trace := session.trace ++ [.refusedKeyword word] } := by
  obtain ⟨word, refused⟩ := Build.requireHarmless_refuses has readOnly
  exact ⟨word, Build.done_refused refused⟩

/-- What taking a text does to a statement, once it is not refused. -/
def takeRaw (sql : String) (s : Statement) : Except Error Statement := do
  let s ← s.claim .raw
  return { s with rawText := some (Statement.trimRaw sql) }

/-- Other raw text is looked at by kind only. -/
theorem raw_passed {sql : String} (harmless : ¬ HasWriteWord sql) :
    Build.raw sql session = Build.change (takeRaw sql) session := by
  rw [Build.raw_eq]
  exact Outcome.bind_of_ok (Build.requireHarmless_passes harmless)

/-- An undecided or raw statement takes the text, trimmed at its end. -/
theorem raw_taken {sql : String} (harmless : ¬ HasWriteWord sql)
    (kind : session.statement.kind ∈ [.undecided, .raw]) :
    (Call.raw sql).run session =
      .ok .done { session with statement := session.statement.asRaw (Statement.trimRaw sql) } := by
  have taken : takeRaw sql session.statement =
      .ok (session.statement.asRaw (Statement.trimRaw sql)) := by
    unfold takeRaw
    rw [Statement.claim_of_mem (List.mem_pair.mp kind)]
    rfl
  exact Outcome.bind_of_ok ((raw_passed harmless).trans (Build.change_of_ok taken))

/-- A statement of another kind does not take it. -/
theorem raw_conflict {sql : String} (harmless : ¬ HasWriteWord sql)
    (kind : session.statement.kind ∉ [.undecided, .raw]) :
    (Call.raw sql).run session = .error (.kindConflict session.statement.kind .raw) session := by
  have refused : takeRaw sql session.statement =
      .error (.kindConflict session.statement.kind .raw) := by
    unfold takeRaw
    rw [Statement.claim_of_not_mem fun same => kind (List.mem_pair.mpr same)]
    rfl
  exact Outcome.bind_of_error ((raw_passed harmless).trans (Build.change_of_error refused))

/-- Raw text is refused, or taken without a word that writes. -/
theorem harmless_raw {sql : String} (readOnly : session.statement.config.readOnly = true)
    (harmless : session.statement.Harmless) :
    ((Call.raw sql).run.after session).statement.Harmless := by
  by_cases has : HasWriteWord sql
  · obtain ⟨word, refused⟩ := raw_refused has readOnly
    rw [Build.after_of_error refused]
    exact harmless
  · by_cases kind : session.statement.kind ∈ [.undecided, .raw]
    · rw [Build.after_of_ok (raw_taken has kind)]
      refine ⟨(by decide : StatementKind.raw ∉ [.insert, .update, .delete]), ?_⟩
      rintro text same written
      cases same
      exact has (Statement.hasWriteWord_of_trimRaw written)
    · rw [Build.after_of_error (raw_conflict has kind)]
      exact harmless

/-- On a read-only statement every call keeps the statement harmless. -/
theorem harmless_run {c : Call} (readOnly : session.statement.config.readOnly = true)
    (harmless : session.statement.Harmless) : (c.run.after session).statement.Harmless := by
  have refused {kind : WriteKind} (writes : c.writeKind? = some kind) :
      (c.run.after session).statement.Harmless := by
    rw [Build.after_of_error (write_refused writes readOnly)]
    exact harmless
  have others (outside : c.area? ≠ some .intent) : (c.run.after session).statement.Harmless :=
    harmless.of_same (keeps_run outside session)
  cases c with
  | select columns =>
      exact Build.Moves.done (Build.harmless_select columns) session harmless
  | random columns =>
      exact Build.Moves.done (Build.harmless_random columns) session harmless
  | raw sql => exact harmless_raw readOnly harmless
  | insert columns | update tables | delete => exact refused rfl
  | _ => exact others nofun

/-- No call changes what a statement was made with. -/
theorem config_run (c : Call) (session : Session) :
    (c.run.after session).statement.config = session.statement.config := by
  have outside : c.area? ≠ some .config := by
    cases c <;> nofun
  exact keeps_run outside session

end Call

/-! ## Statements made read-only -/

namespace Statement

/--
A statement that was made read-only, or made from such a statement, after any
calls on it, whether they succeeded or failed.
-/
inductive MadeReadOnly : Statement → Prop where
  | fresh (config : Config) (readOnly : config.readOnly = true) : MadeReadOnly config.statement
  | selection (config : Config) (readOnly : config.readOnly = true) :
      MadeReadOnly config.selection
  | newStatement {s : Statement} (made : MadeReadOnly s) : MadeReadOnly s.config.statement
  | newSelection {s : Statement} (made : MadeReadOnly s) : MadeReadOnly s.config.selection
  | asSelection {s s' : Statement} (made : MadeReadOnly s) (done : s.asSelection = .ok s') :
      MadeReadOnly s'
  | observed {s : Statement} (made : MadeReadOnly s) (hook : Option Hook) :
      MadeReadOnly { s with config := { s.config with hook } }
  | call {session : Session} (c : Call) (made : MadeReadOnly session.statement) :
      MadeReadOnly (c.run.after session).statement

/-- A harmless statement that is made to select is harmless. -/
theorem Harmless.asSelection {s s' : Statement} (harmless : s.Harmless)
    (done : s.asSelection = .ok s') : s'.Harmless := by
  rw [claim_eq_ok done]
  exact ⟨(by decide : StatementKind.select ∉ [.insert, .update, .delete]), harmless.rawText⟩

theorem harmless_statement (config : Config) : config.statement.Harmless :=
  ⟨(by decide : StatementKind.undecided ∉ [.insert, .update, .delete]), nofun⟩

theorem harmless_selection (config : Config) : config.selection.Harmless :=
  ⟨(by decide : StatementKind.select ∉ [.insert, .update, .delete]), nofun⟩

/-- Statements made read-only stay read-only and harmless. -/
theorem MadeReadOnly.invariant {s : Statement} (made : s.MadeReadOnly) :
    s.config.readOnly = true ∧ s.Harmless := by
  induction made with
  | fresh config readOnly => exact ⟨readOnly, harmless_statement config⟩
  | selection config readOnly => exact ⟨readOnly, harmless_selection config⟩
  | newStatement _ ih => exact ⟨ih.1, harmless_statement _⟩
  | newSelection _ ih => exact ⟨ih.1, harmless_selection _⟩
  | asSelection _ done ih =>
      refine ⟨?_, ih.2.asSelection done⟩
      rw [claim_eq_ok done]
      exact ih.1
  | observed _ hook ih => exact ⟨ih.1, ih.2.kind, ih.2.rawText⟩
  | @call session c _ ih =>
      rw [Call.config_run c session]
      exact ⟨ih.1, Call.harmless_run ih.1 ih.2⟩

/-- Runs of calls lead from statements made read-only to such statements. -/
theorem MadeReadOnly.runAll {session : Session} (made : session.statement.MadeReadOnly)
    (tolerant : Bool) (cs : List Call) :
    ((Call.runAll tolerant cs).after session).statement.MadeReadOnly := by
  refine Call.moves_runAll (R := fun s s' => s.MadeReadOnly → s'.MadeReadOnly) ?_ ?_ tolerant ?_
    session made
  · intro s made
    exact made
  · intro s t u first second made
    exact second (first made)
  · intro c _ session made
    exact .call c made

/--
A statement that was made read-only is read-only after any calls, is of no
kind that writes, and holds no word that writes as raw text.  Calls that write
are refused and change nothing.  Raw text is refused as a violation exactly if
a word that writes stands in it; an undecided or raw statement takes any other
text, as the longest prefix that does not end in a semicolon or a blank.
-/
theorem read_only_stays {s : Statement} (made : s.MadeReadOnly) :
    s.config.readOnly = true ∧
    s.kind ∉ [.insert, .update, .delete] ∧
    (∀ text, s.rawText = some text → ¬ HasWriteWord text) ∧
    (∀ (c : Call) (kind : WriteKind) (trace : Trace), c.writeKind? = some kind →
      ∃ error left, c.run ⟨s, trace⟩ = .error error left ∧
        error.toClass = .readOnlyViolation ∧ left.statement = s) ∧
    (∀ (sql : String) (trace : Trace),
      (∃ error left, (Call.raw sql).run ⟨s, trace⟩ = .error error left ∧
        error.toClass = .readOnlyViolation) ↔ HasWriteWord sql) ∧
    ∀ (sql : String) (trace : Trace), ¬ HasWriteWord sql → s.kind ∈ [.undecided, .raw] →
      ∃ text left, (Call.raw sql).run ⟨s, trace⟩ = .ok .done left ∧
        left.statement = { s with kind := .raw, rawText := some text } ∧
        Text.IsTrimmed isRawEnd sql.toList text.toList := by
  obtain ⟨readOnly, harmless⟩ := made.invariant
  refine ⟨readOnly, harmless.kind, harmless.rawText, ?_, ?_, ?_⟩
  · intro c kind trace writes
    exact ⟨_, _, Call.write_refused writes readOnly, rfl, rfl⟩
  · intro sql trace
    constructor
    · rintro ⟨error, left, failed, violation⟩
      by_contra none
      by_cases kind : s.kind ∈ [.undecided, .raw]
      · rw [Call.raw_taken none kind] at failed
        cases failed
      · rw [Call.raw_conflict none kind] at failed
        cases failed
        cases violation
    · intro has
      have flag : (Session.mk s trace).statement.config.readOnly = true := readOnly
      obtain ⟨word, refused⟩ := Call.raw_refused has flag
      exact ⟨_, _, refused, rfl⟩
  · intro sql trace none kind
    exact ⟨_, _, Call.raw_taken none kind, rfl, isTrimmed_trimRaw sql⟩

/-- A read-only statement on which calls were made, some of them refused. -/
def guarded : Session :=
  (Call.runAll true
    [.insert [], .raw "TRUNCATE; dRoP TABLE users", .raw "VACUUM ; \n", .delete]).after
    { statement := Config.statement { readOnly := true } }

theorem read_only_stays_guarded :
    guarded.statement.rawText = some "VACUUM" ∧
      (∃ error left, Call.delete.run guarded = .error error left ∧
        error.toClass = .readOnlyViolation ∧ left.statement = guarded.statement) ∧
      (∃ error left, (Call.raw "select 1; ALTER table users").run guarded = .error error left ∧
        error.toClass = .readOnlyViolation) ∧
      ∃ text left, (Call.raw "select 1 ;").run guarded = .ok .done left ∧
        left.statement = { guarded.statement with kind := .raw, rawText := some text } ∧
        Text.IsTrimmed isRawEnd "select 1 ;".toList text.toList := by
  have made : guarded.statement.MadeReadOnly :=
    MadeReadOnly.runAll (.fresh { readOnly := true } rfl) true _
  have alters : HasWriteWord "select 1; ALTER table users" :=
    ⟨"alter", by decide, "ALTER".toList, ⟨"select 1; ".toList, " table users".toList, rfl⟩, rfl⟩
  have selects : ¬ HasWriteWord "select 1 ;" := by
    intro has
    obtain ⟨word, found⟩ := (find?_writeWords _).mpr has
    have none : writeWords.find? (Text.mentions "select 1 ;") = none := by decide
    rw [none] at found
    cases found
  obtain ⟨-, -, -, writes, violation, taken⟩ := read_only_stays made
  exact ⟨by decide, writes .delete .delete guarded.trace rfl,
    (violation _ guarded.trace).mpr alters, taken _ guarded.trace selects (by decide)⟩

end Statement

end SqlBuilder
