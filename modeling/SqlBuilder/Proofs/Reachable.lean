import SqlBuilder.GroupConcat
import SqlBuilder.Proofs.Change

/-!
# Reachable statements

A statement is reachable if calls lead to it from a fresh one, whether they
succeed or fail, and if the statements that are nested in it on the way were
reachable when they were handed over.  The calls that build a group need no
rule of their own: the group is one more reachable statement.  What fresh
statements have and every change keeps, all reachable statements have.
-/

namespace SqlBuilder

namespace Statement

/-- Calls lead to the statement; what they assign obeys the rule at every depth. -/
inductive ReachableBy (rule : List Assignment → Prop) : Statement → Prop where
  | fresh (config : Config) : ReachableBy rule config.statement
  | selection (config : Config) : ReachableBy rule config.selection
  | asSelection {s s' : Statement} (reach : ReachableBy rule s) (done : s.asSelection = .ok s') :
      ReachableBy rule s'
  | call {session : Session} (c : Call) (reach : ReachableBy rule session.statement)
      (plain : c.isGroup = false) (obeys : c.Obeys rule session)
      (values : ∀ value ∈ c.givenValues, ∀ inner, value.Holds inner → ReachableBy rule inner)
      (members : ∀ member ∈ c.givenMembers, ReachableBy rule member) :
      ReachableBy rule (c.run.after session).statement
  | group {session : Session} {inner : Statement} (tag : Nat) (connective : Connective)
      (reach : ReachableBy rule session.statement) (built : ReachableBy rule inner) :
      ReachableBy rule ((Build.group tag connective inner).after session).statement

/-- Calls of any kind lead to the statement. -/
abbrev Reachable : Statement → Prop :=
  ReachableBy fun _ => True

namespace ReachableBy

variable {rule : List Assignment → Prop}

/-- What changes keep, they keep one after the other. -/
theorem keeps_changes {P Given : Statement → Prop}
    (keeps : ∀ s s', P s → Change rule Given s s' → P s') {s s' : Statement} (start : P s)
    (changes : Changes rule Given s s') : P s' := by
  induction changes with
  | refl => exact start
  | tail _ change ih => exact keeps _ _ ih change

/--
A property of fresh statements that is kept by every change, as long as the
nested statements have it too, is a property of all reachable statements.
-/
theorem invariant {P : Statement → Prop} (fresh : ∀ config : Config, P config.statement)
    (selection : ∀ config : Config, P config.selection)
    (keeps : ∀ s s', P s → Change rule (fun inner => ReachableBy rule inner ∧ P inner) s s' → P s')
    {s : Statement} (reach : ReachableBy rule s) : P s := by
  induction reach with
  | fresh config => exact fresh config
  | selection config => exact selection config
  | @asSelection s s' reach done ih =>
      refine keeps s s' ih ?_
      rw [claim_eq_ok done]
      exact .header { s.toHeader with kind := .select } rfl rfl
  | call c reach plain obeys values members ih nested inners =>
      refine keeps_changes keeps ih (Call.changes_run plain obeys ?_ ?_)
      · intro value mem inner holds
        exact ⟨values value mem inner holds, nested value mem inner holds⟩
      · intro member mem
        exact ⟨members member mem, inners member mem⟩
  | group tag connective reach built ih inner =>
      exact keeps_changes keeps ih (Build.goes_group ⟨built, inner⟩ _)

end ReachableBy

end Statement

/-- A session on a fresh statement. -/
def Session.fresh : Session :=
  { statement := ({} : Config).statement }

/-! ## Runs of calls -/

namespace Build

/-- A call in the body of a group, which goes on after a failure if it is tolerant. -/
def step (tolerant : Bool) (call : Build Answer) : Build Unit :=
  if tolerant then tolerate call else discard call

section Steps

variable {call : Build Answer} {session left : Session} {answer : Answer} {error : Error}

/-- The answer of a call in the body of a group is dropped. -/
theorem step_of_ok (tolerant : Bool) (run : call session = .ok answer left) :
    step tolerant call session = .ok () left := by
  cases tolerant with
  | false =>
      change EStateM.map (Function.const Answer ()) call session = _
      unfold EStateM.map
      rw [run]
  | true =>
      change tolerate call session = _
      unfold tolerate
      rw [run]

/-- A tolerant body goes on behind a call that fails. -/
theorem step_of_error (tolerant : Bool) (run : call session = .error error left) :
    step tolerant call session = bif tolerant then .ok () left else .error error left := by
  cases tolerant with
  | false =>
      change EStateM.map (Function.const Answer ()) call session = _
      unfold EStateM.map
      rw [run]
      rfl
  | true =>
      change tolerate call session = _
      unfold tolerate
      rw [run]
      rfl

end Steps

/-- A call in the body of a group leaves what it leaves by itself. -/
theorem after_step (tolerant : Bool) (call : Build Answer) (session : Session) :
    (step tolerant call).after session = call.after session := by
  cases run : call session with
  | ok answer left => rw [after_of_ok run, after_of_ok (step_of_ok tolerant run)]
  | error error left =>
      have stepped := step_of_error tolerant run
      rw [after_of_error run]
      cases tolerant with
      | false => exact after_of_error stepped
      | true => exact after_of_ok stepped

end Build

namespace Call

/-- The calls of a body are made one after the other. -/
theorem runAll_cons (tolerant : Bool) (c : Call) (cs : List Call) :
    runAll tolerant (c :: cs) = (Build.step tolerant c.run >>= fun _ => runAll tolerant cs) := by
  cases tolerant <;> rfl

/-- A run without a failure makes its calls one after the other. -/
theorem runAll_cons_ok {c : Call} {cs : List Call} {session left : Session} :
    runAll false (c :: cs) session = .ok () left ↔
      ∃ answer between, c.run session = .ok answer between ∧
        runAll false cs between = .ok () left := by
  rw [runAll_cons]
  cases run : c.run session with
  | ok answer between =>
      rw [Outcome.bind_of_ok (Build.step_of_ok false run)]
      constructor
      · intro rest
        exact ⟨answer, between, rfl, rest⟩
      · rintro ⟨_, _, ⟨⟩, rest⟩
        exact rest
  | error error failed =>
      have stopped : Build.step false c.run session = .error error failed :=
        Build.step_of_error false run
      rw [Outcome.bind_of_error stopped]
      constructor
      · rintro ⟨⟩
      · rintro ⟨_, _, ⟨⟩, -⟩

/-- What each call keeps, a run of calls keeps. -/
theorem moves_runAll {R : Statement → Statement → Prop} (refl : ∀ s, R s s)
    (trans : ∀ {s t u}, R s t → R t u → R s u) (tolerant : Bool) {cs : List Call}
    (moves : ∀ c ∈ cs, c.run.Moves R) : (runAll tolerant cs).Moves R := by
  induction cs with
  | nil => exact Build.Moves.pure refl ()
  | cons c cs ih =>
      rw [runAll_cons]
      have rest := ih fun other mem => moves other (List.mem_cons_of_mem c mem)
      refine Build.Moves.bind (R := R) trans ?_ fun _ => rest
      intro session
      rw [Build.after_step]
      exact moves c List.mem_cons_self session

mutual

/-- A call, and every call in the body of a group, obeys the rule and is given what has `P`. -/
def Gives (rule : List Assignment → Prop) (P : Statement → Prop) : Call → Session → Prop
  | .group _ _ tolerant body, session =>
    GivesAll rule P tolerant body
      { statement := session.statement.config.selection, trace := session.trace }
  | c, session =>
    c.Obeys rule session ∧ (∀ value ∈ c.givenValues, value.HoldsOnly P) ∧
      ∀ member ∈ c.givenMembers, P member
termination_by structural call => call

/-- Each call that is made obeys the rule and is given what has `P`. -/
def GivesAll (rule : List Assignment → Prop) (P : Statement → Prop) (tolerant : Bool) :
    List Call → Session → Prop
  | [], _ => True
  | c :: cs, session =>
    Gives rule P c session ∧ ∀ left,
      Build.step tolerant c.run session = .ok () left → GivesAll rule P tolerant cs left
termination_by structural calls => calls

end

end Call

namespace Build

/-- A group that is built apart is added to the statement, or its failure changes nothing. -/
theorem after_groupOf (tag : Nat) (connective : Connective) (body : Build Unit)
    (session : Session) :
    ((groupOf tag connective body).after session).statement = session.statement ∨
      ∃ built : Session,
        body { statement := session.statement.config.selection, trace := session.trace } =
          .ok () built ∧
        (groupOf tag connective body).after session =
          (group tag connective built.statement).after { session with trace := built.trace } := by
  have run : groupOf tag connective body session =
      (apart session.statement.config.selection body >>= group tag connective) session := rfl
  unfold Build.after
  rw [run]
  cases inner : body
      { statement := session.statement.config.selection, trace := session.trace } with
  | ok answer built =>
      have built_apart : apart session.statement.config.selection body session =
          .ok built.statement { session with trace := built.trace } := by
        unfold apart
        rw [inner]
      exact Or.inr ⟨built, rfl, by rw [Outcome.bind_of_ok built_apart]⟩
  | error error failed =>
      have failed_apart : apart session.statement.config.selection body session =
          .error error { session with trace := failed.trace } := by
        unfold apart
        rw [inner]
      exact Or.inl (by rw [Outcome.bind_of_error failed_apart])

end Build

namespace Statement.ReachableBy

variable {rule : List Assignment → Prop}

mutual

/-- Every call leads from reachable statements to reachable ones. -/
theorem run : ∀ (c : Call) (session : Session), ReachableBy rule session.statement →
    c.Gives rule (ReachableBy rule) session → ReachableBy rule (c.run.after session).statement
  | .group tag connective tolerant body, session, reach, gives => by
      unfold Call.run Build.done
      rw [Build.after_bind_pure]
      rcases Build.after_groupOf tag connective (Call.runAll tolerant body) session with
        same | ⟨built, done, went⟩
      · rw [same]
        exact reach
      · rw [went]
        have inner := runAll tolerant body
          { statement := session.statement.config.selection, trace := session.trace }
          (.selection session.statement.config) gives
        rw [Build.after_of_ok done] at inner
        exact .group tag connective reach inner
  | .select _, session, reach, ⟨obeys, values, members⟩
  | .random _, session, reach, ⟨obeys, values, members⟩
  | .distinct, session, reach, ⟨obeys, values, members⟩
  | .tables _, session, reach, ⟨obeys, values, members⟩
  | .raw _, session, reach, ⟨obeys, values, members⟩
  | .limit _, session, reach, ⟨obeys, values, members⟩
  | .offset _, session, reach, ⟨obeys, values, members⟩
  | .lock, session, reach, ⟨obeys, values, members⟩
  | .union _ _, session, reach, ⟨obeys, values, members⟩
  | .unions _, session, reach, ⟨obeys, values, members⟩
  | .bind _, session, reach, ⟨obeys, values, members⟩
  | .condition _, session, reach, ⟨obeys, values, members⟩
  | .conditions _ _ _ _, session, reach, ⟨obeys, values, members⟩
  | .orderBy _ _, session, reach, ⟨obeys, values, members⟩
  | .groupBy _, session, reach, ⟨obeys, values, members⟩
  | .join _ _ _, session, reach, ⟨obeys, values, members⟩
  | .insert _, session, reach, ⟨obeys, values, members⟩
  | .into _, session, reach, ⟨obeys, values, members⟩
  | .values _, session, reach, ⟨obeys, values, members⟩
  | .value _, session, reach, ⟨obeys, values, members⟩
  | .update _, session, reach, ⟨obeys, values, members⟩
  | .set _, session, reach, ⟨obeys, values, members⟩
  | .delete, session, reach, ⟨obeys, values, members⟩ =>
      .call _ reach rfl obeys values members
termination_by structural call => call

/-- Every run of calls leads from reachable statements to reachable ones. -/
theorem runAll (tolerant : Bool) : ∀ (cs : List Call) (session : Session),
    ReachableBy rule session.statement →
    Call.GivesAll rule (ReachableBy rule) tolerant cs session →
    ReachableBy rule ((Call.runAll tolerant cs).after session).statement
  | [], _, reach, _ => reach
  | c :: cs, session, reach, ⟨gives, rest⟩ => by
      have stepped := run c session reach gives
      rw [← Build.after_step tolerant c.run session] at stepped
      rw [Call.runAll_cons]
      rcases Build.after_bind (Build.step tolerant c.run) (fun _ => Call.runAll tolerant cs)
        session with stopped | ⟨_, left, ran, went⟩
      · rw [stopped]
        exact stepped
      · rw [Build.after_of_ok ran] at stepped
        rw [went]
        exact runAll tolerant cs left stepped (rest left ran)
termination_by structural calls => calls

end

end Statement.ReachableBy

end SqlBuilder
