import SqlBuilder.Proofs.Locality
import SqlBuilder.Proofs.Noninterference

/-!
# The order of clauses

Calls of different families can be made in either order: each of them depends
on its own part of the statement only, and leaves the parts of the others
alone.  A run of calls can therefore be reordered as long as the calls of each
family stay in order, and leads to the same statement, but for the order in
which parameter names were recorded.
-/

namespace SqlBuilder

/-- Two sessions that differ in recorded names and in the order of events only. -/
structure Session.Twin (x y : Session) : Prop where
  config : x.statement.config = y.statement.config
  kind : x.statement.kind = y.statement.kind
  read : ∀ f : Family, f.read x.statement = f.read y.statement
  trace : x.trace.Perm y.trace

namespace Session.Twin

variable {x y z : Session}

theorem refl (x : Session) : x.Twin x :=
  ⟨rfl, rfl, fun _ => rfl, .refl _⟩

theorem trans (first : x.Twin y) (second : y.Twin z) : x.Twin z :=
  ⟨first.config.trans second.config, first.kind.trans second.kind,
    fun f => (first.read f).trans (second.read f), first.trace.trans second.trace⟩

theorem ready {config : Config} {kind : StatementKind} (twin : x.Twin y)
    (ready : x.Ready config kind) : y.Ready config kind := by
  refine ⟨twin.config.symm.trans ready.config, ?_⟩
  have admits := ready.admits
  unfold Statement.Admits at admits ⊢
  rwa [twin.kind] at admits

end Session.Twin

namespace Call

/-- A call that may be moved among others, on statements that become of the kind. -/
structure Movable (config : Config) (kind : StatementKind) (c : Call) : Prop where
  intent : ∀ k, c.intent? = some k → k = kind
  unbound : c.NestsUnbound config
  stable : c.Stable

variable {config : Config} {kind : StatementKind} {x y left : Session}

theorem Movable.isLocal {c : Call} (movable : c.Movable config kind) :
    Build.Local config kind c.family c.intent?.isSome c.run :=
  c.local_run movable.intent movable.unbound movable.stable

/-- On twins a call succeeds alike, and leaves twins. -/
theorem Movable.twin_run {c : Call} {a : Answer} (movable : c.Movable config kind)
    (ready : x.Ready config kind) (twin : x.Twin y) (run : c.run x = .ok a left) :
    ∃ left', c.run y = .ok a left' ∧ left.Twin left' := by
  obtain ⟨events, left', run', same, leavesX, leavesY⟩ :=
    movable.isLocal x y left a ready (twin.ready ready) (twin.read c.family) run
  refine ⟨left', run', ?_, ?_, ?_, ?_⟩
  · rw [leavesX.config, leavesY.config, twin.config]
  · rw [leavesX.kind, leavesY.kind, twin.kind]
  · intro g
    by_cases own : g = c.family
    · rw [own, same]
    · rw [leavesX.others g own, leavesY.others g own, twin.read]
  · rw [leavesX.trace, leavesY.trace]
    exact twin.trace.append_right events

/-- What a call leaves is ready for further calls. -/
theorem Movable.ready_run {c : Call} {a : Answer} (movable : c.Movable config kind)
    (ready : x.Ready config kind) (run : c.run x = .ok a left) : left.Ready config kind := by
  obtain ⟨events, left', -, -, leaves, -⟩ := movable.isLocal x x left a ready ready rfl run
  exact leaves.ready ready

/-- On twins a run succeeds alike, and leaves twins. -/
theorem twin_runAll {cs : List Call} (movable : ∀ c ∈ cs, c.Movable config kind)
    (ready : x.Ready config kind) (twin : x.Twin y) (run : runAll false cs x = .ok () left) :
    ∃ left', runAll false cs y = .ok () left' ∧ left.Twin left' := by
  induction cs generalizing x y with
  | nil =>
      cases run
      exact ⟨y, rfl, twin⟩
  | cons c cs ih =>
      obtain ⟨a, m, first, rest⟩ := runAll_cons_ok.mp run
      have head := movable c List.mem_cons_self
      obtain ⟨m', first', twins⟩ := head.twin_run ready twin first
      obtain ⟨left', rest', lefts⟩ := ih (fun other mem => movable other (List.mem_cons_of_mem c mem))
        (head.ready_run ready first) twins rest
      exact ⟨left', runAll_cons_ok.mpr ⟨a, m', first', rest'⟩, lefts⟩

/-- Two calls of different families can be swapped. -/
theorem swap {c d : Call} {a b : Answer} {m e : Session} (movable : c.Movable config kind)
    (movable' : d.Movable config kind) (distinct : c.family ≠ d.family)
    (ready : x.Ready config kind) (first : c.run x = .ok a m) (second : d.run m = .ok b e) :
    ∃ m' e', d.run x = .ok b m' ∧ c.run m' = .ok a e' ∧ e.Twin e' := by
  obtain ⟨_, _, -, -, leaves, -⟩ := movable.isLocal x x m a ready ready rfl first
  obtain ⟨eventsD, m', second', sameD, leavesD, leavesD'⟩ := movable'.isLocal m x e b
    (leaves.ready ready) ready (leaves.others d.family distinct.symm) second
  obtain ⟨eventsC, e', first', sameC, leavesC, leavesC'⟩ := movable.isLocal x m' m a ready
    (leavesD'.ready ready) (leavesD'.others c.family distinct).symm first
  refine ⟨m', e', second', first', ?_, ?_, ?_, ?_⟩
  · rw [leavesD.config, leavesC.config, leavesC'.config, leavesD'.config]
  · rw [leavesD.kind, leavesC.kind, leavesC'.kind, leavesD'.kind]
    cases c.intent?.isSome <;> cases d.intent?.isSome <;> rfl
  · intro g
    by_cases ofC : g = c.family
    · rw [leavesD.others g (ofC ▸ distinct), ofC, sameC]
    · by_cases ofD : g = d.family
      · rw [leavesC'.others g ofC, ofD, sameD]
      · rw [leavesD.others g ofD, leavesC.others g ofC, leavesC'.others g ofC,
          leavesD'.others g ofD]
  · rw [leavesD.trace, leavesC.trace, leavesC'.trace, leavesD'.trace, List.append_assoc,
      List.append_assoc]
    exact List.perm_append_comm.append_left x.trace

/-- A call can be made before calls of other families. -/
theorem pull_front {c : Call} {front back : List Call} (movable : c.Movable config kind)
    (all : ∀ d ∈ front ++ back, d.Movable config kind) (distinct : ∀ d ∈ front, d.family ≠ c.family)
    (ready : x.Ready config kind) (run : runAll false (front ++ c :: back) x = .ok () left) :
    ∃ left', runAll false (c :: (front ++ back)) x = .ok () left' ∧ left.Twin left' := by
  induction front generalizing x with
  | nil => exact ⟨left, run, .refl left⟩
  | cons p front ih =>
      obtain ⟨a, m, first, rest⟩ := runAll_cons_ok.mp run
      have head := all p List.mem_cons_self
      -- `c` comes to the front of what follows `p`, and then changes places with `p`
      obtain ⟨left₁, pulled, twin₁⟩ := ih
        (fun d mem => all d (List.mem_cons_of_mem p mem))
        (fun d mem => distinct d (List.mem_cons_of_mem p mem)) (head.ready_run ready first) rest
      obtain ⟨b, e, second, rest⟩ := runAll_cons_ok.mp pulled
      obtain ⟨m', e', second', first', twins⟩ :=
        swap head movable (distinct p List.mem_cons_self) ready first second
      have readyE := movable.ready_run (head.ready_run ready first) second
      obtain ⟨left₂, rest', twin₂⟩ := twin_runAll
        (fun d mem => all d (List.mem_cons_of_mem p mem)) readyE twins rest
      refine ⟨left₂, ?_, twin₁.trans twin₂⟩
      exact runAll_cons_ok.mpr ⟨b, m', second', runAll_cons_ok.mpr ⟨a, e', first', rest'⟩⟩

/-- The calls of each family stand in the same order in both lists. -/
def SameOrder (calls reordered : List Call) : Prop :=
  ∀ f : Family, reordered.filter (·.family = f) = calls.filter (·.family = f)

/-- A run may be reordered as long as the calls of each family stay in order. -/
theorem reorder {calls reordered : List Call} (all : ∀ c ∈ calls, c.Movable config kind)
    (order : SameOrder calls reordered) (ready : x.Ready config kind)
    (run : runAll false calls x = .ok () left) :
    ∃ left', runAll false reordered x = .ok () left' ∧ left.Twin left' := by
  induction reordered generalizing calls x left with
  | nil =>
      cases calls with
      | nil => exact ⟨left, run, .refl left⟩
      | cons c calls =>
          have none := order c.family
          simp at none
  | cons c reordered ih =>
      -- `c` is the first of its family in the old order too, so that only calls of other families
      -- stand before it there
      have own := (order c.family).symm
      rw [List.filter_cons_of_pos (by simp)] at own
      obtain ⟨front, back, rfl, distinct, -, kept⟩ := List.filter_eq_cons_iff.mp own
      have distinct (d : Call) (mem : d ∈ front) : d.family ≠ c.family := by
        simpa using distinct d mem
      have movable := all c (by simp)
      have others (d : Call) (mem : d ∈ front ++ back) : d.Movable config kind := by
        refine all d ?_
        rw [List.mem_append, List.mem_cons]
        exact (List.mem_append.mp mem).imp_right Or.inr
      obtain ⟨left₁, pulled, twin₁⟩ := pull_front movable others distinct ready run
      obtain ⟨a, m, first, rest⟩ := runAll_cons_ok.mp pulled
      have order' : SameOrder (front ++ back) reordered := by
        intro f
        have whole := order f
        rw [List.filter_append] at whole ⊢
        by_cases ofC : c.family = f
        · subst ofC
          have none : front.filter (·.family = c.family) = [] := by
            simpa using distinct
          rw [none, List.nil_append, kept]
        · rw [List.filter_cons_of_neg (by simpa using ofC),
            List.filter_cons_of_neg (by simpa using ofC)] at whole
          exact whole
      obtain ⟨left₂, rest', twin₂⟩ := ih others order' (movable.ready_run ready first) rest
      exact ⟨left₂, runAll_cons_ok.mpr ⟨a, m, first, rest'⟩, twin₁.trans twin₂⟩

/-! ## The kind that a run leads to -/

/-- A successful call for a kind leaves a statement of the kind. -/
theorem kind_of_intent {c : Call} {a : Answer} (intent : c.intent? = some kind)
    (unbound : c.NestsUnbound x.statement.config) (stable : c.Stable)
    (run : c.run x = .ok a left) : left.statement.kind = kind := by
  -- for another kind the call would have failed
  have admits : x.statement.Admits kind := by
    rcases Classical.em (x.statement.Admits kind) with admits | refuses
    · exact admits
    · obtain ⟨error, failed, fails, -, -⟩ := Call.failsFor_intent intent refuses
      rw [run] at fails
      cases fails
  have only (k : StatementKind) (same : c.intent? = some k) : k = kind :=
    Option.some.inj (same.symm.trans intent)
  obtain ⟨_, _, -, -, leaves, -⟩ :=
    c.local_run only unbound stable x x left a ⟨rfl, admits⟩ ⟨rfl, admits⟩ rfl run
  have taken := leaves.kind
  rwa [intent] at taken

/-- All calls of a successful run that are for a kind are for the one that it leads to. -/
theorem intent_of_runAll {calls : List Call}
    (unbound : ∀ c ∈ calls, c.NestsUnbound x.statement.config) (stable : ∀ c ∈ calls, c.Stable)
    (run : runAll false calls x = .ok () left) :
    ∀ c ∈ calls, ∀ k, c.intent? = some k → k = left.statement.kind := by
  induction calls generalizing x with
  | nil =>
      intro c mem
      cases mem
  | cons c cs ih =>
      obtain ⟨a, m, first, rest⟩ := runAll_cons_ok.mp run
      have config : m.statement.config = x.statement.config := by
        have same := c.config_run x
        rwa [Build.after_of_ok first] at same
      intro d mem k intent
      rcases List.mem_cons.mp mem with rfl | later
      · have taken : m.statement.kind = k := kind_of_intent intent
          (unbound d List.mem_cons_self) (stable d List.mem_cons_self) first
        have kept := keepsKind_runAll false cs m
        rw [Build.after_of_ok rest] at kept
        -- the kind that `d` takes is a decided one, so that it lasts to the end of the run
        rcases kept with undecided | same
        · rw [taken] at undecided
          subst undecided
          cases d <;> cases intent
        · exact taken.symm.trans same.symm
      · rw [← config] at unbound
        exact ih (fun d mem => unbound d (List.mem_cons_of_mem c mem))
          (fun d mem => stable d (List.mem_cons_of_mem c mem)) rest d later k intent

end Call

/-! ## The statement that a run leads to -/

/-- A deferred text gives the same on traces with the same events, in whatever order. -/
theorem sameTexts_perm : SameTexts Eq List.Perm where
  text := by
    rintro d _ t u rfl perm
    unfold Trace.evaluations
    rw [perm.count_eq]
  next := by
    rintro d _ t u rfl perm
    exact perm.append_right _

/-- Recorded names are not rendered. -/
theorem Statement.agree_markers (s : Statement) (markers : List String) (g : Grammar) :
    Agree List.Perm (s.sqlIn g) (Statement.sqlIn { s with markers } g) := by
  refine Scope.agree_statement sameTexts_perm ⟨rfl, fun _ => rfl⟩ s ?_
  exact Statement.Alike.rebuilt (fun _ => rfl) s s.config s.deletes markers s.groupCount s.bindings

namespace Call

/--
The order of calls of different families does not matter.  If a run succeeds,
nests no statement with bindings, and works out stable columns only, then every
reordering that keeps the calls of each family in order succeeds as well.  It
leaves the same statement, but for the order of recorded names, and the same
events in some order.  Both statements render to the same text or fail with
the same error in every grammar.
-/
theorem families_commute {session left : Session} {calls reordered : List Call}
    (unbound : ∀ c ∈ calls, c.NestsUnbound session.statement.config)
    (stable : ∀ c ∈ calls, c.Stable) (order : SameOrder calls reordered)
    (run : runAll false calls session = .ok () left) :
    ∃ left' : Session, runAll false reordered session = .ok () left' ∧
      left'.statement = { left.statement with markers := left'.statement.markers } ∧
      left.trace.Perm left'.trace ∧
      ∀ g : Grammar,
        Agree List.Perm (left.statement.sqlIn g) (left'.statement.sqlIn g) ∧
        answer (left.statement.sqlIn g left.trace) =
          answer (left'.statement.sqlIn g left'.trace) := by
  have ready : session.Ready session.statement.config left.statement.kind := by
    have kept := keepsKind_runAll false calls session
    rw [Build.after_of_ok run] at kept
    exact ⟨rfl, kept.imp_right Eq.symm⟩
  have movable (c : Call) (mem : c ∈ calls) :
      c.Movable session.statement.config left.statement.kind :=
    ⟨intent_of_runAll unbound stable run c mem, unbound c mem, stable c mem⟩
  obtain ⟨left', run', twin⟩ := reorder movable order ready run
  have same : left'.statement = { left.statement with markers := left'.statement.markers } :=
    Family.eq_of_read twin.config twin.kind twin.read
  refine ⟨left', run', same, twin.trace, fun g => ?_⟩
  have agree : Agree List.Perm (left.statement.sqlIn g) (left'.statement.sqlIn g) := by
    rw [same]
    exact left.statement.agree_markers left'.statement.markers g
  exact ⟨agree, agree.answer twin.trace⟩

/-- An update of one table. -/
def userUpdate : Statement :=
  { ({} : Config).statement with kind := .update, updateTables := [.text "users"] }

/-- An assignment. -/
def setName : Call :=
  .set [(.name "name", .parameter "name")]

/-- A condition on a column that is worked out when the call is made. -/
def whereId : Call :=
  .condition ⟨.deferred ⟨0, fun _ => "id"⟩, some "=", .parameter "id", .and⟩

/-- The update with the assignment and the condition. -/
def userRenamed (markers : List String) : Session where
  statement :=
    { userUpdate with
      assignments := [⟨"name", .name "name", .parameter "name"⟩]
      predicates := [⟨"id", .deferred ⟨0, fun _ => "id"⟩, some .equal, .parameter "id", .and⟩]
      markers }
  trace := [.evaluated 0]

theorem families_commute_update :
    runAll false [whereId, setName] { statement := userUpdate } =
        .ok () (userRenamed ["id", "name"]) ∧
      answer ((userRenamed ["id", "name"]).statement.sqlIn .mysql [.evaluated 0]) =
        .ok "UPDATE `users` SET `name` = :name WHERE id = :id" := by
  have run : runAll false [setName, whereId] { statement := userUpdate } =
      .ok () (userRenamed ["name", "id"]) := rfl
  have order : SameOrder [setName, whereId] [whereId, setName] := by
    intro f
    cases f <;> rfl
  have both (P : Call → Prop) (assignment : P setName) (condition : P whereId) :
      ∀ c ∈ [setName, whereId], P c := by
    simp [assignment, condition]
  have unbound : ∀ c ∈ [setName, whereId], c.NestsUnbound userUpdate.config := by
    refine both _ ⟨?_, (fun _ mem => nomatch mem), (fun _ _ _ _ same => nomatch same)⟩
      ⟨?_, (fun _ mem => nomatch mem), (fun _ _ _ _ same => nomatch same)⟩
    all_goals
      intro v given inner holds
      cases List.mem_singleton.mp given
      cases holds
  have stable : ∀ c ∈ [setName, whereId], c.Stable :=
    both _ (fun _ mem => by cases List.mem_singleton.mp mem; trivial) (fun _ _ => rfl)
  obtain ⟨left, run', same, -, texts⟩ := families_commute unbound stable order run
  have known : runAll false [whereId, setName] { statement := userUpdate } =
      .ok () (userRenamed ["id", "name"]) := rfl
  cases run'.symm.trans known
  refine ⟨run', (texts .mysql).2.symm.trans ?_⟩
  rfl

end Call

end SqlBuilder
