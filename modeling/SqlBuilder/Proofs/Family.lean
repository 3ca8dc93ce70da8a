import SqlBuilder.Proofs.Intent
import SqlBuilder.Proofs.Timeless

/-!
# Families of clauses

Calls fall into families, and each family has a part of the statement to
itself.  Besides that part, a call may take a kind for the statement and add
to the recorded names, but nothing else.  A call is local to its family if, on
statements of one configuration that may be of one kind, its success and what
it leaves of the part depend on the part alone.
-/

namespace SqlBuilder

/-- The families of clauses. -/
inductive Family where
  | selection
  | tables
  | joins
  | conditions
  | groups
  | orders
  | limit
  | offset
  | flags
  | target
  | insertColumns
  | rows
  | updateTables
  | assignments
  | deletion
  | members
  | rawText
  | bindings
  deriving DecidableEq

/-- The family that a call belongs to. -/
def Call.family : Call → Family
  | .select _ | .random _ => .selection
  | .tables _ => .tables
  | .join _ _ _ => .joins
  | .condition _ | .conditions _ _ _ _ | .group _ _ _ _ => .conditions
  | .groupBy _ => .groups
  | .orderBy _ _ => .orders
  | .limit _ => .limit
  | .offset _ => .offset
  | .distinct | .lock => .flags
  | .into _ => .target
  | .insert _ => .insertColumns
  | .values _ | .value _ => .rows
  | .update _ => .updateTables
  | .set _ => .assignments
  | .delete => .deletion
  | .union _ _ | .unions _ => .members
  | .raw _ => .rawText
  | .bind _ => .bindings

namespace Family

/-- What a family has to itself; the count of groups goes with the conditions. -/
abbrev Content : Family → Type
  | selection | tables | groups | insertColumns | updateTables => List Expression
  | joins => List Join
  | conditions => List Predicate × Nat
  | orders => List SortColumn
  | limit | offset => Option Int64
  | flags => Bool × Bool
  | target => Option Expression
  | rows => List (List Value)
  | assignments => List Assignment
  | deletion => Bool
  | members => List UnionMember
  | rawText => Option String
  | bindings => List Binding

/-- The part of a statement that belongs to a family. -/
def read : (f : Family) → Statement → f.Content
  | selection, s => s.columns
  | tables, s => s.tables
  | joins, s => s.joins
  | conditions, s => (s.predicates, s.groupCount)
  | groups, s => s.groups
  | orders, s => s.orders
  | limit, s => s.limit
  | offset, s => s.offset
  | flags, s => (s.distinct, s.locked)
  | target, s => s.target
  | insertColumns, s => s.insertColumns
  | rows, s => s.rows
  | updateTables, s => s.updateTables
  | assignments, s => s.assignments
  | deletion, s => s.deletes
  | members, s => s.members
  | rawText, s => s.rawText
  | bindings, s => s.bindings

/-- The statement with another part for the family. -/
def write : (f : Family) → f.Content → Statement → Statement
  | selection, items, s => { s with columns := items }
  | tables, items, s => { s with tables := items }
  | joins, items, s => { s with joins := items }
  | conditions, (items, count), s => { s with predicates := items, groupCount := count }
  | groups, items, s => { s with groups := items }
  | orders, items, s => { s with orders := items }
  | limit, n, s => { s with limit := n }
  | offset, n, s => { s with offset := n }
  | flags, (distinct, locked), s => { s with distinct, locked }
  | target, item, s => { s with target := item }
  | insertColumns, items, s => { s with insertColumns := items }
  | rows, items, s => { s with rows := items }
  | updateTables, items, s => { s with updateTables := items }
  | assignments, items, s => { s with assignments := items }
  | deletion, deletes, s => { s with deletes }
  | members, items, s => { s with members := items }
  | rawText, text, s => { s with rawText := text }
  | bindings, items, s => { s with bindings := items }

variable {f g : Family} {content : f.Content} {s t : Statement}

theorem read_write (f : Family) (content : f.Content) (s : Statement) :
    f.read (f.write content s) = content := by
  cases f <;> rfl

/-- The parts of the other families stay as they are. -/
theorem read_write_of_ne (other : g ≠ f) : g.read (f.write content s) = g.read s := by
  cases f <;> cases g <;> first | exact absurd rfl other | rfl

theorem config_write : (f.write content s).config = s.config := by
  cases f <;> rfl

/-- Recorded names and the kind are no part of any family. -/
theorem read_header (f : Family) (s : Statement) (kind : StatementKind) (markers : List String) :
    f.read { s with kind, markers } = f.read s := by
  cases f <;> rfl

/-- The statement with another part for the family, other recorded names, and perhaps a kind. -/
def store (f : Family) (kind : StatementKind) (takes : Bool) (content : f.Content)
    (mark : List String → List String) (s : Statement) : Statement :=
  { f.write content s with kind := bif takes then kind else s.kind, markers := mark s.markers }

variable {kind : StatementKind} {takes : Bool} {mark : List String → List String}

theorem read_store : f.read (f.store kind takes content mark s) = content :=
  (f.read_header _ _ _).trans (f.read_write content s)

theorem read_store_of_ne (other : g ≠ f) :
    g.read (f.store kind takes content mark s) = g.read s :=
  (g.read_header _ _ _).trans (read_write_of_ne other)

/-- If no names are recorded and no kind is taken, then only the part is written. -/
theorem store_plain : f.store kind false content id s = f.write content s := by
  cases f <;> rfl

/-- If the part is written as it is, then only the kind is taken. -/
theorem store_read : f.store kind true (f.read s) id s = { s with kind } := by
  cases f <;> rfl

theorem config_store : (f.store kind takes content mark s).config = s.config :=
  config_write

/-- The families together make up a statement, but for its recorded names. -/
theorem eq_of_read (config : s.config = t.config) (kind : s.kind = t.kind)
    (read : ∀ f : Family, f.read s = f.read t) : t = { s with markers := t.markers } := by
  have columns := read .selection
  have tables := read .tables
  have joins := read .joins
  have conditions := read .conditions
  have groups := read .groups
  have orders := read .orders
  have limit := read .limit
  have offset := read .offset
  have flags := read .flags
  have target := read .target
  have insertColumns := read .insertColumns
  have rows := read .rows
  have updateTables := read .updateTables
  have assignments := read .assignments
  have deletion := read .deletion
  have members := read .members
  have rawText := read .rawText
  have bindings := read .bindings
  cases s
  cases t
  simp_all [Family.read]

end Family

/-! ## Local calls -/

/-- The statement has the configuration, and may be of the kind. -/
structure Session.Ready (config : Config) (kind : StatementKind) (session : Session) : Prop where
  config : session.statement.config = config
  admits : session.statement.Admits kind

/--
What a call of one family leaves: the other parts as they were, the kind as it
was unless the call takes one, and some more events.
-/
structure Session.Leaves (kind : StatementKind) (f : Family) (takes : Bool)
    (events : List Event) (before left : Session) : Prop where
  config : left.statement.config = before.statement.config
  kind : left.statement.kind = bif takes then kind else before.statement.kind
  others : ∀ g : Family, g ≠ f → g.read left.statement = g.read before.statement
  trace : left.trace = before.trace ++ events

namespace Session.Leaves

variable {config : Config} {kind : StatementKind} {f : Family} {takes also : Bool}
  {events more : List Event} {before between left : Session}

theorem ready (leaves : Leaves kind f takes events before left)
    (start : before.Ready config kind) : left.Ready config kind := by
  refine ⟨leaves.config.trans start.config, ?_⟩
  cases takes with
  | true => exact Or.inr leaves.kind
  | false =>
      have same : left.statement.kind = before.statement.kind := leaves.kind
      unfold Statement.Admits
      rw [same]
      exact start.admits

theorem trans (first : Leaves kind f takes events before between)
    (second : Leaves kind f also more between left) :
    Leaves kind f (takes || also) (events ++ more) before left where
  config := second.config.trans first.config
  kind := by
    rw [second.kind, first.kind]
    cases takes <;> cases also <;> rfl
  others g other := (second.others g other).trans (first.others g other)
  trace := by rw [second.trace, first.trace, List.append_assoc]

end Session.Leaves

namespace Build

/--
A call that is local to a family.  If it succeeds on a statement, then it does
on every other one with the same part, with the same answer and the same
events, and leaves the same part there.
-/
def Local {α : Type} (config : Config) (kind : StatementKind) (f : Family) (takes : Bool)
    (call : Build α) : Prop :=
  ∀ (x y left : Session) (a : α), x.Ready config kind → y.Ready config kind →
    f.read x.statement = f.read y.statement → call x = .ok a left →
    ∃ events left', call y = .ok a left' ∧ f.read left.statement = f.read left'.statement ∧
      x.Leaves kind f takes events left ∧ y.Leaves kind f takes events left'

variable {α β : Type} {config : Config} {kind : StatementKind} {f : Family} {takes also : Bool}

theorem local_pure (a : α) : Local config kind f false (pure a : Build α) := by
  intro x y left b readyX readyY same run
  cases run
  exact ⟨[], y, rfl, same, ⟨rfl, rfl, fun _ _ => rfl, (List.append_nil _).symm⟩,
    ⟨rfl, rfl, fun _ _ => rfl, (List.append_nil _).symm⟩⟩

theorem local_throw (e : Error) : Local config kind f takes (throw e : Build α) := by
  intro x y left b readyX readyY same run
  cases run

theorem local_bind {first : Build α} {next : α → Build β} (start : Local config kind f takes first)
    (then_ : ∀ a x left, Session.Ready config kind x → first x = .ok a left →
      Local config kind f also (next a)) :
    Local config kind f (takes || also) (first >>= next) := by
  intro x y left b readyX readyY same run
  obtain ⟨a, m, ran, run⟩ := Outcome.bind_ok run
  obtain ⟨events, m', ran', same', leavesX, leavesY⟩ := start x y m a readyX readyY same ran
  obtain ⟨more, left', went, alike, thenX, thenY⟩ :=
    then_ a x m readyX ran m m' left b (leavesX.ready readyX) (leavesY.ready readyY) same' run
  exact ⟨events ++ more, left', (Outcome.bind_of_ok ran').trans went, alike,
    leavesX.trans thenX, leavesY.trans thenY⟩

/-- What follows takes the kind, if anything does. -/
theorem local_then {first : Build α} {next : α → Build β} (start : Local config kind f false first)
    (then_ : ∀ a, Local config kind f takes (next a)) :
    Local config kind f takes (first >>= next) := by
  have whole := local_bind start fun a _ _ _ _ => then_ a
  rwa [Bool.false_or] at whole

theorem local_observe {action : EStateM Error Trace α} (steady : Steady action) :
    Local config kind f false (observe action) := by
  intro x y left a readyX readyY same run
  obtain ⟨events, ⟨b, went⟩ | ⟨e, went⟩⟩ := steady
  · cases (observe_of_ok (went x.trace)).symm.trans run
    exact ⟨events, _, observe_of_ok (went y.trace), same, ⟨rfl, rfl, fun _ _ => rfl, rfl⟩,
      ⟨rfl, rfl, fun _ _ => rfl, rfl⟩⟩
  · cases (observe_of_error (went x.trace)).symm.trans run

/-- A call may look at the configuration and at the part of its family. -/
theorem local_get (next : Statement → Build β)
    (same : ∀ s t : Statement, s.config = t.config → f.read s = f.read t → next s = next t)
    (then_ : ∀ s : Statement, s.config = config → Local config kind f takes (next s)) :
    Local config kind f takes (get >>= fun session => next session.statement) := by
  intro x y left a readyX readyY alike run
  have step := then_ x.statement readyX.config x y left a readyX readyY alike run
  have one := same x.statement y.statement (readyX.config.trans readyY.config.symm) alike
  rw [one] at step
  exact step

/--
A change of the part of one family, of the recorded names, and perhaps of the
kind.  What is done, and whether it can be done, depends on the part alone.
-/
theorem local_change {rewrite : Statement → Except Error Statement}
    (step : f.Content → Except Error (f.Content × (List String → List String)))
    (writes : ∀ s : Statement, s.Admits kind → rewrite s =
      (step (f.read s)).map fun done => f.store kind takes done.1 done.2 s) :
    Local config kind f takes (change rewrite) := by
  have ran {session : Session} {content : f.Content} {mark : List String → List String}
      (ready : session.Ready config kind)
      (done : step (f.read session.statement) = .ok (content, mark)) :
      change rewrite session =
        .ok () { session with statement := f.store kind takes content mark session.statement } := by
    refine change_of_ok ?_
    rw [writes _ ready.admits, done]
    rfl
  have leaves (session : Session) (content : f.Content) (mark : List String → List String) :
      session.Leaves kind f takes []
        { session with statement := f.store kind takes content mark session.statement } :=
    ⟨Family.config_store, rfl, fun g other => Family.read_store_of_ne other,
      (List.append_nil _).symm⟩
  intro x y left a readyX readyY same run
  cases done : step (f.read x.statement) with
  | error e =>
      have failed : change rewrite x = .error e x := by
        refine change_of_error ?_
        rw [writes _ readyX.admits, done]
        rfl
      rw [failed] at run
      cases run
  | ok result =>
      obtain ⟨content, mark⟩ := result
      rw [ran readyX done] at run
      cases run
      rw [same] at done
      exact ⟨[], _, ran readyY done, Family.read_store.trans Family.read_store.symm,
        leaves x content mark, leaves y content mark⟩

end Build

end SqlBuilder
