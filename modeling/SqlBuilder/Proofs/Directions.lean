import SqlBuilder.Proofs.Arrangement
import SqlBuilder.Proofs.CallLog
import SqlBuilder.Proofs.Reordering

/-!
# Orders by direction

A call that orders gives each of its columns a direction.  What a statement is
ordered by depends only on the columns of each direction, in the order of the
calls, and on which direction came first.
-/

namespace SqlBuilder

/-! ## What an order asks for -/

namespace Direction

/-- The text is the word of a direction, in any case and with any blanks around it. -/
def Spelled (text : String) : Prop :=
  Text.lower (Text.trim text) ∈ ["asc", "desc"]

/-- The direction that a text spells, if it spells one. -/
def ofText (text : String) : Direction :=
  if Text.lower (Text.trim text) = "asc" then .ascending else .descending

theorem equalFolded_eq {text : String} (word : String)
    (small : word.toList.map Char.toLower = word.toList) :
    Text.equalFolded text word = decide (Text.lower text = word) := by
  simp [Text.equalFolded, Text.lower, small, String.ext_iff, Bool.beq_eq_decide_eq]

/-- A direction is read if and only if one is spelled, and then as it is spelled. -/
theorem parse?_eq_some_iff {text : String} {d : Direction} :
    parse? text = some d ↔ Spelled text ∧ d = ofText text := by
  simp only [parse?, Spelled, ofText, equalFolded_eq "asc" rfl,
    equalFolded_eq "desc" rfl, decide_eq_true_eq, List.mem_cons, List.not_mem_nil,
    or_false]
  by_cases asc : Text.lower (Text.trim text) = "asc"
  · simp [asc, eq_comm]
  · by_cases desc : Text.lower (Text.trim text) = "desc" <;> simp [asc, desc, eq_comm]

/-- The keyword of a direction spells it. -/
theorem spelled_sql (d : Direction) : Spelled d.sql ∧ d = ofText d.sql :=
  parse?_eq_some_iff.mp (by cases d <;> rfl)

end Direction

/-- The texts that are given for directions. -/
def OrderDirections.texts : OrderDirections → List String
  | .one text => [text]
  | .each texts => texts

/-- The text for each of a number of columns. -/
def OrderDirections.forColumns (count : Nat) : OrderDirections → List String
  | .one text => List.replicate count text
  | .each texts => texts

/-- A list is read entry by entry if each entry can be read. -/
theorem Outcome.mapM_eq_ok_iff {ε α β : Type} {f : α → Except ε β} {P : α → Prop} {g : α → β}
    (each : ∀ a b, f a = .ok b ↔ P a ∧ b = g a) {as : List α} {bs : List β} :
    as.mapM f = .ok bs ↔ (∀ a ∈ as, P a) ∧ bs = as.map g := by
  induction as generalizing bs with
  | nil => simp [pure, Except.pure, eq_comm]
  | cons a as ih =>
      rw [List.mapM_cons, List.forall_mem_cons, List.map_cons]
      constructor
      · intro done
        obtain ⟨b, head, done⟩ := except_bind_ok done
        obtain ⟨rest, tail, done⟩ := except_bind_ok done
        obtain ⟨first, rfl⟩ := (each a b).mp head
        obtain ⟨others, rfl⟩ := ih.mp tail
        cases done
        exact ⟨⟨first, others⟩, rfl⟩
      · rintro ⟨⟨first, others⟩, rfl⟩
        rw [(each a _).mpr ⟨first, rfl⟩, ih.mpr ⟨others, rfl⟩]
        rfl

namespace Ordering

/-- One column with one direction, several with one for all, or several with one for each. -/
def Fits : OrderColumns → OrderDirections → Prop
  | .one _, .one _ => True
  | .one _, .each _ => False
  | .many _, .one _ => True
  | .many columns, .each texts => columns.length = texts.length

/-- The columns one by one, each with the text of its direction. -/
def singles (columns : OrderColumns) (directions : OrderDirections) : List (Column × String) :=
  columns.toList.zip (directions.forColumns columns.toList.length)

/-- A column with the direction that a text spells. -/
def single (pair : Column × String) : SortColumn :=
  ⟨.ofText pair.2, pair.1⟩

/-- The columns that an order asks for, each with its direction. -/
def asked (columns : OrderColumns) (directions : OrderDirections) : List SortColumn :=
  (singles columns directions).map single

theorem direction_eq_ok_iff {text : String} {d : Direction} :
    direction text = .ok d ↔ Direction.Spelled text ∧ d = .ofText text := by
  rw [← Direction.parse?_eq_some_iff]
  unfold direction
  cases Direction.parse? text <;> simp

theorem direction_of_spelled {text : String} (spelled : Direction.Spelled text) :
    direction text = .ok (.ofText text) :=
  direction_eq_ok_iff.mpr ⟨spelled, rfl⟩

/-- What is made of a direction is made if and only if its text spells one. -/
theorem direction_bind_eq_ok_iff {α : Type} {text : String} (f : Direction → α) {made : α} :
    (direction text >>= fun d => pure (f d)) = Except.ok made ↔
      Direction.Spelled text ∧ made = f (.ofText text) := by
  constructor
  · intro done
    obtain ⟨d, read, made⟩ := Outcome.except_bind_ok done
    obtain ⟨spelled, same⟩ := direction_eq_ok_iff.mp read
    cases made
    exact ⟨spelled, by rw [same]⟩
  · rintro ⟨spelled, rfl⟩
    rw [direction_of_spelled spelled]
    rfl

/-- An order is accepted if its shape fits and all its directions are spelled. -/
theorem pair_eq_ok_iff {columns : OrderColumns} {directions : OrderDirections}
    {read : List SortColumn} :
    pair columns directions = .ok read ↔
      Fits columns directions ∧ (∀ text ∈ directions.texts, Direction.Spelled text) ∧
        read = asked columns directions := by
  cases columns with
  | one column =>
      cases directions with
      | one text =>
          have only : asked (.one column) (.one text) = [⟨.ofText text, column⟩] := rfl
          simp only [OrderDirections.texts, List.mem_singleton, forall_eq, Fits, true_and, only]
          exact direction_bind_eq_ok_iff fun d => [(⟨d, column⟩ : SortColumn)]
      | each texts => simp [pair, Fits]
  | many columns =>
      cases directions with
      | one text =>
          have all : asked (.many columns) (.one text) =
              columns.map fun column => ⟨.ofText text, column⟩ := by
            simp only [asked, singles, OrderColumns.toList, OrderDirections.forColumns]
            induction columns with
            | nil => rfl
            | cons column columns ih =>
                rw [List.length_cons, List.replicate_succ, List.zip_cons_cons, List.map_cons, ih]
                rfl
          simp only [OrderDirections.texts, List.mem_singleton, forall_eq, Fits, true_and, all]
          exact direction_bind_eq_ok_iff fun d =>
            columns.map fun column => (⟨d, column⟩ : SortColumn)
      | each texts =>
          by_cases fits : columns.length = texts.length
          · have given : ((columns.zip texts).map Prod.snd) = texts :=
              List.map_snd_zip (Nat.le_of_eq fits.symm)
            have run : pair (.many columns) (.each texts) =
                (columns.zip texts).mapM fun pair => do
                  return (⟨← direction pair.2, pair.1⟩ : SortColumn) := if_pos fits
            have spelled : (∀ pair ∈ columns.zip texts, Direction.Spelled pair.2) ↔
                ∀ text ∈ texts, Direction.Spelled text := by
              rw [← given, List.forall_mem_map]
              rw [given]
            have each (pair : Column × String) (c : SortColumn) :
                (do return (⟨← direction pair.2, pair.1⟩ : SortColumn)) = Except.ok c ↔
                  Direction.Spelled pair.2 ∧ c = single pair :=
              direction_bind_eq_ok_iff fun d => (⟨d, pair.1⟩ : SortColumn)
            rw [run, Outcome.mapM_eq_ok_iff each, spelled]
            simp only [Fits, fits, true_and]
            rfl
          · simp [pair, Fits, fits]

end Ordering

/-! ## Columns that are worked out -/

namespace Column

/-- The text that a column gives when it is worked out next. -/
def textOn (trace : Trace) : Column → String
  | .name content => content
  | .handle label => label
  | .deferred d => d.text (trace.evaluations d.id)

/-- What is recorded when a column is worked out. -/
def events : Column → List Event
  | .deferred d => [.evaluated d.id]
  | _ => []

theorem read_run {ε : Type} (column : Column) (trace : Trace) :
    (column.read : EStateM ε Trace String) trace =
      .ok (column.textOn trace) (trace ++ column.events) := by
  cases column with
  | deferred d => exact d.eval_run trace
  | _ => simp [read, textOn, events, pure, EStateM.pure]

/-- A column has a key if its text is not blank. -/
theorem key_eq_ok_iff {column : Column} {trace left : Trace} {key : String} :
    column.key trace = .ok key left ↔
      Text.isBlank (column.textOn trace) = false ∧ key = column.textOn trace ∧
        left = trace ++ column.events := by
  have run : column.key trace = if Text.isBlank (column.textOn trace) then
      .error (.unresolvable column) (trace ++ column.events)
    else .ok (column.textOn trace) (trace ++ column.events) := by
    refine (Outcome.bind_of_ok (column.read_run trace)).trans ?_
    split <;> rfl
  rw [run]
  cases Text.isBlank (column.textOn trace) <;> simp [eq_comm]

end Column

namespace Ordering

/-- Every column has a text that is not blank, when they are worked out from left to right. -/
def Resolves : List SortColumn → Trace → Prop
  | [], _ => True
  | c :: cs, trace =>
    Text.isBlank (c.column.textOn trace) = false ∧ Resolves cs (trace ++ c.column.events)

/-- What is recorded when columns are worked out. -/
def events (cs : List SortColumn) : List Event :=
  cs.flatMap fun c => c.column.events

theorem resolves_append (front back : List SortColumn) (trace : Trace) :
    Resolves (front ++ back) trace ↔
      Resolves front trace ∧ Resolves back (trace ++ events front) := by
  induction front generalizing trace with
  | nil => simp [Resolves, events]
  | cons c cs ih => simp [Resolves, events, ih, and_assoc]

theorem resolveAll_eq_ok_iff {cs : List SortColumn} {trace left : Trace} :
    resolveAll cs trace = .ok () left ↔ Resolves cs trace ∧ left = trace ++ events cs := by
  induction cs generalizing trace with
  | nil => simp [resolveAll, Resolves, events, pure, EStateM.pure, eq_comm]
  | cons c cs ih =>
      constructor
      · intro run
        obtain ⟨key, between, keyed, run⟩ := Outcome.bind_ok run
        obtain ⟨filled, -, rfl⟩ := Column.key_eq_ok_iff.mp keyed
        obtain ⟨others, rfl⟩ := ih.mp run
        exact ⟨⟨filled, others⟩, by simp [events]⟩
      · rintro ⟨⟨filled, others⟩, rfl⟩
        refine (Outcome.bind_of_ok (Column.key_eq_ok_iff.mpr ⟨filled, rfl, rfl⟩)).trans ?_
        exact ih.mpr ⟨others, by simp [events]⟩

end Ordering

/-! ## Calls that order -/

namespace Session

/-- The session after columns are worked out and ordered by. -/
def ordered (session : Session) (cs : List SortColumn) : Session where
  statement := session.statement.addOrders cs
  trace := session.trace ++ Ordering.events cs

theorem ordered_nil (session : Session) : session.ordered [] = session := by
  obtain ⟨s, trace⟩ := session
  cases s
  simp [ordered, Ordering.events, Statement.addOrders]

theorem ordered_append (session : Session) (front back : List SortColumn) :
    (session.ordered front).ordered back = session.ordered (front ++ back) := by
  simp [ordered, Statement.addOrders, Ordering.events]

end Session

open SqlBuilder.Ordering

/-- An order succeeds if it fits, spells its directions and names columns that have a text. -/
theorem Build.orderBy_eq_ok_iff {columns : OrderColumns} {directions : OrderDirections}
    {session left : Session} :
    orderBy columns directions session = .ok () left ↔
      Fits columns directions ∧ (∀ text ∈ directions.texts, Direction.Spelled text) ∧
        Resolves (asked columns directions) session.trace ∧
        left = session.ordered (asked columns directions) := by
  rw [orderBy_eq]
  constructor
  · intro run
    obtain ⟨cs, start, read, run⟩ := Outcome.bind_ok run
    obtain ⟨paired, unchanged⟩ := Outcome.ofExcept_ok read
    rw [unchanged] at run
    obtain ⟨fits, spelled, rfl⟩ := pair_eq_ok_iff.mp (Outcome.mapError_ok paired)
    obtain ⟨_, between, observed, run⟩ := Outcome.bind_ok run
    obtain ⟨worked, same⟩ := observe_ok observed
    obtain ⟨resolves, events⟩ := resolveAll_eq_ok_iff.mp worked
    refine ⟨fits, spelled, resolves, (update_ok run).trans ?_⟩
    rw [same, events]
    rfl
  · rintro ⟨fits, spelled, resolves, rfl⟩
    have paired := pair_eq_ok_iff.mpr ⟨fits, spelled, rfl⟩
    rw [paired]
    have worked := resolveAll_eq_ok_iff.mpr ⟨resolves, rfl⟩
    exact Outcome.bind_of_ok (observe_of_ok worked)

namespace Call

/-- The calls that order by columns with directions. -/
def ordering (orders : List (OrderColumns × OrderDirections)) : List Call :=
  orders.map fun (columns, directions) => .orderBy columns directions

/-- The columns that all the orders ask for. -/
def askedByAll (orders : List (OrderColumns × OrderDirections)) : List SortColumn :=
  orders.flatMap fun (columns, directions) => asked columns directions

/-- Orders one after the other succeed as if they were one. -/
theorem runAll_ordering_eq_ok_iff {orders : List (OrderColumns × OrderDirections)}
    {session left : Session} :
    runAll false (ordering orders) session = .ok () left ↔
      (∀ order ∈ orders, Fits order.1 order.2 ∧
        ∀ text ∈ order.2.texts, Direction.Spelled text) ∧
      Resolves (askedByAll orders) session.trace ∧
      left = session.ordered (askedByAll orders) := by
  induction orders generalizing session with
  | nil =>
      simp [ordering, askedByAll, runAll, Resolves, session.ordered_nil, pure, EStateM.pure, eq_comm]
  | cons order orders ih =>
      have whole : askedByAll (order :: orders) = asked order.1 order.2 ++ askedByAll orders := rfl
      have calls : ordering (order :: orders) =
          .orderBy order.1 order.2 :: ordering orders := rfl
      rw [calls, runAll_cons_ok, List.forall_mem_cons, whole, resolves_append]
      constructor
      · rintro ⟨answer, between, first, rest⟩
        obtain ⟨fits, spelled, resolves, rfl⟩ :=
          Build.orderBy_eq_ok_iff.mp (Build.done_ok_iff.mp first).2
        obtain ⟨others, later, rfl⟩ := ih.mp rest
        exact ⟨⟨⟨fits, spelled⟩, others⟩, ⟨resolves, later⟩, session.ordered_append _ _⟩
      · rintro ⟨⟨⟨fits, spelled⟩, others⟩, ⟨resolves, later⟩, rfl⟩
        refine ⟨.done, session.ordered (asked order.1 order.2), ?_, ?_⟩
        · exact Build.done_ok_iff.mpr
            ⟨rfl, Build.orderBy_eq_ok_iff.mpr ⟨fits, spelled, resolves, rfl⟩⟩
        · exact ih.mpr ⟨others, later, (session.ordered_append _ _).symm⟩

/-- The columns that a call contributes to the order; a failing call contributes none. -/
def loggedOrders (c : Call) (session : Session) : List SortColumn :=
  match c, c.run session with
  | .orderBy columns directions, .ok _ _ => asked columns directions
  | _, _ => []

/-- A call orders by what it contributes to the log. -/
theorem orders_run (c : Call) (session : Session) :
    (c.run.after session).statement.orders =
      (session.statement.addOrders (c.loggedOrders session)).orders := by
  have others (outside : c.area? ≠ some .orders) (none : c.loggedOrders session = []) :
      (c.run.after session).statement.orders =
        (session.statement.addOrders (c.loggedOrders session)).orders := by
    rw [none]
    exact keeps_run outside session
  cases c with
  | orderBy columns directions =>
      unfold loggedOrders
      cases run : (Call.orderBy columns directions).run session with
      | ok answer left =>
          obtain ⟨-, -, -, rfl⟩ := Build.orderBy_eq_ok_iff.mp (Build.done_ok_iff.mp run).2
          rw [Build.after_of_ok run]
          rfl
      | error error left =>
          rw [after_of_failed rfl run]
          rfl
  | _ => exact others nofun rfl

/-- A call pushes what it contributes to the log on the map of order columns. -/
theorem orderGroups_run (c : Call) {session : Session}
    (arranged : session.statement.Arranged) :
    (c.run.after session).statement.orderGroups =
      Keyed.pushAll SortColumn.direction (c.loggedOrders session)
        session.statement.orderGroups := by
  have stored := Keyed.groups_eq_pushAll (c.loggedOrders session) arranged.orders
  unfold Statement.orderGroups at stored ⊢
  rw [orders_run]
  exact stored

/-- Whatever calls are made, the order is that of the log, grouped by direction. -/
theorem orderGroups_runAll (tolerant : Bool) (cs : List Call) {session : Session}
    (arranged : session.statement.Arranged) :
    ((runAll tolerant cs).after session).statement.orderGroups =
      Keyed.grouping SortColumn.direction
        (session.statement.orders ++ log loggedOrders tolerant cs session) := by
  refine holds_log (P := fun made s => s.orderGroups =
    Keyed.grouping SortColumn.direction (session.statement.orders ++ made))
    ?_ tolerant cs session [] (by rw [List.append_nil]; exact arranged.orders)
  intro c between made same
  unfold Statement.orderGroups at same ⊢
  rw [orders_run, ← List.append_assoc]
  exact Keyed.groups_foldl_insertGrouped _ same

end Call

/-! ## Orders that agree in each direction -/

/-- The opposite direction. -/
def Direction.other : Direction → Direction
  | .ascending => .descending
  | .descending => .ascending

/-- The same columns in each direction, in the same order, and the same first direction. -/
structure Ordering.SameByDirection (left right : List SortColumn) : Prop where
  columns : ∀ d, Keyed.bucket SortColumn.direction left d =
    Keyed.bucket SortColumn.direction right d
  first : left.head?.map SortColumn.direction = right.head?.map SortColumn.direction

namespace Ordering

/-- Behind its first direction a log can order in the other one only. -/
theorem directions_cons (c : SortColumn) (cs : List SortColumn) :
    ((c :: cs).map SortColumn.direction).eraseDups =
      c.direction :: ((Keyed.bucket SortColumn.direction (c :: cs) c.direction.other).map
        SortColumn.direction).eraseDups := by
  have opposite (d e : Direction) : (!(e == d)) = decide (e = d.other) := by
    cases d <;> cases e <;> rfl
  have own : c.direction ≠ c.direction.other := by
    cases c.direction <;> decide
  rw [List.map_cons, List.eraseDups_cons, List.filter_map]
  simp [Keyed.bucket, Function.comp_def, opposite, own]

theorem SameByDirection.directions {left right : List SortColumn}
    (same : SameByDirection left right) :
    (left.map SortColumn.direction).eraseDups = (right.map SortColumn.direction).eraseDups := by
  have first := same.first
  cases left with
  | nil =>
      cases right with
      | nil => rfl
      | cons d ds => simp at first
  | cons c cs =>
      cases right with
      | nil => simp at first
      | cons d ds =>
          have direction : c.direction = d.direction := by simpa using first
          rw [directions_cons, directions_cons, same.columns, direction]

end Ordering

/-- Orders that agree in each direction are stored alike. -/
theorem Statement.Arranged.addOrders_congr {s : Statement} (arranged : s.Arranged)
    {left right : List SortColumn} (same : SameByDirection left right) :
    s.addOrders left = s.addOrders right := by
  have groups := Keyed.grouping_append_congr s.orders same.directions same.columns
  rw [← Keyed.groups_foldl_insertGrouped left arranged.orders,
    ← Keyed.groups_foldl_insertGrouped right arranged.orders] at groups
  have stored := congrArg (List.flatMap Prod.snd) groups
  rw [Keyed.flatMap_groups, Keyed.flatMap_groups] at stored
  unfold addOrders
  rw [stored]

/-- The order of a statement is written alike on traces with the same events. -/
theorem Statement.agree_order (s : Statement) (g : Grammar) :
    Agree List.Perm ((s.scope g).order s.toHeader) ((s.scope g).order s.toHeader) :=
  Scope.agree_order sameTexts_perm ⟨rfl, fun _ => rfl⟩
    (Header.Alike.rebuilt (fun _ => rfl) s.toHeader s.config s.deletes s.markers s.groupCount)

theorem Statement.agree_self (s : Statement) (g : Grammar) :
    Agree List.Perm (s.sqlIn g) (s.sqlIn g) :=
  Scope.agree_statement sameTexts_perm ⟨rfl, fun _ => rfl⟩ s (Statement.Alike.refl (fun _ => rfl) s)

namespace Call

/-- Order by a column, the greatest first. -/
def newest (column : Column) : Call :=
  .orderBy (.one column) (.one Direction.descending.sql)

/-- Order by a column, the least first. -/
def oldest (column : Column) : Call :=
  .orderBy (.one column) (.one Direction.ascending.sql)

/-- What is ordered by depends only on the columns of each direction. -/
structure OrdersByDirection (session : Session) : Prop where
  /--
  Directions stand as they first appeared, each with its columns in call order,
  whatever other calls are made and whichever fail.
  -/
  grouped : ∀ (tolerant : Bool) (cs : List Call),
    ((runAll tolerant cs).after session).statement.orderGroups =
      Keyed.grouping SortColumn.direction
        (session.statement.orders ++ log loggedOrders tolerant cs session)
  /-- Orders that agree in each direction leave the same statement and are written alike. -/
  congr : ∀ (orders others : List (OrderColumns × OrderDirections)) (left left' : Session),
    runAll false (ordering orders) session = .ok () left →
    runAll false (ordering others) session = .ok () left' →
    SameByDirection (askedByAll orders) (askedByAll others) →
    left.statement = left'.statement ∧ ∀ g,
      answer ((left.statement.scope g).order left.statement.toHeader left.trace) =
        answer ((left'.statement.scope g).order left'.statement.toHeader left'.trace) ∧
      answer (left.statement.sqlIn g left.trace) = answer (left'.statement.sqlIn g left'.trace)
  /-- A list is ordered by as its columns are one after the other. -/
  inTurn : ∀ (columns : OrderColumns) (directions : OrderDirections) (left : Session),
    Build.orderBy columns directions session = .ok () left ↔
      Fits columns directions ∧ (∀ text ∈ directions.texts, Direction.Spelled text) ∧
        runAll false (ordering ((singles columns directions).map fun (column, text) =>
          (.one column, .one text))) session = .ok () left
  /-- What fits, spells its directions and names columns with a text is ordered by. -/
  succeeds : ∀ (columns : OrderColumns) (directions : OrderDirections),
    (∃ left, Build.orderBy columns directions session = .ok () left) ↔
      Fits columns directions ∧ (∀ text ∈ directions.texts, Direction.Spelled text) ∧
        Resolves (asked columns directions) session.trace
  /-- Everything else leaves the statement as it is. -/
  fails : ∀ (columns : OrderColumns) (directions : OrderDirections) (error : Error)
    (left : Session), Build.orderBy columns directions session = .error error left →
    left.statement = session.statement
  /-- A direction can be given by its keyword, as `newest` and `oldest` do. -/
  directed : ∀ (column : Column) (d : Direction),
    asked (.one column) (.one d.sql) = [⟨d, column⟩] ∧ Direction.Spelled d.sql

theorem mem_texts_of_mem_singles {columns : OrderColumns} {directions : OrderDirections}
    {pair : Column × String} (mem : pair ∈ singles columns directions) :
    pair.2 ∈ directions.texts := by
  have inTexts := (List.of_mem_zip mem).2
  cases directions with
  | one text => exact List.mem_singleton.mpr (List.eq_of_mem_replicate inTexts)
  | each texts => exact inTexts

theorem askedByAll_singles (pairs : List (Column × String)) :
    askedByAll (pairs.map fun (column, text) => (.one column, .one text)) = pairs.map single := by
  induction pairs with
  | nil => rfl
  | cons pair pairs ih => exact congrArg (single pair :: ·) ih

/-- What is ordered by depends only on the columns of each direction. -/
theorem orders_by_direction {session : Session} (reach : session.statement.Reachable) :
    OrdersByDirection session where
  grouped tolerant cs := orderGroups_runAll tolerant cs reach.arranged
  congr orders others left left' run run' same := by
    obtain ⟨-, -, rfl⟩ := runAll_ordering_eq_ok_iff.mp run
    obtain ⟨-, -, rfl⟩ := runAll_ordering_eq_ok_iff.mp run'
    have arranged : session.statement.Arranged := reach.arranged
    have statement : (session.ordered (askedByAll orders)).statement =
        (session.ordered (askedByAll others)).statement := arranged.addOrders_congr same
    have perm : (askedByAll orders).Perm (askedByAll others) :=
      Keyed.perm_of_same same.directions same.columns
    have traces : (session.ordered (askedByAll orders)).trace.Perm
        (session.ordered (askedByAll others)).trace :=
      (perm.flatMap_right _).append_left session.trace
    refine ⟨statement, fun g => ?_⟩
    rw [statement]
    exact ⟨(Statement.agree_order _ g).answer traces, (Statement.agree_self _ g).answer traces⟩
  inTurn columns directions left := by
    rw [Build.orderBy_eq_ok_iff, runAll_ordering_eq_ok_iff, askedByAll_singles]
    constructor
    · rintro ⟨fits, spelled, resolves, done⟩
      refine ⟨fits, spelled, ?_, resolves, done⟩
      intro order mem
      obtain ⟨pair, inPairs, rfl⟩ := List.mem_map.mp mem
      refine ⟨trivial, fun text isText => ?_⟩
      rw [List.mem_singleton.mp isText]
      exact spelled _ (mem_texts_of_mem_singles inPairs)
    · rintro ⟨fits, spelled, -, resolves, done⟩
      exact ⟨fits, spelled, resolves, done⟩
  succeeds columns directions := by
    constructor
    · rintro ⟨left, run⟩
      obtain ⟨fits, spelled, resolves, -⟩ := Build.orderBy_eq_ok_iff.mp run
      exact ⟨fits, spelled, resolves⟩
    · rintro ⟨fits, spelled, resolves⟩
      exact ⟨_, Build.orderBy_eq_ok_iff.mpr ⟨fits, spelled, resolves, rfl⟩⟩
  fails columns directions error left run :=
    Build.atomic_orderBy columns directions session error left run
  directed column d := by
    obtain ⟨spelled, same⟩ := Direction.spelled_sql d
    refine ⟨?_, spelled⟩
    change [(⟨.ofText d.sql, column⟩ : SortColumn)] = _
    rw [← same]

/-- Orders of all shapes, one of which does not fit. -/
def mixedOrders : List Call := [
  oldest (.name "a"),
  newest (.handle "b"),
  .orderBy (.one (.name "x")) (.each ["asc"]),
  .orderBy (.many []) (.one "desc"),
  .orderBy (.many [.name "c", .deferred ⟨0, fun _ => "d"⟩]) (.each [" Asc", "DESC\n"])]

theorem orders_by_direction_mixed :
    ((runAll true mixedOrders).after Session.fresh).statement.orderGroups =
      [(.ascending, [⟨.ascending, .name "a"⟩, ⟨.ascending, .name "c"⟩]),
        (.descending, [⟨.descending, .handle "b"⟩,
          ⟨.descending, .deferred ⟨0, fun _ => "d"⟩⟩])] := by
  have byDirection : OrdersByDirection Session.fresh := orders_by_direction (.fresh {})
  exact (byDirection.grouped true mixedOrders).trans rfl

end Call

end SqlBuilder
