import SqlBuilder.Proofs.Directions
import SqlBuilder.Proofs.Enclosure

/-!
# Writes are stored as they were logged

Assignments are stored one for each key: the last one, in the place of the
first one.  A row is open until the next row is added, and writes go to the
open row only.  Statements that update or insert list them in this order.
-/

namespace SqlBuilder

open Factor

/-! ## Rows that are written -/

/-- What a call writes into the rows. -/
inductive RowWrite where
  /-- A new row. -/
  | row (fields : List Value)
  /-- All the fields of the last row. -/
  | whole (fields : List Value)
  /-- One more field of the last row. -/
  | field (value : Value)

namespace RowWrite

/-- What a value writes: a list takes the place of the row. -/
def ofValue : Value → RowWrite
  | .list fields => .whole fields
  | value => .field value

/-- The rows from the one that is open: it takes what is written until the next row. -/
def rowsFrom (opened : List Value) : List RowWrite → List (List Value)
  | [] => [opened]
  | .row fields :: writes => opened :: rowsFrom fields writes
  | .whole fields :: writes => rowsFrom fields writes
  | .field value :: writes => rowsFrom (opened ++ [value]) writes

/-- The rows that are written; before the first row nothing is. -/
def rows : List RowWrite → List (List Value)
  | [] => []
  | .row fields :: writes => rowsFrom fields writes
  | _ :: writes => rows writes

theorem rowsFrom_row (opened : List Value) (writes : List RowWrite) (fields : List Value) :
    rowsFrom opened (writes ++ [.row fields]) = rowsFrom opened writes ++ [fields] := by
  induction writes generalizing opened with
  | nil => rfl
  | cons write writes ih => cases write <;> simp [rowsFrom, ih]

theorem rows_row (writes : List RowWrite) (fields : List Value) :
    rows (writes ++ [.row fields]) = rows writes ++ [fields] := by
  induction writes with
  | nil => rfl
  | cons write writes ih =>
      cases write with
      | row first => exact rowsFrom_row first writes fields
      | whole _ | field _ => exact ih

/-- A value goes to the last row. -/
theorem rowsFrom_ofValue (opened : List Value) (writes : List RowWrite) :
    ∃ front last, rowsFrom opened writes = front ++ [last] ∧ ∀ value,
      rowsFrom opened (writes ++ [ofValue value]) =
        front ++ [Statement.extendedRow last value] := by
  induction writes generalizing opened with
  | nil =>
      refine ⟨[], opened, rfl, fun value => ?_⟩
      cases value <;> rfl
  | cons write writes ih =>
      cases write with
      | row fields =>
          obtain ⟨front, last, ends, written⟩ := ih fields
          exact ⟨opened :: front, last, by simp [rowsFrom, ends], fun value => by
            simp [rowsFrom, written]⟩
      | whole fields => exact ih fields
      | field value => exact ih (opened ++ [value])

theorem rows_ofValue {writes : List RowWrite} {front : List (List Value)} {last : List Value}
    (ends : rows writes = front ++ [last]) (value : Value) :
    rows (writes ++ [ofValue value]) = front ++ [Statement.extendedRow last value] := by
  induction writes with
  | nil => simp [rows] at ends
  | cons write writes ih =>
      cases write with
      | row first =>
          obtain ⟨front', last', ends', written⟩ := rowsFrom_ofValue first writes
          have same : front' ++ [last'] = front ++ [last] := ends'.symm.trans ends
          obtain ⟨rfl, rfl⟩ := List.append_singleton_inj.mp same
          exact written value
      | whole _ | field _ => exact ih ends

/-- Rows that are added one after the other are the rows. -/
theorem rows_map_row (stored : List (List Value)) : rows (stored.map .row) = stored := by
  induction stored using List.reverseRecOn with
  | nil => rfl
  | append_singleton stored fields ih => rw [List.map_append, List.map_singleton, rows_row, ih]

end RowWrite

/-! ## The logs -/

/-- The assignments of columns that are worked out from left to right, under their texts. -/
def Assignment.written : List (Column × Value) → Trace → List Assignment
  | [], _ => []
  | (column, value) :: pairs, trace =>
    ⟨column.textOn trace, column, value⟩ :: written pairs (trace ++ column.events)

theorem Assignment.resolveAll_ok {pairs : List (Column × Value)} {trace left : Trace}
    {assignments : List Assignment}
    (run : Assignment.resolveAll pairs trace = .ok assignments left) :
    assignments = written pairs trace := by
  induction pairs generalizing trace left assignments with
  | nil => exact (Outcome.pure_ok run).1.symm
  | cons pair pairs ih =>
      obtain ⟨key, between, keyed, run⟩ := Outcome.bind_ok run
      obtain ⟨-, rfl, rfl⟩ := Column.key_eq_ok_iff.mp keyed
      obtain ⟨others, later, resolved, run⟩ := Outcome.bind_ok run
      obtain ⟨rfl, -⟩ := Outcome.pure_ok run
      rw [ih resolved]
      rfl

namespace Call

/-- The assignments that a call contributes to the log; a failing call contributes none. -/
def loggedAssignments (c : Call) (session : Session) : List Assignment :=
  match c, c.run session with
  | .set pairs, .ok _ _ => Assignment.written pairs session.trace
  | _, _ => []

/-- What a call contributes to the log of the rows; a failing call contributes nothing. -/
def loggedRows (c : Call) (session : Session) : List RowWrite :=
  match c, c.run session with
  | .values row, .ok _ _ => [.row row]
  | .value field, .ok _ _ => [.ofValue field]
  | _, _ => []

variable {session left : Session}

/-- A call assigns what it contributes to the log, each in the place of the old one of its key. -/
theorem assignments_run (c : Call) (session : Session) :
    (c.run.after session).statement.assignments =
      (c.loggedAssignments session).foldl
        (fun stored a => Keyed.upsert Assignment.key a stored) session.statement.assignments := by
  have others (outside : c.area? ≠ some .assignments) (none : c.loggedAssignments session = []) :
      (c.run.after session).statement.assignments =
        (c.loggedAssignments session).foldl
          (fun stored a => Keyed.upsert Assignment.key a stored)
          session.statement.assignments := by
    rw [none]
    exact keeps_run outside session
  cases c with
  | set pairs =>
      unfold loggedAssignments
      cases run : (Call.set pairs).run session with
      | ok answer left =>
          obtain ⟨assignments, resolved, done⟩ :=
            Build.set_ok_iff.mp (Build.done_ok_iff.mp run).2
          obtain ⟨replaced, names, taken, -, -, stored⟩ := Statement.assign_ok done
          rw [Build.after_of_ok run, stored, Assignment.resolveAll_ok resolved]
      | error error left =>
          rw [after_of_failed rfl run]
          rfl
  | _ => exact others nofun rfl

/-- A call writes into the rows what it contributes to the log. -/
theorem rows_run {made : List RowWrite} (c : Call)
    (stored : session.statement.rows = RowWrite.rows made) :
    (c.run.after session).statement.rows = RowWrite.rows (made ++ c.loggedRows session) := by
  have others (outside : c.area? ≠ some .rows) (none : c.loggedRows session = []) :
      (c.run.after session).statement.rows = RowWrite.rows (made ++ c.loggedRows session) := by
    rw [none, List.append_nil, ← stored]
    exact keeps_run outside session
  cases c with
  | values row =>
      unfold loggedRows
      cases run : (Call.values row).run session with
      | ok answer left =>
          obtain ⟨names, taken, -, added⟩ :=
            Statement.addRow_ok (Build.values_ok (Build.done_ok_iff.mp run).2)
          rw [Build.after_of_ok run, added, RowWrite.rows_row, stored]
      | error error left =>
          rw [after_of_failed rfl run, List.append_nil, stored]
  | value field =>
      unfold loggedRows
      cases run : (Call.value field).run session with
      | ok answer left =>
          obtain ⟨last, replaced, names, taken, ends, -, -, extended⟩ :=
            Statement.extendRow_ok (Build.value_ok (Build.done_ok_iff.mp run).2)
          have split : RowWrite.rows made = session.statement.rows.dropLast ++ [last] := by
            rw [← stored, List.dropLast_append_getLast? last ends]
          rw [Build.after_of_ok run, extended, RowWrite.rows_ofValue split]
      | error error left =>
          rw [after_of_failed rfl run, List.append_nil, stored]
  | _ => exact others nofun rfl

/-- Whatever calls are made, each key is assigned its last value, in the place of its first. -/
theorem assignments_runAll (tolerant : Bool) (cs : List Call)
    (arranged : session.statement.Arranged) :
    ((runAll tolerant cs).after session).statement.assignments =
      Keyed.latest Assignment.key
        (session.statement.assignments ++ log loggedAssignments tolerant cs session) := by
  refine holds_log (P := fun made s => s.assignments =
    Keyed.latest Assignment.key (session.statement.assignments ++ made))
    ?_ tolerant cs session [] ?_
  · intro c between made same
    rw [assignments_run, same, Keyed.foldl_upsert_latest, List.append_assoc]
  · rw [List.append_nil, Keyed.latest_of_distinct arranged.assignments]

/-- Whatever calls are made, the rows are those of the log behind the earlier ones. -/
theorem rows_runAll (tolerant : Bool) (cs : List Call) (session : Session) :
    ((runAll tolerant cs).after session).statement.rows =
      RowWrite.rows (session.statement.rows.map .row ++ log loggedRows tolerant cs session) := by
  refine holds_log (P := fun made s => s.rows =
    RowWrite.rows (session.statement.rows.map .row ++ made)) ?_ tolerant cs session [] ?_
  · intro c between made same
    rw [← List.append_assoc]
    exact rows_run c same
  · rw [List.append_nil, RowWrite.rows_map_row]

end Call

/-! ## How writes are written -/

namespace Scope

variable {scope : Scope}

/-- An assignment as it is written. -/
def assignment (scope : Scope) (a : Assignment) : Render String := do
  let column ← scope.column a.column
  let text ← scope.value a.value
  return column ++ " = " ++ text

/-- A row as it is written. -/
def tuple (scope : Scope) (row : List Value) : Render String := do
  return "(" ++ ", ".intercalate (← row.mapM scope.value) ++ ")"

theorem values_eq (items : List Value) : scope.values items = items.mapM scope.value := by
  induction items with
  | nil => simp [values]
  | cons item items ih => simp [values, ih]

theorem assignments_eq (as : List Assignment) :
    scope.assignments as = as.mapM scope.assignment := by
  induction as with
  | nil => simp [assignments]
  | cons a as ih =>
      cases a
      simp [assignments, assignment, ih]

/-- What is written one after the other is as much as there is to write. -/
theorem length_of_mapM {α : Type} {f : α → Render String} {as : List α} {texts : List String}
    (yields : Yields (as.mapM f) texts) : texts.length = as.length := by
  induction as generalizing texts with
  | nil =>
      rw [← yields_pure yields]
      rfl
  | cons a as ih =>
      rw [List.mapM_cons] at yields
      obtain ⟨first, -, yields⟩ := yields_bind yields
      obtain ⟨others, rest, yields⟩ := yields_bind yields
      rw [← yields_pure yields, List.length_cons, List.length_cons, ih rest]

theorem checkWidth_ok {row fields columns : Nat} {trace left : Trace}
    (run : checkWidth row fields columns trace = .ok () left) : left = trace := by
  unfold checkWidth at run
  split at run
  · cases run
  · exact (Outcome.pure_ok run).2.symm

/-- Rows of the right width are written one after the other. -/
theorem rows_ok {columns index : Nat} {rs : List (List Value)} {texts : List String}
    {trace left : Trace} (run : scope.rows columns index rs trace = .ok texts left) :
    rs.mapM scope.tuple trace = .ok texts left := by
  induction rs generalizing index texts trace with
  | nil => simpa [rows] using run
  | cons row rs ih =>
      obtain ⟨_, between, checked, run⟩ := Outcome.bind_ok run
      obtain ⟨fields, next, written, run⟩ := Outcome.bind_ok run
      obtain ⟨others, last, rest, run⟩ := Outcome.bind_ok run
      obtain ⟨rfl, rfl⟩ := Outcome.pure_ok run
      rw [checkWidth_ok checked, values_eq] at written
      have first : scope.tuple row trace =
          .ok ("(" ++ ", ".intercalate fields ++ ")") next := Outcome.bind_of_ok written
      rw [List.mapM_cons]
      exact (Outcome.bind_of_ok first).trans (Outcome.bind_of_ok (ih rest))

end Scope

/-- A statement that updates lists its assignments. -/
theorem Statement.updates_listed {s : Statement} {g : Grammar} {sql : String}
    (kind : s.kind = .update) (yields : Yields (s.sqlIn g) sql) :
    ∃ tables texts filtered tail,
      Yields ((s.scope g).updateTables s.toHeader) tables ∧
      Yields (s.assignments.mapM (s.scope g).assignment) texts ∧
      texts.length = s.assignments.length ∧
      Yields ((s.scope g).wheres s) filtered ∧
      Yields ((s.scope g).writeTail s.toHeader .update) tail ∧
      sql = "UPDATE " ++ tables ++ " SET " ++ ", ".intercalate texts ++ filtered ++ tail := by
  rw [sqlIn, statement_eq, kind] at yields
  obtain ⟨_, -, yields⟩ := yields_bind yields
  obtain ⟨tables, named, yields⟩ := yields_bind yields
  obtain ⟨-, yields⟩ := yields_guarded yields
  obtain ⟨texts, assigned, yields⟩ := yields_bind yields
  obtain ⟨filtered, wheres, yields⟩ := yields_bind yields
  obtain ⟨tail, ended, yields⟩ := yields_bind yields
  rw [Scope.assignments_eq] at assigned
  exact ⟨tables, texts, filtered, tail, named, assigned, Scope.length_of_mapM assigned, wheres,
    ended, (yields_pure yields).symm⟩

/-- A statement that inserts lists its rows. -/
theorem Statement.inserts_listed {s : Statement} {g : Grammar} {sql : String}
    (kind : s.kind = .insert) (yields : Yields (s.sqlIn g) sql) :
    ∃ target table columns texts,
      s.target = some target ∧ Yields ((s.scope g).expression target) table ∧
      Yields ((s.scope g).insertColumns s.toHeader) columns ∧
      Yields (s.rows.mapM (s.scope g).tuple) texts ∧
      texts.length = s.rows.length ∧
      sql = "INSERT INTO " ++ table ++ columns ++ " VALUES " ++ ", ".intercalate texts := by
  rw [sqlIn, statement_eq, kind] at yields
  obtain ⟨target, named, yields⟩ := yields_bind yields
  obtain ⟨-, yields⟩ := yields_guarded yields
  obtain ⟨texts, ⟨trace, left, run⟩, yields⟩ := yields_bind yields
  obtain ⟨table, expressed, yields⟩ := yields_bind yields
  obtain ⟨columns, listed, yields⟩ := yields_bind yields
  have written : Yields (s.rows.mapM (s.scope g).tuple) texts := ⟨trace, left, Scope.rows_ok run⟩
  refine ⟨target, table, columns, texts, ?_, expressed, listed, written,
    Scope.length_of_mapM written, (yields_pure yields).symm⟩
  cases given : s.target with
  | none =>
      rw [Scope.insertTarget, given] at named
      exact absurd named (not_yields_throw _)
  | some other =>
      rw [Scope.insertTarget, given] at named
      rw [yields_pure named]

/-- A statement stores and lists the writes of its logs. -/
structure Statement.ListsWrites (s : Statement) (assigned : List Assignment)
    (written : List RowWrite) : Prop where
  /-- Each key is assigned once: its last column and value, in the place of its first. -/
  assignments : s.assignments = Keyed.latest Assignment.key assigned
  /-- Rows are in the order in which they were added, each with what was written into it. -/
  rows : s.rows = RowWrite.rows written
  /-- Whenever the statement updates, it lists its assignments in this order. -/
  updates : s.kind = .update → ∀ g sql, Yields (s.sqlIn g) sql →
    ∃ tables texts filtered tail,
      Yields ((s.scope g).updateTables s.toHeader) tables ∧
      Yields ((Keyed.latest Assignment.key assigned).mapM (s.scope g).assignment) texts ∧
      texts.length = (Keyed.latest Assignment.key assigned).length ∧
      Yields ((s.scope g).wheres s) filtered ∧
      Yields ((s.scope g).writeTail s.toHeader .update) tail ∧
      sql = "UPDATE " ++ tables ++ " SET " ++ ", ".intercalate texts ++ filtered ++ tail
  /-- Whenever the statement inserts, it lists its rows in this order. -/
  inserts : s.kind = .insert → ∀ g sql, Yields (s.sqlIn g) sql →
    ∃ target table columns texts,
      s.target = some target ∧ Yields ((s.scope g).expression target) table ∧
      Yields ((s.scope g).insertColumns s.toHeader) columns ∧
      Yields ((RowWrite.rows written).mapM (s.scope g).tuple) texts ∧
      texts.length = (RowWrite.rows written).length ∧
      sql = "INSERT INTO " ++ table ++ columns ++ " VALUES " ++ ", ".intercalate texts

namespace Call

/-- A call changes no row but the last, and removes none. -/
theorem earlier_rows_stay (c : Call) (session : Session) :
    session.statement.rows.dropLast <+: (c.run.after session).statement.rows := by
  have kept {s : Statement} (same : s.rows = session.statement.rows) :
      session.statement.rows.dropLast <+: s.rows :=
    same ▸ List.dropLast_prefix _
  by_cases outside : c.area? = some .rows
  · cases run : c.run session with
    | error error left =>
        have whole : c.isWhole = true := by
          cases c <;> first | rfl | cases outside
        rw [after_of_failed whole run]
        exact kept rfl
    | ok answer left =>
        rw [Build.after_of_ok run]
        cases c with
        | values row =>
            obtain ⟨names, taken, -, added⟩ :=
              Statement.addRow_ok (Build.values_ok (Build.done_ok_iff.mp run).2)
            rw [added]
            exact (List.dropLast_prefix _).trans (List.prefix_append _ _)
        | value field =>
            obtain ⟨last, replaced, names, taken, -, -, -, extended⟩ :=
              Statement.extendRow_ok (Build.value_ok (Build.done_ok_iff.mp run).2)
            rw [extended]
            exact List.prefix_append _ _
        | _ => cases outside
  · exact kept (keeps_run outside session)

/--
Whatever calls are made, a statement has one assignment for each key that was
written, the last one in the place of the first, and the rows that were added,
each with what was written into it while it was the last.  Statements that
update or insert list them in this order, and no call changes an earlier row.
-/
theorem writes_refine_log {session : Session} (reach : session.statement.Reachable)
    (tolerant : Bool) (cs : List Call) :
    ((runAll tolerant cs).after session).statement.ListsWrites
        (session.statement.assignments ++ log loggedAssignments tolerant cs session)
        (session.statement.rows.map .row ++ log loggedRows tolerant cs session) ∧
      ∀ (c : Call) (session : Session),
        session.statement.rows.dropLast <+: (c.run.after session).statement.rows := by
  have assigned := assignments_runAll tolerant cs reach.arranged
  have written := rows_runAll tolerant cs session
  refine ⟨⟨assigned, written, fun kind g sql yields => ?_, fun kind g sql yields => ?_⟩,
    earlier_rows_stay⟩
  · rw [← assigned]
    exact Statement.updates_listed kind yields
  · rw [← written]
    exact Statement.inserts_listed kind yields

/-- Writes with a repeated key, a replaced and an extended row, and with failures in between. -/
def mixedWrites : List Call := [
  .set [(.name "a", .int 1), (.name "b", .int 2), (.name "a", .text "x")],
  .set [(.name "c", .int 3), (.name " ", .int 4)],
  .set [(.handle "b", .null)],
  .value (.int 5),
  .values [.int 6],
  .value (.list [.null, .text "y"]),
  .values [],
  .value (.bool true)]

theorem writes_refine_log_mixed :
    (((runAll true mixedWrites).after Session.fresh).statement.assignments.map fun a =>
        (a.key, a.value.shape)) = [("a", .text), ("b", .null)] ∧
      (((runAll true mixedWrites).after Session.fresh).statement.rows.map fun row =>
        row.map Value.shape) = [[.null, .text], [.bool]] := by
  have start : Session.fresh.statement.Reachable := .fresh {}
  obtain ⟨lists, -⟩ := writes_refine_log start true mixedWrites
  rw [lists.assignments, lists.rows]
  constructor
  · decide +kernel
  · decide +kernel

end Call

end SqlBuilder
