import SqlBuilder.Proofs.UnionReading

/-!
# Where the row limit of a union stands

The limit of a statement that selects is written either in front of its columns
or at its end, as the grammar says.  At its end it stands behind the members of
the union and behind the order, and nothing in front of it depends on it.  Only
SQL Server puts it in front, if there is no offset, and there it belongs to the
first selection and not to the union.
-/

namespace SqlBuilder

open Factor

/-- A limit of `n` rows, behind an offset if one is given, as the dialects write it. -/
inductive RowLimit (n : Nat) : Option Nat → String → Prop where
  | limit : RowLimit n none ("LIMIT " ++ toString n)
  | limitOffset (m : Nat) :
      RowLimit n (some m) ("LIMIT " ++ toString n ++ " OFFSET " ++ toString m)
  | offsetFetch (m : Nat) {order : String} (front : order ∈ ["", "ORDER BY (SELECT 0) "]) :
      RowLimit n (some m) (order ++ "OFFSET " ++ toString m ++ " ROWS" ++
        (" FETCH NEXT " ++ toString n ++ " ROWS ONLY"))

namespace Grammar.BuiltIn

variable {g : Grammar} {escapes : Bool}

/-- Only SQL Server has something in front of the columns: a limit without an offset. -/
theorem selectTop_eq_none (builtIn : g.BuiltIn escapes) {limit offset : Option Nat}
    (placed : g = .sqlServer → limit ≠ none → offset ≠ none) :
    g.selectTop limit offset = none := by
  cases builtIn with
  | plain => rfl
  | dialect d =>
      cases d with
      | mysql | postgres | sqlite => rfl
      | sqlServer =>
          cases limit with
          | none => rfl
          | some n =>
              cases offset with
              | none => exact absurd rfl (placed rfl (Option.some_ne_none n))
              | some m => rfl

/-- What is not in front of the columns is at the end. -/
theorem pagination_eq_some (builtIn : g.BuiltIn escapes) (n : Nat) {offset : Option Nat}
    (placed : g = .sqlServer → offset ≠ none) (ordered : Bool) :
    ∃ page, g.pagination (some n) offset ordered = some page ∧ RowLimit n offset page := by
  cases builtIn with
  | plain =>
      cases offset with
      | none => exact ⟨_, rfl, .limit⟩
      | some m => exact ⟨_, rfl, .limitOffset m⟩
  | dialect d =>
      cases d with
      | mysql | postgres | sqlite =>
          cases offset with
          | none => exact ⟨_, rfl, .limit⟩
          | some m => exact ⟨_, rfl, .limitOffset m⟩
      | sqlServer =>
          cases offset with
          | none => exact absurd rfl (placed rfl)
          | some m =>
              refine ⟨_, rfl, .offsetFetch m ?_⟩
              cases ordered <;> decide

end Grammar.BuiltIn

/-! ## Statements with a limit -/

theorem Count.check_ok {count : Count} {n : Option Int64} {trace left : Trace} {m : Option Nat}
    (run : count.check n trace = .ok m left) :
    m = n.map (fun k => k.toInt.toNat) ∧ left = trace := by
  cases n with
  | none =>
      cases run
      exact ⟨rfl, rfl⟩
  | some k =>
      by_cases negative : k.toInt < 0
      · simp only [check, if_pos negative] at run
        cases run
      · simp only [check, if_neg negative] at run
        obtain ⟨same, kept⟩ := Outcome.pure_ok run
        exact ⟨same.symm, kept.symm⟩

namespace Header

/-- The number of rows that are taken, if that is limited; a random statement takes one. -/
def rowLimit? (h : Header) : Option Nat :=
  if h.isRandom then some 1
  else h.limit.bind fun n => if n.toInt < 0 then none else some n.toInt.toNat

/-- The number of rows in front of those that are taken. -/
def rowOffset (h : Header) : Option Nat :=
  h.offset.map fun k => k.toInt.toNat

theorem selectLimit_run {h : Header} {rows : Nat} (limited : h.rowLimit? = some rows)
    (trace : Trace) : h.selectLimit trace = .ok (some rows) trace := by
  unfold rowLimit? at limited
  unfold selectLimit
  cases random : h.isRandom with
  | true =>
      rw [random] at limited
      cases limited
      rfl
  | false =>
      rw [random] at limited
      obtain ⟨n, given, limited⟩ := Option.bind_eq_some_iff.mp limited
      rw [given]
      by_cases negative : n.toInt < 0
      · rw [if_pos negative] at limited
        cases limited
      · rw [if_neg negative] at limited
        cases limited
        simp only [Count.check, if_neg negative]
        rfl

theorem selectLimit_ok {h : Header} {trace left : Trace} {limit : Option Nat}
    (run : h.selectLimit trace = .ok limit left) : left = trace := by
  unfold selectLimit at run
  split at run
  · exact (Outcome.pure_ok run).2.symm
  · exact (Count.check_ok run).2

end Header

namespace Scope

variable {scope : Scope} {h : Header} {joins wheres : Render String}

/-- The limit and the offset reach the first part of a statement only by what stands in front. -/
theorem core_run {limit offset : Option Nat} {trace left : Trace} {first : String}
    (run : scope.core h limit offset joins wheres trace = .ok first left) :
    ∃ selected, ∀ limit offset, scope.core h limit offset joins wheres trace =
      .ok ("SELECT" ++ (if h.distinct then " DISTINCT" else "") ++
        spaced (scope.grammar.selectTop limit offset) ++ selected) left := by
  obtain ⟨columns, between, start, run⟩ := Outcome.bind_ok run
  obtain ⟨body, rest, written, run⟩ := Outcome.bind_ok run
  obtain ⟨-, rfl⟩ := Outcome.pure_ok run
  refine ⟨" " ++ columns ++ body, fun limit offset => ?_⟩
  refine (Outcome.bind_of_ok start).trans ((Outcome.bind_of_ok written).trans ?_)
  simp only [String.append_assoc]
  rfl

end Scope

namespace Statement

/-- The statement with a limit, or none, in place of its own. -/
def limitedTo (s : Statement) (limit : Option Int64) : Statement :=
  { s with limit }

/--
If a statement that selects is rendered, so it is with any limit.  The limit
reaches its text in two places only: in front of the columns, and behind the
order.
-/
theorem sqlIn_limitedTo {s : Statement} {g : Grammar} (kind : s.kind ∈ [.select, .random])
    {trace left : Trace} {sql : String} (rendered : s.sqlIn g trace = .ok sql left) :
    ∃ selected others order,
      (∀ limit offset, Yields
        ((s.scope g).core s.toHeader limit offset ((s.scope g).joins s.joins)
          ((s.scope g).wheres s))
        ("SELECT" ++ (if s.distinct then " DISTINCT" else "") ++
          Scope.spaced (g.selectTop limit offset) ++ selected)) ∧
      Yields ((s.scope g).members s.members) others ∧
      Yields ((s.scope g).order s.toHeader) order ∧
      ∀ limit rows, (s.limitedTo limit).rowLimit? = some rows →
        (s.limitedTo limit).sqlIn g trace =
          .ok ("SELECT" ++ (if s.distinct then " DISTINCT" else "") ++
            Scope.spaced (g.selectTop (some rows) s.rowOffset) ++ selected ++ others ++
            (order ++ (s.scope g).pagination (some rows) s.rowOffset s.isOrdered ++
              (s.scope g).lockSuffix s.toHeader)) left := by
  rw [sqlIn, Scope.statement_of_selects kind, Scope.select_eq] at rendered
  obtain ⟨limit, start, limited, counted⟩ := Outcome.bind_ok rendered
  obtain ⟨offset, between, skipped, opened⟩ := Outcome.bind_ok counted
  obtain ⟨first, chosen, selects, united⟩ := Outcome.bind_ok opened
  obtain ⟨others, joined, combines, closed⟩ := Outcome.bind_ok united
  obtain ⟨last, ended, ends, done⟩ := Outcome.bind_ok closed
  obtain ⟨order, sorted, orders, paged⟩ := Outcome.bind_ok ends
  obtain ⟨selected, core⟩ := Scope.core_run selects
  have fresh := Header.selectLimit_ok limited
  obtain ⟨given, kept⟩ := Count.check_ok skipped
  have finished := (Outcome.pure_ok paged).2
  have same := (Outcome.pure_ok done).2
  subst given kept fresh finished same
  refine ⟨selected, others, order, fun limit offset => ⟨_, _, core limit offset⟩,
    ⟨_, _, combines⟩, ⟨_, _, orders⟩, fun limit rows leaves => ?_⟩
  -- The same steps answer alike with the other limit, since only two texts depend on it.
  have kind' : (s.limitedTo limit).kind ∈ [.select, .random] := kind
  rw [sqlIn, Scope.statement_of_selects kind', Scope.select_eq]
  refine (Outcome.bind_of_ok (Header.selectLimit_run leaves _)).trans ?_
  refine (Outcome.bind_of_ok skipped).trans ?_
  refine (Outcome.bind_of_ok (core _ _)).trans ?_
  refine (Outcome.bind_of_ok combines).trans ?_
  exact Outcome.bind_of_ok (Outcome.bind_of_ok orders)

/--
If a statement that selects is rendered by a built-in grammar, it is so with any
limit: first comes the selection as it is without a limit, then the members of
the union, the order, and the limit behind them.  For SQL Server this holds if
there is an offset.
-/
theorem limit_behind_union {g : Grammar} {escapes : Bool} (builtIn : g.BuiltIn escapes)
    {s : Statement} (kind : s.kind ∈ [.select, .random])
    (placed : g = .sqlServer → s.offset ≠ none) {trace left : Trace} {sql : String}
    (rendered : s.sqlIn g trace = .ok sql left) :
    ∃ first others order,
      Yields ((s.scope g).core s.toHeader none none ((s.scope g).joins s.joins)
        ((s.scope g).wheres s)) first ∧
      Yields ((s.scope g).members s.members) others ∧
      Yields ((s.scope g).order s.toHeader) order ∧
      ∀ limit rows, (s.limitedTo limit).rowLimit? = some rows →
        ∃ page, RowLimit rows s.rowOffset page ∧ (s.limitedTo limit).sqlIn g trace =
          .ok (first ++ others ++ order ++ " " ++ page ++ (s.scope g).lockSuffix s.toHeader)
            left := by
  obtain ⟨selected, others, order, core, combines, orders, limits⟩ :=
    sqlIn_limitedTo kind rendered
  have placed' : g = .sqlServer → s.rowOffset ≠ none := by
    intro server none
    exact placed server (Option.map_eq_none_iff.mp none)
  have noTop : g.selectTop none none = none :=
    builtIn.selectTop_eq_none fun _ given => absurd rfl given
  refine ⟨_, others, order, core none none, combines, orders, fun limit rows leaves => ?_⟩
  obtain ⟨page, pages, form⟩ := builtIn.pagination_eq_some rows placed' s.isOrdered
  have top : g.selectTop (some rows) s.rowOffset = none :=
    builtIn.selectTop_eq_none fun server _ => placed' server
  have behind : (s.scope g).pagination (some rows) s.rowOffset s.isOrdered = " " ++ page := by
    have same : (s.scope g).grammar = g := rfl
    simp only [Scope.pagination, same, top, Option.isSome_none, Bool.false_eq_true, if_false,
      pages, Scope.spaced]
  refine ⟨page, form, ?_⟩
  rw [limits limit rows leaves, top, noTop, behind]
  simp only [String.append_assoc]

/-- The second page of a union, five rows long. -/
def secondPage : Statement :=
  { ({} : Config).selection with
    tables := [.text "a"]
    members := [⟨{ ({} : Config).selection with tables := [.text "b"] }, true⟩]
    limit := some 5
    offset := some 5 }

theorem limit_behind_union_secondPage :
    secondPage.sqlIn .sqlServer [] = .ok ("SELECT * FROM [a] UNION ALL SELECT * FROM [b]" ++
        " ORDER BY (SELECT 0) OFFSET 5 ROWS FETCH NEXT 5 ROWS ONLY") [] ∧
      ∃ first others order page,
        Yields ((secondPage.scope .sqlServer).members secondPage.members) others ∧
        RowLimit 5 (some 5) page ∧ secondPage.sqlIn .sqlServer [] =
          .ok (first ++ others ++ order ++ " " ++ page ++ "") [] := by
  have rendered : secondPage.sqlIn .sqlServer [] =
      .ok ("SELECT * FROM [a] UNION ALL SELECT * FROM [b]" ++
        " ORDER BY (SELECT 0) OFFSET 5 ROWS FETCH NEXT 5 ROWS ONLY") [] := rfl
  obtain ⟨first, others, order, -, combines, -, limits⟩ :=
    limit_behind_union (.dialect .sqlServer) (by decide : secondPage.kind ∈ [.select, .random])
      (fun _ => by decide) rendered
  obtain ⟨page, form, same⟩ := limits (some 5) 5 rfl
  exact ⟨rendered, first, others, order, page, combines, form, same⟩

/--
SQL Server writes a limit without an offset in front of the columns of the
first selection, and nothing behind the members of the union but the order.
-/
theorem limit_in_first_selection {s : Statement} (kind : s.kind ∈ [.select, .random])
    (noOffset : s.offset = none) {trace left : Trace} {sql : String}
    (rendered : s.sqlIn .sqlServer trace = .ok sql left) :
    ∃ selected others order,
      Yields ((s.scope .sqlServer).members s.members) others ∧
      Yields ((s.scope .sqlServer).order s.toHeader) order ∧
      ∀ limit rows, (s.limitedTo limit).rowLimit? = some rows →
        (s.limitedTo limit).sqlIn .sqlServer trace =
          .ok ("SELECT" ++ (if s.distinct then " DISTINCT" else "") ++ " TOP " ++ toString rows ++
            selected ++ others ++ order) left := by
  obtain ⟨selected, others, order, -, combines, orders, limits⟩ := sqlIn_limitedTo kind rendered
  refine ⟨selected, others, order, combines, orders, fun limit rows leaves => ?_⟩
  have first : s.rowOffset = none := Option.map_eq_none_iff.mpr noOffset
  have top : Grammar.sqlServer.selectTop (some rows) none = some ("TOP " ++ toString rows) := rfl
  have unpaged : (s.scope .sqlServer).pagination (some rows) none s.isOrdered = "" := rfl
  have unlocked : (s.scope .sqlServer).lockSuffix s.toHeader = "" := by
    unfold Scope.lockSuffix
    split <;> rfl
  rw [limits limit rows leaves, first, top, unpaged, unlocked]
  simp only [Scope.spaced, String.append_assoc, String.append_empty]
  rfl

/-- A union for SQL Server whose first statement was given a limit, made by calls. -/
def firstFive : Statement :=
  ((Call.limit 5).run.after
    { statement := (selecting { grammar := .sqlServer } "a").unitedWith true
        (selecting { grammar := .sqlServer } "b") }).statement

/-- The limit stands in front of the columns of the first selection and not behind the union. -/
theorem limit_precedes_union :
    firstFive.Reachable ∧ firstFive.kind = .select ∧ firstFive.limit = some 5 ∧
      Yields ((firstFive.scope .sqlServer).members firstFive.members)
        " UNION ALL SELECT * FROM [b]" ∧
      Yields firstFive.sql ("SELECT TOP 5 * FROM [a]" ++ " UNION ALL SELECT * FROM [b]") := by
  have reach (table : String) : (selecting { grammar := .sqlServer } table).Reachable :=
    reachable_selecting _ table
  refine ⟨?_, rfl, rfl, ⟨[], [], rfl⟩, ⟨[], [], rfl⟩⟩
  refine .call _ ((reach "a").unitedWith true (reach "b")) rfl trivial ?_ ?_ <;>
    exact fun _ mem => nomatch mem

end Statement

end SqlBuilder
