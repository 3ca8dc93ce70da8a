import SqlBuilder.Proofs.Literal
import SqlBuilder.Proofs.Nesting
import SqlBuilder.Proofs.Occurrences

/-!
# The layout of statements

Each clause is laid out with the occurrences in it, from left to right, and a
statement with those of its clauses.  A statement that inserts works out its
rows first; wherever none does, the order of the evaluations is the order of
the text.
-/

namespace SqlBuilder

/-! ## Clauses -/

namespace Scope

open Occurrence

variable (scope : Scope) (h : Header)

theorem lays_eval (d : Deferred) : Lays d.eval [.shown d] := by
  refine ⟨[.place (.shown d)], rfl, fun trace text left done => ?_⟩
  rw [Deferred.eval_run] at done
  cases done
  exact ⟨String.append_empty.symm, rfl⟩

theorem lays_column (c : Column) : Lays (scope.column c) (ofColumn .shown c) := by
  cases c with
  | name content => exact .fixed (scope.wrapped content)
  | handle label => exact .fixed (scope.wrapped label)
  | deferred d => exact lays_eval d

/-- A column that is worked out where `1 = 0` stands. -/
theorem lays_never (c : Column) :
    Lays (scope.column c >>= fun _ => pure "1 = 0") (ofColumn .hidden c) := by
  cases c with
  | name _ | handle _ => exact .fixed "1 = 0"
  | deferred d =>
      refine ⟨[.place (.hidden d)], rfl, fun trace text left done => ?_⟩
      obtain ⟨_, _, ran, done⟩ := Outcome.bind_ok done
      rw [show scope.column (.deferred d) = d.eval from rfl, Deferred.eval_run] at ran
      cases ran
      obtain ⟨rfl, rfl⟩ := Outcome.pure_ok done
      exact ⟨String.append_empty.symm, rfl⟩

theorem lays_expression (item : Expression) : Lays (scope.expression item) (ofExpression item) := by
  cases item with
  | text content => exact .fixed (scope.wrapped content)
  | raw content => exact .fixed content
  | deferred d => exact lays_eval d

theorem lays_expressionTexts (items : List Expression) :
    LaysEach (scope.expressionTexts items) (ofExpressions items) := by
  induction items with
  | nil => exact .nil
  | cons item items ih => exact (lays_expression scope item).cons ih

theorem lays_expressions (items : List Expression) :
    Lays (scope.expressions items) (ofExpressions items) :=
  (lays_expressionTexts scope items).intercalate ", "

theorem lays_orderTexts (orders : List SortColumn) :
    LaysEach (scope.orderTexts orders) (ofOrders orders) := by
  induction orders with
  | nil => exact .nil
  | cons c orders ih =>
      have first := (lays_column scope c.column).ahead (" " ++ c.direction.sql)
      simpa only [orderTexts, ofOrders, List.flatMap_cons, bind_assoc, pure_bind,
        String.append_assoc] using first.cons ih

/-- Where nothing is written there are no occurrences. -/
theorem lays_clause (keyword : String) {isEmpty : Bool} {rest : Render String}
    {os : List Occurrence} (none : isEmpty = true → os = []) (lays : Lays rest os) :
    Lays (clause keyword isEmpty rest) os := by
  unfold clause
  cases isEmpty with
  | true =>
      rw [none rfl]
      exact .fixed ""
  | false => exact lays.behind keyword

theorem of_isEmpty {α : Type} {of : List α → List Occurrence} (nil : of [] = []) {items : List α}
    (empty : items.isEmpty = true) : of items = [] := by
  rw [List.isEmpty_iff.mp empty, nil]

theorem lays_columns : Lays (scope.columns h) (ofExpressions h.columns) := by
  unfold columns
  split
  · next empty =>
      rw [List.isEmpty_iff.mp empty]
      exact .fixed "*"
  · exact lays_expressions scope h.columns

theorem lays_tables : Lays (scope.tables h) (ofExpressions h.tables) := by
  have texts := ((lays_expressionTexts scope h.tables).map_ahead
    (scope.tableHint h)).intercalate ", "
  simp only [bind_assoc, pure_bind] at texts
  exact lays_clause " FROM " (of_isEmpty rfl) texts

theorem lays_groups : Lays (scope.groups h) (ofExpressions h.groups) :=
  lays_clause " GROUP BY " (of_isEmpty rfl)
    (lays_expressions scope h.groups)

theorem lays_body {joins wheres : Render String} {js ws : List Occurrence} (joined : Lays joins js)
    (filtered : Lays wheres ws) :
    Lays (scope.body h joins wheres)
      (ofExpressions h.tables ++ js ++ ws ++ ofExpressions h.groups) := by
  have parts := ((lays_tables scope h).append joined).append filtered
  simpa only [body, bind_assoc, pure_bind, String.append_assoc] using
    parts.append (lays_groups scope h)

theorem lays_order : Lays (scope.order h) (ofOrders h.orders) := by
  have texts := ((lays_orderTexts scope h.orders).append_fixed
    (if h.isRandom then [scope.grammar.randomOrder] else [])).intercalate ", "
  simp only [bind_assoc, pure_bind] at texts
  refine lays_clause " ORDER BY " (fun unordered => ?_) texts
  have empty : h.orders = [] := by simp_all [Header.isOrdered]
  rw [empty]
  rfl

theorem settled_check (count : Count) (n : Option Int64) : Settled (count.check n) := by
  cases n with
  | none => exact Or.inl ⟨none, rfl⟩
  | some n =>
      unfold Count.check
      dsimp only
      split
      · exact Or.inr ⟨_, rfl⟩
      · exact Or.inl ⟨_, rfl⟩

theorem settled_checkJoins (kind : WriteKind) (hasJoins : Bool) :
    Settled (checkJoins kind hasJoins) := by
  unfold checkJoins
  split
  · exact Or.inr ⟨_, rfl⟩
  · exact Or.inl ⟨_, rfl⟩

theorem lays_select {joins wheres members : Render String} {js ws ms : List Occurrence}
    (joined : Lays joins js) (filtered : Lays wheres ws) (united : Lays members ms) :
    Lays (scope.select h joins wheres members)
      (ofExpressions h.columns ++
        (ofExpressions h.tables ++ js ++ ws ++ ofExpressions h.groups) ++ ms ++
        ofOrders h.orders) := by
  have settled : Settled h.selectLimit := by
    unfold Header.selectLimit
    split
    · exact Or.inl ⟨some 1, rfl⟩
    · exact settled_check .limit h.limit
  refine .after settled fun limit => .after (settled_check .offset h.offset) fun offset => ?_
  have columns := (lays_columns scope h).behind
    ("SELECT" ++ (if h.distinct then " DISTINCT" else "") ++
      spaced (scope.grammar.selectTop limit offset) ++ " ")
  have whole := ((columns.append (lays_body scope h joined filtered)).append united).append
    (lays_order scope h)
  simpa only [bind_assoc, pure_bind, String.append_assoc] using
    whole.ahead (scope.pagination limit offset h.isOrdered ++ scope.lockSuffix h)

theorem lays_member {statement : Render String} {os : List Occurrence} (lays : Lays statement os) :
    Lays (scope.member h statement) os := by
  refine .guarded _ ?_
  cases !(h.isRandom || h.isBounded) with
  | true => simpa only [if_true, bind_pure] using lays
  | false =>
      cases scope.grammar.parenthesizesMembers with
      | true =>
          simpa only [Bool.false_eq_true, if_true, if_false, bind_assoc, pure_bind] using
            (lays.behind "(").ahead ")"
      | false => exact .bind_throw statement (.boundedMember scope.grammar.name) os

theorem lays_writeTail (kind : WriteKind) : Lays (scope.writeTail h kind) (ofOrders h.orders) := by
  unfold writeTail
  refine .after (settled_check .limit h.limit) fun limit => ?_
  split
  · next unbounded =>
      have empty : h.orders = [] := by simp_all [Header.isBounded]
      rw [empty]
      exact .fixed ""
  · exact .guarded _ (.guarded _ ((lays_order scope h).ahead _))

theorem lays_updateTables :
    Lays (scope.updateTables h)
      (ofExpressions (if h.updateTables.isEmpty then h.target.toList else h.updateTables)) := by
  unfold updateTables
  cases none : h.updateTables.isEmpty with
  | false => exact lays_expressions scope h.updateTables
  | true =>
      cases h.target with
      | none => exact .throw _ _
      | some target => simpa [ofExpressions] using lays_expression scope target

theorem lays_update {hasJoins hasAssignments : Bool} {assignments : Render (List String)}
    {wheres : Render String} {as ws : List Occurrence} (assigned : LaysEach assignments as)
    (filtered : Lays wheres ws) :
    Lays (scope.update h hasJoins hasAssignments assignments wheres)
      (ofExpressions (if h.updateTables.isEmpty then h.target.toList else h.updateTables) ++ as ++
        ws ++ ofOrders h.orders) := by
  unfold update
  refine .after (settled_checkJoins .update hasJoins) fun _ => ?_
  cases hasAssignments with
  | false => exact .bind_throw _ _ _
  | true =>
      have front := (lays_updateTables scope h).behind "UPDATE "
      have whole := ((front.append ((assigned.intercalate ", ").behind " SET ")).append
        filtered).append (lays_writeTail scope h .update)
      simpa only [Bool.not_true, Bool.false_eq_true, if_false, bind_assoc, pure_bind,
        String.append_assoc] using whole

theorem lays_deleteTable :
    Lays (scope.deleteTable h) (ofExpressions (h.target <|> h.tables.head?).toList) := by
  unfold deleteTable
  cases (h.target <|> h.tables.head?) with
  | none => exact .throw _ _
  | some table => simpa [ofExpressions] using lays_expression scope table

theorem lays_delete {hasJoins : Bool} {wheres : Render String} {ws : List Occurrence}
    (filtered : Lays wheres ws) :
    Lays (scope.delete h hasJoins wheres)
      (ofExpressions (h.target <|> h.tables.head?).toList ++ ws ++ ofOrders h.orders) := by
  refine .after (settled_checkJoins .delete hasJoins) fun _ => ?_
  have whole := (((lays_deleteTable scope h).behind "DELETE FROM ").append filtered).append
    (lays_writeTail scope h .delete)
  simpa only [bind_assoc, pure_bind, String.append_assoc] using whole

theorem lays_raw : Lays (raw h) [] := by
  unfold raw
  cases h.rawText with
  | none => exact .throw _ _
  | some text => exact .fixed text

end Scope

/-! ## Statements without rows to insert -/

/-- Neither the statement nor any statement within it inserts. -/
def Statement.InsertFree (s : Statement) : Prop :=
  s.Throughout fun inner => inner.kind ≠ .insert

/-! ## Comparisons -/

namespace Comparison

variable {op : Operator} {v : Value}

theorem of_eq_never_iff : Comparison.of op v = .never ↔ isAmongNone op v = true := by
  unfold Comparison.of isAmongNone
  split <;> split <;> simp_all

theorem eq_null_of_isNull (form : Comparison.of op v = .isNull) : v = .null := by
  unfold Comparison.of at form
  split at form <;> simp_all

theorem eq_null_of_isNotNull (form : Comparison.of op v = .isNotNull) : v = .null := by
  unfold Comparison.of at form
  split at form <;> simp_all

theorem shape_of_between (form : Comparison.of op v = .between) : v.shape = .list := by
  unfold Comparison.of at form
  split at form <;> simp_all [Value.shape]

/--
A comparison shows its column and then its operand.  With a missing value the
operand is a fixed text, and with no values the column is not shown.
-/
theorem lays_write (scope : Scope) (c : Column) (operator : String) {operand : Render String}
    {entries : Render (List String)} {os : List Occurrence} (lays : Lays operand os)
    (each : v.shape = .list → LaysEach entries os) (none : v = .null → os = []) :
    Lays
      (scope.column c >>= fun column =>
        (Comparison.of op v).write column operator operand entries)
      (if isAmongNone op v then Occurrence.ofColumn .hidden c
        else Occurrence.ofColumn .shown c ++ os) := by
  have column := scope.lays_column c
  -- the column is worked out in every form, but `1 = 0` takes the place of its text
  by_cases never : isAmongNone op v = true
  · rw [if_pos never, of_eq_never_iff.mpr never]
    exact scope.lays_never c
  rw [if_neg never]
  cases form : Comparison.of op v with
  | never => exact absurd (of_eq_never_iff.mp form) never
  | isNull =>
      rw [none (eq_null_of_isNull form), List.append_nil]
      exact column.ahead " IS NULL"
  | isNotNull =>
      rw [none (eq_null_of_isNotNull form), List.append_nil]
      exact column.ahead " IS NOT NULL"
  | among =>
      simpa only [write, bind_assoc, pure_bind, String.append_assoc] using
        column.append (lays.behind " IN ")
  | amongMarked =>
      simpa only [write, bind_assoc, pure_bind, String.append_assoc] using
        column.append ((lays.behind " IN (").ahead ")")
  | between =>
      simpa only [write, bind_assoc, pure_bind, String.append_assoc] using
        column.append (((each (shape_of_between form)).intercalate " AND ").behind " BETWEEN ")
  | badBetween => exact .bind_throw _ .betweenBounds _
  | plain =>
      simpa only [write, bind_assoc, pure_bind, String.append_assoc] using
        column.append (lays.behind (" " ++ operator ++ " "))

end Comparison

/-! ## Statements -/

namespace Scope

open Occurrence

open Statement (InsertFree)

variable (scope : Scope)

mutual

theorem lays_value : ∀ v : Value, v.HoldsOnly InsertFree → Lays (scope.value v) (ofValue v)
  | .null, _ => .fixed _
  | .bool _, _ => .fixed _
  | .int _, _ => .fixed _
  | .float x, _ => by
      unfold value number
      split
      · exact .fixed x.text
      · exact .throw _ _
  | .text _, _ => .fixed _
  | .date _, _ => .fixed _
  | .dateTime _, _ => .fixed _
  | .parameter _, _ => .fixed _
  | .column c, _ => lays_column scope c
  | .list items, only => by
      have texts := (((lays_values items only.entries).intercalate ", ").behind "(").ahead ")"
      simpa only [value, ofValue, bind_assoc, pure_bind] using texts
  | .query tag s, only => by
      have text := ((lays_statement s (only s (.query tag))).behind "(").ahead ")"
      simpa only [value, ofValue, bind_assoc, pure_bind] using text
  | .group tag ⟨h, ps, js, rs, as, ms, bs⟩, only => by
      have free := only ⟨h, ps, js, rs, as, ms, bs⟩ (.group tag)
      have text := ((lays_conditions ps fun p mem => free.predicate mem).behind "(").ahead ")"
      simpa only [value, ofValue, bind_assoc, pure_bind] using text
termination_by structural v => v

theorem lays_values : ∀ items : List Value, (∀ item ∈ items, item.HoldsOnly InsertFree) →
    LaysEach (scope.values items) (ofValues items)
  | [], _ => .nil
  | item :: items, only => by
      have rest := lays_values items fun other mem => only other (List.mem_cons_of_mem item mem)
      exact (lays_value item (only item List.mem_cons_self)).cons rest
termination_by structural items => items

/-- The entries of a list are what the list shows. -/
theorem lays_entries : ∀ v : Value, v.HoldsOnly InsertFree → v.shape = .list →
    LaysEach (scope.entries v) (ofValue v)
  | .list items, only, _ => lays_values items only.entries
  | .null, _, shape | .bool _, _, shape | .int _, _, shape | .float _, _, shape
  | .text _, _, shape | .date _, _, shape | .dateTime _, _, shape | .parameter _, _, shape
  | .column _, _, shape | .query _ _, _, shape | .group _ _, _, shape => nomatch shape
termination_by structural v => v

theorem lays_predicate : ∀ p : Predicate, p.value.HoldsOnly InsertFree →
    Lays (scope.predicate p) (ofPredicate p)
  | ⟨_, column, none, operand, _⟩, only => by
      unfold predicate ofPredicate
      split
      · exact lays_value operand only
      · exact lays_column scope column
  | ⟨_, column, some op, operand, _⟩, only => by
      refine Comparison.lays_write scope column _ (lays_value operand only)
        (lays_entries operand only) ?_
      rintro rfl
      rfl
termination_by structural p => p

theorem lays_furtherConditions : ∀ ps : List Predicate,
    (∀ p ∈ ps, p.value.HoldsOnly InsertFree) →
    Lays (scope.furtherConditions ps) (ofConditions ps)
  | [], _ => .fixed ""
  | p :: ps, all => by
      have first := (lays_predicate p (all p List.mem_cons_self)).behind
        (" " ++ p.connective.sql ++ " ")
      have rest := lays_furtherConditions ps fun q mem => all q (List.mem_cons_of_mem p mem)
      simpa only [furtherConditions, ofConditions, bind_assoc, pure_bind, String.append_assoc]
        using first.append rest
termination_by structural ps => ps

theorem lays_conditions : ∀ ps : List Predicate, (∀ p ∈ ps, p.value.HoldsOnly InsertFree) →
    Lays (scope.conditions ps) (ofConditions ps)
  | [], _ => .fixed ""
  | p :: ps, all => by
      have rest := lays_furtherConditions ps fun q mem => all q (List.mem_cons_of_mem p mem)
      exact (lays_predicate p (all p List.mem_cons_self)).append rest
termination_by structural ps => ps

theorem lays_joins : ∀ js : List Join,
    (∀ join ∈ js, ∀ p ∈ join.predicates, p.value.HoldsOnly InsertFree) →
    Lays (scope.joins js) (ofJoins js)
  | [], _ => .fixed ""
  | ⟨kind, table, ps⟩ :: js, all => by
      have on := lays_clause " ON " (of_isEmpty rfl)
        (lays_conditions ps (all ⟨kind, table, ps⟩ List.mem_cons_self))
      have first := ((lays_expression scope table).behind (" " ++ kind.sql ++ " ")).append on
      have rest := lays_joins js fun join mem => all join (List.mem_cons_of_mem _ mem)
      simpa only [joins, ofJoins, bind_assoc, pure_bind, String.append_assoc] using
        first.append rest
termination_by structural js => js

theorem lays_assignments : ∀ as : List Assignment,
    (∀ a ∈ as, a.value.HoldsOnly InsertFree) → LaysEach (scope.assignments as) (ofAssignments as)
  | [], _ => .nil
  | ⟨key, column, operand⟩ :: as, all => by
      have text := lays_value operand (all ⟨key, column, operand⟩ List.mem_cons_self)
      have rest := lays_assignments as fun a mem => all a (List.mem_cons_of_mem _ mem)
      have first := (lays_column scope column).append (text.behind " = ")
      simpa only [assignments, ofAssignments, bind_assoc, pure_bind, String.append_assoc] using
        first.cons rest
termination_by structural as => as

theorem lays_members : ∀ ms : List UnionMember, (∀ m ∈ ms, m.statement.InsertFree) →
    Lays (scope.members ms) (ofMembers ms)
  | [], _ => .fixed ""
  | ⟨s, keepAll⟩ :: ms, all => by
      have first := (lays_member scope s.toHeader
        (lays_statement s (all ⟨s, keepAll⟩ List.mem_cons_self))).behind
          (if keepAll then " UNION ALL " else " UNION ")
      have rest := lays_members ms fun m mem => all m (List.mem_cons_of_mem _ mem)
      simpa only [members, ofMembers, bind_assoc, pure_bind, String.append_assoc] using
        first.append rest
termination_by structural ms => ms

/-- A statement without rows to insert is laid out with its occurrences. -/
theorem lays_statement : ∀ s : Statement, s.InsertFree →
    Lays (scope.statement s) (ofStatement s)
  | ⟨h, ps, js, rs, as, ms, bs⟩, free => by
      have wheres := lays_clause " WHERE " (of_isEmpty rfl)
        (lays_conditions ps fun p mem => free.predicate mem)
      have joins := lays_joins js fun join outer p mem => free.joinPredicate outer mem
      have members := lays_members ms fun m mem => free.member mem
      unfold statement ofStatement
      dsimp only
      cases known : h.kind with
      -- only here the texts are not put together in the order of the evaluations
      | insert => exact absurd known free.1
      | select =>
          simpa only [List.append_assoc] using lays_select scope h joins wheres members
      | random =>
          simpa only [List.append_assoc] using lays_select scope h joins wheres members
      | update =>
          exact lays_update scope h (lays_assignments as fun a mem => free.assignment mem) wheres
      | delete => exact lays_delete scope h wheres
      | raw => exact lays_raw h
      | undecided => exact .throw _ _
termination_by structural s => s

end

end Scope

/-! ## Group concatenations -/

/-- The aggregate that joins columns shows each of them once, in their order. -/
def Grammar.ListsColumns (g : Grammar) : Prop :=
  ∀ (separator : String) (n : Nat), ∃ front between back : String, ∀ columns : List String,
    columns.length = n →
      g.concatAggregate columns separator = front ++ between.intercalate columns ++ back

namespace Grammar

theorem lists_stringAgg (separator : String) (n : Nat) :
    ∃ front between back : String, ∀ columns : List String, columns.length = n →
      stringAgg columns separator = front ++ between.intercalate columns ++ back := by
  by_cases one : n = 1
  · refine ⟨"STRING_AGG(", "", ", " ++ separator ++ ")", fun columns length => ?_⟩
    obtain ⟨single, rfl⟩ := List.length_eq_one_iff.mp (length.trans one)
    simp only [stringAgg, String.intercalate_singleton, String.append_assoc]
  · refine ⟨"STRING_AGG(CONCAT(", ", ", ")" ++ (", " ++ separator ++ ")"), fun columns length => ?_⟩
    unfold stringAgg
    split
    · exact absurd length.symm one
    · simp only [← String.append_assoc]
      rfl

theorem BuiltIn.listsColumns {g : Grammar} {escapes : Bool} (builtIn : g.BuiltIn escapes) :
    g.ListsColumns := by
  cases builtIn with
  | plain => exact lists_stringAgg
  | dialect d =>
      cases d with
      | postgres | sqlServer => exact lists_stringAgg
      | mysql =>
          exact fun separator _ => ⟨"GROUP_CONCAT(", ", ", " SEPARATOR " ++ separator ++ ")",
            fun columns _ => by simp only [Dialect.grammar, mysql, String.append_assoc]⟩
      | sqlite =>
          exact fun separator _ => ⟨"GROUP_CONCAT(", " || ", ", " ++ separator ++ ")",
            fun columns _ => by simp only [Dialect.grammar, sqlite, String.append_assoc]⟩

end Grammar

theorem Scope.lays_concat (scope : Scope) {c : GroupConcat} (lists : scope.grammar.ListsColumns)
    (free : c.statement.InsertFree) : Lays (scope.concat c) (Occurrence.ofConcat c) := by
  have wheres : Lays (scope.wheres c.statement) (Occurrence.ofConditions c.statement.predicates) :=
    lays_clause " WHERE " (of_isEmpty rfl)
      (lays_conditions scope _ fun p mem => free.predicate mem)
  have joins := lays_joins scope c.statement.joins fun join outer p mem =>
    free.joinPredicate outer mem
  have aggregate := ((lays_expressionTexts scope c.columns).enclose
    (lists (scope.literal c.separator))).behind "SELECT "
  have whole := (aggregate.ahead (" AS " ++ scope.wrapped c.label)).append
    (lays_body scope c.statement.toHeader joins wheres)
  refine .guarded _ ?_
  simpa only [Occurrence.ofConcat, bind_assoc, pure_bind, String.append_assoc, List.append_assoc]
    using whole

end SqlBuilder
