import SqlBuilder.Proofs.Written

/-!
# What a grammar admits

A grammar admits a statement if each part of it that is written is admitted:
the statements in it have what their kind needs, comparisons with bounds have
two of them, and numbers have literals.  The grammar decides only whether
writes and union members may have an order and counts of their own.  What is
admitted is rendered, whatever trace the rendering starts from.
-/

namespace SqlBuilder

open Factor

/-! ## Parts -/

/-- A count is not given, or is not negative. -/
def NonNegative (count : Option Int64) : Prop :=
  ∀ n, count = some n → 0 ≤ n.toInt

namespace Header

/-- As a union member the statement keeps an order or a count to itself. -/
def standsApart (h : Header) : Bool :=
  h.isRandom || h.isBounded

/-- The order and the counts of an update or a deletion. -/
structure EndsWrite (g : Grammar) (h : Header) : Prop where
  limit : NonNegative h.limit
  offset : h.offset = none
  bounded : h.orders ≠ [] ∨ h.limit ≠ none → g.boundsWrites = true

end Header

/-- A union member locks no rows, and stands in parentheses if it has to. -/
structure UnionMember.Admitted (g : Grammar) (m : UnionMember) : Prop where
  unlocked : m.statement.locked = false
  parenthesized : m.statement.toHeader.standsApart = true → g.parenthesizesMembers = true

/-- The statement has what its kind needs; its values and union members are looked at apart. -/
def Statement.Admitted (g : Grammar) (s : Statement) : Prop :=
  match s.kind with
  | .undecided => False
  | .select => NonNegative s.limit ∧ NonNegative s.offset ∧ ∀ m ∈ s.members, m.Admitted g
  | .random => NonNegative s.offset ∧ ∀ m ∈ s.members, m.Admitted g
  | .insert => s.target ≠ none ∧ s.rows ≠ [] ∧
      (s.insertColumns ≠ [] → ∀ row ∈ s.rows, row.length = s.insertColumns.length)
  | .update => s.joins = [] ∧ (s.updateTables ≠ [] ∨ s.target ≠ none) ∧ s.assignments ≠ [] ∧
      s.EndsWrite g
  | .delete => s.joins = [] ∧ (s.target ≠ none ∨ s.tables ≠ []) ∧ s.EndsWrite g
  | .raw => s.rawText ≠ none

/-- The part by itself is admitted, without what it is made of. -/
def Piece.Admitted (g : Grammar) : (piece : Piece) → piece.Content → Prop
  | .value, v => ∀ x, v = .float x → x.isFinite = true
  | .condition, p => ∀ op, p.operator = some op → Comparison.of op p.value ≠ .badBetween
  | .statement, s => s.Admitted g

/-- Every part that stands in a shown place is admitted. -/
def Piece.AllAdmitted (g : Grammar) (whole : Piece) (content : whole.Content) : Prop :=
  ∀ (piece : Piece) (path : Path piece whole) (part : piece.Content),
    path.isShown = true → path.fill part = content → piece.Admitted g part

namespace Piece.AllAdmitted

variable {g : Grammar}

theorem here {whole : Piece} {content : whole.Content} (all : whole.AllAdmitted g content) :
    whole.Admitted g content :=
  all whole .here content rfl rfl

/-- What stands in a frame that is shown is admitted with all its parts. -/
theorem inner {a b : Piece} (frame : Frame a b) {content : a.Content}
    (all : b.AllAdmitted g (frame.fill content)) (shown : frame.isShown = true) :
    a.AllAdmitted g content := by
  intro piece path part pathShown fill
  refine all piece (.step frame path) part ?_ ?_
  · rw [Path.isShown, shown, pathShown]
    rfl
  · rw [Path.fill, fill]

theorem entries {items : List Value} (all : AllAdmitted g .value (.list items)) :
    ∀ item ∈ items, AllAdmitted g .value item := by
  intro item mem
  obtain ⟨before, after, rfl⟩ := List.append_of_mem mem
  exact inner (.item before after) all rfl

theorem groupConditions {tag : Nat} {s : Statement} (all : AllAdmitted g .value (.group tag s)) :
    ∀ p ∈ s.predicates, AllAdmitted g .condition p := by
  obtain ⟨h, ps, js, rs, as, ms, bs⟩ := s
  intro p mem
  obtain ⟨before, after, rfl⟩ := List.append_of_mem mem
  exact inner (.group tag ⟨h, [], js, rs, as, ms, bs⟩ before after) all rfl

theorem nestedConditions {key : String} {column : Column} {connective : Connective} {tag : Nat}
    {s : Statement} (all : AllAdmitted g .condition ⟨key, column, none, .group tag s, connective⟩) :
    ∀ p ∈ s.predicates, AllAdmitted g .condition p := by
  obtain ⟨h, ps, js, rs, as, ms, bs⟩ := s
  intro p mem
  obtain ⟨before, after, rfl⟩ := List.append_of_mem mem
  exact inner (.nested key column connective tag ⟨h, [], js, rs, as, ms, bs⟩ before after)
    all rfl

variable {s : Statement}

theorem predicates (all : AllAdmitted g .statement s)
    (shown : [.select, .random, .update, .delete].contains s.kind = true) :
    ∀ p ∈ s.predicates, AllAdmitted g .condition p := by
  obtain ⟨h, ps, js, rs, as, ms, bs⟩ := s
  intro p mem
  obtain ⟨before, after, rfl⟩ := List.append_of_mem mem
  exact inner (.filter ⟨h, [], js, rs, as, ms, bs⟩ before after) all shown

theorem joins (all : AllAdmitted g .statement s)
    (shown : [.select, .random].contains s.kind = true) :
    ∀ join ∈ s.joins, ∀ p ∈ join.predicates, AllAdmitted g .condition p := by
  obtain ⟨h, ps, js, rs, as, ms, bs⟩ := s
  rintro ⟨kind, table, qs⟩ outer p mem
  obtain ⟨front, back, rfl⟩ := List.append_of_mem outer
  obtain ⟨before, after, rfl⟩ := List.append_of_mem mem
  exact inner (.on ⟨h, ps, [], rs, as, ms, bs⟩ front kind table before after back) all
    shown

theorem rows (all : AllAdmitted g .statement s) (shown : s.kind = .insert) :
    ∀ row ∈ s.rows, ∀ v ∈ row, AllAdmitted g .value v := by
  obtain ⟨h, ps, js, rs, as, ms, bs⟩ := s
  intro row outer v mem
  obtain ⟨front, back, rfl⟩ := List.append_of_mem outer
  obtain ⟨before, after, rfl⟩ := List.append_of_mem mem
  exact inner (.field ⟨h, ps, js, [], as, ms, bs⟩ front before after back) all
    (decide_eq_true shown)

theorem assignments (all : AllAdmitted g .statement s) (shown : s.kind = .update) :
    ∀ a ∈ s.assignments, AllAdmitted g .value a.value := by
  obtain ⟨h, ps, js, rs, as, ms, bs⟩ := s
  rintro ⟨key, column, v⟩ mem
  obtain ⟨before, after, rfl⟩ := List.append_of_mem mem
  exact inner (.assigned ⟨h, ps, js, rs, [], ms, bs⟩ before key column after) all
    (decide_eq_true shown)

theorem members (all : AllAdmitted g .statement s)
    (shown : [.select, .random].contains s.kind = true) :
    ∀ m ∈ s.members, AllAdmitted g .statement m.statement := by
  obtain ⟨h, ps, js, rs, as, ms, bs⟩ := s
  rintro ⟨i, keepAll⟩ mem
  obtain ⟨before, after, rfl⟩ := List.append_of_mem mem
  exact inner (.member ⟨h, ps, js, rs, as, [], bs⟩ before keepAll after) all shown

end Piece.AllAdmitted

/-! ## Renderings that cannot fail -/

/-- The rendering answers on every trace. -/
def Accepts {α : Type} (run : Render α) : Prop :=
  ∀ trace, ∃ answer left, run trace = .ok answer left

namespace Accepts

variable {α β : Type} {first : Render α} {next : α → Render β}

theorem pure (answer : α) : Accepts (pure answer : Render α) :=
  fun trace => ⟨answer, trace, rfl⟩

theorem bind (accepts : Accepts first) (follows : ∀ a, Accepts (next a)) :
    Accepts (first >>= next) := by
  intro trace
  obtain ⟨a, between, start⟩ := accepts trace
  obtain ⟨b, left, run⟩ := follows a between
  exact ⟨b, left, (Outcome.bind_of_ok start).trans run⟩

/-- What answers may be followed by a text that is put together from the answer. -/
theorem map {f : α → β} (accepts : Accepts first) :
    Accepts (first >>= fun a => Pure.pure (f a)) :=
  accepts.bind fun a => pure (f a)

theorem guarded {fails : Prop} [Decidable fails] {fault : RenderFault} {run : Render β}
    (passes : ¬ fails) (accepts : Accepts run) :
    Accepts (if fails then ((MonadExcept.throw fault : Render α) >>= next) else run) := by
  rw [if_neg passes]
  exact accepts

end Accepts

theorem Deferred.accepts_eval (d : Deferred) : Accepts (d.eval : Render String) :=
  fun _ => ⟨_, _, rfl⟩

theorem Count.accepts_check (count : Count) {n : Option Int64} (valid : NonNegative n) :
    Accepts (count.check n) := by
  cases n with
  | none => exact Accepts.pure none
  | some n =>
      have passes : ¬ n.toInt < 0 := Int.not_lt.mpr (valid n rfl)
      simp only [check, passes, if_false]
      exact Accepts.pure _

namespace Scope

variable {scope : Scope} {h : Header}

/-! ## Clauses without values -/

theorem accepts_expression (item : Expression) : Accepts (scope.expression item) := by
  cases item with
  | text content | raw content => exact Accepts.pure _
  | deferred content => exact content.accepts_eval

theorem accepts_column (c : Column) : Accepts (scope.column c) := by
  cases c with
  | name content | handle content => exact Accepts.pure _
  | deferred content => exact content.accepts_eval

theorem accepts_expressionTexts (items : List Expression) :
    Accepts (scope.expressionTexts items) := by
  induction items with
  | nil => exact Accepts.pure []
  | cons item items ih => exact (accepts_expression item).bind fun text => ih.map

theorem accepts_expressions (items : List Expression) : Accepts (scope.expressions items) :=
  (accepts_expressionTexts items).map

theorem accepts_orderTexts (items : List SortColumn) : Accepts (scope.orderTexts items) := by
  induction items with
  | nil => exact Accepts.pure []
  | cons item items ih => exact (accepts_column item.column).bind fun text => ih.map

theorem accepts_clause {keyword : String} {isEmpty : Bool} {rest : Render String}
    (accepts : Accepts rest) : Accepts (clause keyword isEmpty rest) := by
  unfold clause
  split
  · exact Accepts.pure ""
  · exact accepts.map

theorem accepts_order : Accepts (scope.order h) :=
  accepts_clause (accepts_orderTexts h.orders).map

theorem accepts_columns : Accepts (scope.columns h) := by
  unfold columns
  split
  · exact Accepts.pure "*"
  · exact accepts_expressions h.columns

theorem accepts_body {joins wheres : Render String} (joined : Accepts joins)
    (filtered : Accepts wheres) : Accepts (scope.body h joins wheres) := by
  refine (accepts_clause (accepts_expressionTexts h.tables).map).bind fun tables => ?_
  refine joined.bind fun joins => filtered.bind fun wheres => ?_
  exact (accepts_clause (accepts_expressions h.groups)).map

theorem accepts_insertColumns : Accepts (scope.insertColumns h) := by
  unfold insertColumns
  split
  · exact Accepts.pure ""
  · exact (accepts_expressions h.insertColumns).map

/-! ## Statements by kind -/

theorem accepts_select {joins wheres members : Render String}
    (limit : h.isRandom = true ∨ NonNegative h.limit) (offset : NonNegative h.offset)
    (joined : Accepts joins) (filtered : Accepts wheres) (united : Accepts members) :
    Accepts (scope.select h joins wheres members) := by
  have rows : Accepts h.selectLimit := by
    unfold Header.selectLimit
    split
    · exact Accepts.pure (some 1)
    · exact Count.limit.accepts_check (limit.resolve_left ‹_›)
  refine rows.bind fun limit => (Count.offset.accepts_check offset).bind fun offset => ?_
  refine accepts_columns.bind fun columns => (accepts_body joined filtered).bind fun body => ?_
  exact united.bind fun others => accepts_order.map

theorem accepts_member {m : UnionMember} {statement : Render String}
    (admitted : m.Admitted scope.grammar) (accepts : Accepts statement) :
    Accepts (scope.member m.statement.toHeader statement) := by
  unfold member
  refine Accepts.guarded (by simp [admitted.unlocked]) (accepts.bind fun sql => ?_)
  cases apart : m.statement.toHeader.standsApart with
  | false =>
      rw [Header.standsApart] at apart
      simp only [apart, Bool.not_false, if_true]
      exact Accepts.pure sql
  | true =>
      have parentheses := admitted.parenthesized apart
      rw [Header.standsApart] at apart
      simp only [apart, Bool.not_true, parentheses, if_true]
      exact Accepts.pure _

theorem accepts_insert {rows : Render (List String)} {hasRows : Bool} (target : h.target ≠ none)
    (nonempty : hasRows = true) (accepts : Accepts rows) :
    Accepts (scope.insert h hasRows rows) := by
  obtain ⟨target, given⟩ := Option.ne_none_iff_exists'.mp target
  have named : Accepts (insertTarget h) := by
    unfold insertTarget
    rw [given]
    exact Accepts.pure target
  refine named.bind fun target => ?_
  refine Accepts.guarded (by simp [nonempty]) (accepts.bind fun rows => ?_)
  exact (accepts_expression target).bind fun target => accepts_insertColumns.map

theorem accepts_writeTail {kind : WriteKind} (ends : h.EndsWrite scope.grammar) :
    Accepts (scope.writeTail h kind) := by
  refine (Count.limit.accepts_check ends.limit).bind fun limit => ?_
  cases bounded : h.isBounded with
  | false => exact Accepts.pure ""
  | true =>
      have given : h.orders ≠ [] ∨ h.limit ≠ none := by
        simpa [Header.isBounded, ends.offset, ← Option.ne_none_iff_isSome] using bounded
      simp only [ends.bounded given, ends.offset]
      exact accepts_order.map

theorem accepts_updateTables (tables : h.updateTables ≠ [] ∨ h.target ≠ none) :
    Accepts (scope.updateTables h) := by
  unfold updateTables
  split
  · exact accepts_expressions h.updateTables
  · next unnamed =>
      have empty : h.updateTables = [] := by simpa using unnamed
      have targeted : h.target ≠ none := tables.resolve_left fun named => named empty
      obtain ⟨target, given⟩ := Option.ne_none_iff_exists'.mp targeted
      rw [given]
      exact accepts_expression target

theorem accepts_checkJoins {kind : WriteKind} {hasJoins : Bool} (unjoined : hasJoins = false) :
    Accepts (checkJoins kind hasJoins) := by
  subst unjoined
  exact Accepts.pure ()

theorem accepts_update {assignments : Render (List String)} {wheres : Render String}
    {hasJoins hasAssignments : Bool} (unjoined : hasJoins = false)
    (tables : h.updateTables ≠ [] ∨ h.target ≠ none) (nonempty : hasAssignments = true)
    (ends : h.EndsWrite scope.grammar) (assigned : Accepts assignments)
    (filtered : Accepts wheres) :
    Accepts (scope.update h hasJoins hasAssignments assignments wheres) := by
  refine (accepts_checkJoins unjoined).bind fun _ => ?_
  refine (accepts_updateTables tables).bind fun tables => ?_
  refine Accepts.guarded (by simp [nonempty]) (assigned.bind fun assignments => ?_)
  exact filtered.bind fun wheres => (accepts_writeTail ends).map

theorem accepts_delete {wheres : Render String} {hasJoins : Bool} (unjoined : hasJoins = false)
    (tables : h.target ≠ none ∨ h.tables ≠ []) (ends : h.EndsWrite scope.grammar)
    (filtered : Accepts wheres) : Accepts (scope.delete h hasJoins wheres) := by
  have table : Accepts (scope.deleteTable h) := by
    unfold deleteTable
    cases given : h.target with
    | some target => exact accepts_expression target
    | none =>
        have listed : h.tables ≠ [] := tables.resolve_left fun targeted => targeted given
        obtain ⟨first, others, tables⟩ := List.exists_cons_of_ne_nil listed
        rw [tables]
        exact accepts_expression first
  refine (accepts_checkJoins unjoined).bind fun _ => table.bind fun table => ?_
  exact filtered.bind fun wheres => (accepts_writeTail ends).map

theorem accepts_checkWidth {row fields columns : Nat} (width : columns ≠ 0 → fields = columns) :
    Accepts (checkWidth row fields columns) := by
  unfold checkWidth
  rw [if_neg fun ⟨named, other⟩ => other (width named)]
  exact Accepts.pure ()

end Scope

theorem Comparison.accepts_write {form : Comparison} {column operator : String}
    {operand : Render String} {entries : Render (List String)} (bounds : form ≠ .badBetween)
    (alone : Accepts operand) (all : Accepts entries) :
    Accepts (form.write column operator operand entries) := by
  cases form with
  | isNull | isNotNull | never => exact Accepts.pure _
  | among | amongMarked | plain => exact alone.map
  | between => exact all.map
  | badBetween => exact absurd rfl bounds

/-! ## What is admitted is rendered -/

namespace Scope

variable {scope : Scope}

mutual

theorem accepts_value : ∀ v : Value, Piece.AllAdmitted scope.grammar .value v →
    Accepts (scope.value v)
  | .float x, all => by
      unfold value number
      rw [if_pos (all.here x rfl)]
      exact Accepts.pure x.text
  | .column c, _ => accepts_column c
  | .list items, all => (accepts_values items all.entries).map
  | .query tag s, all => (accepts_statement s (Piece.AllAdmitted.inner (.subquery tag) all rfl)).map
  | .group tag ⟨_, ps, _, _, _, _, _⟩, all => (accepts_conditions ps all.groupConditions).map
  | .null, _ | .bool _, _ | .int _, _ | .text _, _ | .date _, _ | .dateTime _, _
  | .parameter _, _ => Accepts.pure _
termination_by structural v => v

theorem accepts_values : ∀ items : List Value,
    (∀ item ∈ items, Piece.AllAdmitted scope.grammar .value item) → Accepts (scope.values items)
  | [], _ => Accepts.pure []
  | item :: items, all => by
      refine (accepts_value item (all item List.mem_cons_self)).bind fun text => ?_
      exact (accepts_values items fun other mem => all other (List.mem_cons_of_mem item mem)).map
termination_by structural items => items

theorem accepts_entries : ∀ v : Value, Piece.AllAdmitted scope.grammar .value v →
    Accepts (scope.entries v)
  | .list items, all => accepts_values items all.entries
  | .null, _ | .bool _, _ | .int _, _ | .float _, _ | .text _, _ | .date _, _ | .dateTime _, _
  | .parameter _, _ | .column _, _ | .query _ _, _ | .group _ _, _ => Accepts.pure []
termination_by structural v => v

theorem accepts_predicate : ∀ p : Predicate, Piece.AllAdmitted scope.grammar .condition p →
    Accepts (scope.predicate p)
  | ⟨_, column, none, .group tag ⟨_, ps, _, _, _, _, _⟩, _⟩, all =>
      (accepts_conditions ps all.nestedConditions).map
  | ⟨key, column, some op, operand, connective⟩, all => by
      have operandAll := Piece.AllAdmitted.inner (.operand key column op connective) all rfl
      refine (accepts_column column).bind fun column => ?_
      exact Comparison.accepts_write (all.here op rfl) (accepts_value operand operandAll)
        (accepts_entries operand operandAll)
  | ⟨_, column, none, .null, _⟩, _ | ⟨_, column, none, .bool _, _⟩, _
  | ⟨_, column, none, .int _, _⟩, _ | ⟨_, column, none, .float _, _⟩, _
  | ⟨_, column, none, .text _, _⟩, _ | ⟨_, column, none, .date _, _⟩, _
  | ⟨_, column, none, .dateTime _, _⟩, _ | ⟨_, column, none, .parameter _, _⟩, _
  | ⟨_, column, none, .column _, _⟩, _ | ⟨_, column, none, .list _, _⟩, _
  | ⟨_, column, none, .query _ _, _⟩, _ => accepts_column column
termination_by structural p => p

theorem accepts_furtherConditions : ∀ ps : List Predicate,
    (∀ p ∈ ps, Piece.AllAdmitted scope.grammar .condition p) →
    Accepts (scope.furtherConditions ps)
  | [], _ => Accepts.pure ""
  | p :: ps, all => by
      refine (accepts_predicate p (all p List.mem_cons_self)).bind fun text => ?_
      exact (accepts_furtherConditions ps fun q mem => all q (List.mem_cons_of_mem p mem)).map
termination_by structural ps => ps

theorem accepts_conditions : ∀ ps : List Predicate,
    (∀ p ∈ ps, Piece.AllAdmitted scope.grammar .condition p) → Accepts (scope.conditions ps)
  | [], _ => Accepts.pure ""
  | p :: ps, all => by
      refine (accepts_predicate p (all p List.mem_cons_self)).bind fun text => ?_
      exact (accepts_furtherConditions ps fun q mem => all q (List.mem_cons_of_mem p mem)).map
termination_by structural ps => ps

theorem accepts_joins : ∀ js : List Join,
    (∀ join ∈ js, ∀ p ∈ join.predicates, Piece.AllAdmitted scope.grammar .condition p) →
    Accepts (scope.joins js)
  | [], _ => Accepts.pure ""
  | ⟨kind, table, ps⟩ :: js, all => by
      have on := accepts_conditions ps (all ⟨kind, table, ps⟩ List.mem_cons_self)
      refine (accepts_expression table).bind fun table => (accepts_clause on).bind fun on => ?_
      exact (accepts_joins js fun join mem => all join (List.mem_cons_of_mem _ mem)).map
termination_by structural js => js

theorem accepts_rows (columns index : Nat) : ∀ rs : List (List Value),
    (columns ≠ 0 → ∀ row ∈ rs, row.length = columns) →
    (∀ row ∈ rs, ∀ v ∈ row, Piece.AllAdmitted scope.grammar .value v) →
    Accepts (scope.rows columns index rs)
  | [], _, _ => Accepts.pure []
  | row :: rs, width, all => by
      refine (accepts_checkWidth fun named => width named row List.mem_cons_self).bind fun _ => ?_
      refine (accepts_values row (all row List.mem_cons_self)).bind fun fields => ?_
      exact (accepts_rows columns (index + 1) rs
        (fun named other mem => width named other (List.mem_cons_of_mem row mem))
        fun other mem => all other (List.mem_cons_of_mem row mem)).map
termination_by structural rs => rs

theorem accepts_assignments : ∀ as : List Assignment,
    (∀ a ∈ as, Piece.AllAdmitted scope.grammar .value a.value) → Accepts (scope.assignments as)
  | [], _ => Accepts.pure []
  | ⟨key, column, operand⟩ :: as, all => by
      have value := accepts_value operand (all ⟨key, column, operand⟩ List.mem_cons_self)
      refine (accepts_column column).bind fun column => value.bind fun text => ?_
      exact (accepts_assignments as fun a mem => all a (List.mem_cons_of_mem _ mem)).map
termination_by structural as => as

theorem accepts_members : ∀ ms : List UnionMember, (∀ m ∈ ms, m.Admitted scope.grammar) →
    (∀ m ∈ ms, Piece.AllAdmitted scope.grammar .statement m.statement) →
    Accepts (scope.members ms)
  | [], _, _ => Accepts.pure ""
  | ⟨s, keepAll⟩ :: ms, admitted, all => by
      have first := accepts_statement s (all ⟨s, keepAll⟩ List.mem_cons_self)
      refine (accepts_member (admitted ⟨s, keepAll⟩ List.mem_cons_self) first).bind fun text => ?_
      exact (accepts_members ms (fun m mem => admitted m (List.mem_cons_of_mem _ mem))
        fun m mem => all m (List.mem_cons_of_mem _ mem)).map
termination_by structural ms => ms

/-- A statement whose parts are all admitted is rendered. -/
theorem accepts_statement : ∀ s : Statement, Piece.AllAdmitted scope.grammar .statement s →
    Accepts (scope.statement s)
  | ⟨h, ps, js, rs, as, ms, bs⟩, all => by
      have admitted : Statement.Admitted scope.grammar ⟨h, ps, js, rs, as, ms, bs⟩ := all.here
      unfold Statement.Admitted at admitted
      have filtered (shown : [.select, .random, .update, .delete].contains h.kind = true) :
          Accepts (clause " WHERE " ps.isEmpty (scope.conditions ps)) :=
        accepts_clause (accepts_conditions ps (all.predicates shown))
      have joined (shown : [.select, .random].contains h.kind = true) :=
        accepts_joins js (all.joins shown)
      have united (shown : [.select, .random].contains h.kind = true)
          (each : ∀ m ∈ ms, m.Admitted scope.grammar) :=
        accepts_members ms each (all.members shown)
      unfold statement
      dsimp only at admitted ⊢
      cases known : h.kind with
      | undecided =>
          rw [known] at admitted
          exact admitted.elim
      | select =>
          rw [known] at admitted filtered joined united
          obtain ⟨limit, offset, each⟩ := admitted
          exact accepts_select (Or.inr limit) offset (joined rfl) (filtered rfl) (united rfl each)
      | random =>
          rw [known] at admitted filtered joined united
          obtain ⟨offset, each⟩ := admitted
          have random : h.isRandom = true := by
            unfold Header.isRandom
            rw [known]
            rfl
          exact accepts_select (Or.inl random) offset (joined rfl) (filtered rfl)
            (united rfl each)
      | insert =>
          rw [known] at admitted
          obtain ⟨target, nonempty, width⟩ := admitted
          refine accepts_insert target (by simpa using nonempty) ?_
          refine accepts_rows h.insertColumns.length 0 rs (fun named => ?_) (all.rows known)
          exact width fun none => named (List.length_eq_zero_iff.mpr none)
      | update =>
          rw [known] at admitted filtered
          obtain ⟨unjoined, tables, nonempty, ends⟩ := admitted
          exact accepts_update (by simpa using unjoined) tables (by simpa using nonempty) ends
            (accepts_assignments as (all.assignments known)) (filtered rfl)
      | delete =>
          rw [known] at admitted filtered
          obtain ⟨unjoined, tables, ends⟩ := admitted
          exact accepts_delete (by simpa using unjoined) tables ends (filtered rfl)
      | raw =>
          rw [known] at admitted
          obtain ⟨text, given⟩ := Option.ne_none_iff_exists'.mp admitted
          unfold raw
          rw [given]
          exact Accepts.pure text
termination_by structural s => s

end

end Scope

end SqlBuilder
