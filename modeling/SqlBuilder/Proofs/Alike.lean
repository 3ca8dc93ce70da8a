import Mathlib.Data.List.Forall2
import Mathlib.Data.Option.Defs
import SqlBuilder.GroupConcat

/-!
# Statements that are alike

Two statements are alike if their trees have the same clauses.  All else may
differ throughout the trees: configurations, bindings, recorded names, the
count of groups and the keys that come from it, and the tags of nested
statements.  Deferred texts correspond by a relation that is given.
-/

namespace SqlBuilder

/--
Deferred texts that correspond give the same text on traces that correspond,
and leave traces that correspond.
-/
structure SameTexts (D : Deferred → Deferred → Prop) (T : Trace → Trace → Prop) : Prop where
  text : ∀ {d e : Deferred} {t u : Trace}, D d e → T t u →
    d.text (t.evaluations d.id) = e.text (u.evaluations e.id)
  next : ∀ {d e : Deferred} {t u : Trace}, D d e → T t u →
    T (t ++ [.evaluated d.id]) (u ++ [.evaluated e.id])

variable (D : Deferred → Deferred → Prop)

inductive Column.Alike : Column → Column → Prop where
  | name (content : String) : Alike (.name content) (.name content)
  | handle (label : String) : Alike (.handle label) (.handle label)
  | deferred {d e : Deferred} (same : D d e) : Alike (.deferred d) (.deferred e)

inductive Expression.Alike : Expression → Expression → Prop where
  | text (content : String) : Alike (.text content) (.text content)
  | raw (content : String) : Alike (.raw content) (.raw content)
  | deferred {d e : Deferred} (same : D d e) : Alike (.deferred d) (.deferred e)

structure SortColumn.Alike (left right : SortColumn) : Prop where
  direction : left.direction = right.direction
  column : left.column.Alike D right.column

/-- Headers with the same clauses. -/
structure Header.Alike (left right : Header) : Prop where
  kind : left.kind = right.kind
  distinct : left.distinct = right.distinct
  columns : List.Forall₂ (Expression.Alike D) left.columns right.columns
  tables : List.Forall₂ (Expression.Alike D) left.tables right.tables
  groups : List.Forall₂ (Expression.Alike D) left.groups right.groups
  orders : List.Forall₂ (SortColumn.Alike D) left.orders right.orders
  limit : left.limit = right.limit
  offset : left.offset = right.offset
  target : Option.Rel (Expression.Alike D) left.target right.target
  insertColumns : List.Forall₂ (Expression.Alike D) left.insertColumns right.insertColumns
  updateTables : List.Forall₂ (Expression.Alike D) left.updateTables right.updateTables
  locked : left.locked = right.locked
  rawText : left.rawText = right.rawText

mutual

inductive Value.Alike : Value → Value → Prop where
  | null : Value.Alike .null .null
  | bool (b : Bool) : Value.Alike (.bool b) (.bool b)
  | int (n : Int64) : Value.Alike (.int n) (.int n)
  | float (x : Double) : Value.Alike (.float x) (.float x)
  | text (s : String) : Value.Alike (.text s) (.text s)
  | date (d : Date) : Value.Alike (.date d) (.date d)
  | dateTime (t : DateTime) : Value.Alike (.dateTime t) (.dateTime t)
  | parameter (name : String) : Value.Alike (.parameter name) (.parameter name)
  | column {c d : Column} (same : c.Alike D d) : Value.Alike (.column c) (.column d)
  | list {items others : List Value} (all : List.Forall₂ Value.Alike items others) :
      Value.Alike (.list items) (.list others)
  | query (tag tag' : Nat) {s t : Statement} (inner : Statement.Alike s t) :
      Value.Alike (.query tag s) (.query tag' t)
  | group (tag tag' : Nat) {s t : Statement} (inner : Statement.Alike s t) :
      Value.Alike (.group tag s) (.group tag' t)

/-- A group that stands as a condition has a column of its own, which is never written. -/
inductive Predicate.Alike : Predicate → Predicate → Prop where
  | plain (key key' : String) {column column' : Column} (operator : Option Operator)
      {value value' : Value} (connective : Connective) (columns : column.Alike D column')
      (values : Value.Alike value value') :
      Predicate.Alike ⟨key, column, operator, value, connective⟩
        ⟨key', column', operator, value', connective⟩
  | group (key key' : String) (column column' : Column) (tag tag' : Nat) {s t : Statement}
      (connective : Connective) (inner : Statement.Alike s t) :
      Predicate.Alike ⟨key, column, none, .group tag s, connective⟩
        ⟨key', column', none, .group tag' t, connective⟩

inductive Join.Alike : Join → Join → Prop where
  | mk (kind : JoinKind) {table table' : Expression} {predicates predicates' : List Predicate}
      (tables : table.Alike D table')
      (conditions : List.Forall₂ Predicate.Alike predicates predicates') :
      Join.Alike ⟨kind, table, predicates⟩ ⟨kind, table', predicates'⟩

inductive Assignment.Alike : Assignment → Assignment → Prop where
  | mk (key key' : String) {column column' : Column} {value value' : Value}
      (columns : column.Alike D column') (values : Value.Alike value value') :
      Assignment.Alike ⟨key, column, value⟩ ⟨key', column', value'⟩

inductive UnionMember.Alike : UnionMember → UnionMember → Prop where
  | mk {s t : Statement} (all : Bool) (inner : Statement.Alike s t) :
      UnionMember.Alike ⟨s, all⟩ ⟨t, all⟩

inductive Statement.Alike : Statement → Statement → Prop where
  | mk {h h' : Header} {ps ps' : List Predicate} {js js' : List Join} {rs rs' : List (List Value)}
      {as as' : List Assignment} {ms ms' : List UnionMember} (bs bs' : List Binding)
      (header : h.Alike D h') (predicates : List.Forall₂ Predicate.Alike ps ps')
      (joins : List.Forall₂ Join.Alike js js')
      (rows : List.Forall₂ (List.Forall₂ Value.Alike) rs rs')
      (assignments : List.Forall₂ Assignment.Alike as as')
      (members : List.Forall₂ UnionMember.Alike ms ms') :
      Statement.Alike ⟨h, ps, js, rs, as, ms, bs⟩ ⟨h', ps', js', rs', as', ms', bs'⟩

end

/-- Concatenations over statements that are alike. -/
structure GroupConcat.Alike (left right : GroupConcat) : Prop where
  statement : left.statement.Alike D right.statement
  columns : List.Forall₂ (Expression.Alike D) left.columns right.columns
  separator : left.separator = right.separator
  label : left.label = right.label

variable {D}

/-! ## What likeness keeps -/

theorem Value.Alike.shape {v w : Value} (values : v.Alike D w) : v.shape = w.shape := by
  cases values <;> rfl

theorem Predicate.Alike.connective {p q : Predicate} (conditions : p.Alike D q) :
    p.connective = q.connective := by
  cases conditions <;> rfl

theorem Statement.Alike.header {s t : Statement} (statements : s.Alike D t) :
    s.toHeader.Alike D t.toHeader := by
  cases statements with
  | mk _ _ header _ _ _ _ _ => exact header

/-! ## Reflexivity -/

theorem Column.Alike.refl (itself : ∀ d, D d d) (c : Column) : c.Alike D c := by
  cases c with
  | name content => exact .name content
  | handle label => exact .handle label
  | deferred d => exact .deferred (itself d)

theorem Expression.Alike.refl (itself : ∀ d, D d d) (item : Expression) : item.Alike D item := by
  cases item with
  | text content => exact .text content
  | raw content => exact .raw content
  | deferred d => exact .deferred (itself d)

theorem forall₂_expressions (itself : ∀ d, D d d) (items : List Expression) :
    List.Forall₂ (Expression.Alike D) items items :=
  List.forall₂_same.mpr fun item _ => Expression.Alike.refl itself item

/-- A header may be given another configuration, other recorded names and another count. -/
theorem Header.Alike.rebuilt (itself : ∀ d, D d d) (h : Header) (config : Config)
    (deletes : Bool) (markers : List String) (groupCount : Nat) :
    h.Alike D { h with config, deletes, markers, groupCount } where
  kind := rfl
  distinct := rfl
  columns := forall₂_expressions itself h.columns
  tables := forall₂_expressions itself h.tables
  groups := forall₂_expressions itself h.groups
  orders := List.forall₂_same.mpr fun item _ => ⟨rfl, Column.Alike.refl itself item.column⟩
  limit := rfl
  offset := rfl
  target := by
    cases h.target with
    | none => exact .none
    | some target => exact .some (Expression.Alike.refl itself target)
  insertColumns := forall₂_expressions itself h.insertColumns
  updateTables := forall₂_expressions itself h.updateTables
  locked := rfl
  rawText := rfl

mutual

theorem Value.Alike.refl (itself : ∀ d, D d d) : ∀ v : Value, v.Alike D v
  | .null => .null
  | .bool b => .bool b
  | .int n => .int n
  | .float x => .float x
  | .text s => .text s
  | .date d => .date d
  | .dateTime t => .dateTime t
  | .parameter name => .parameter name
  | .column c => .column (Column.Alike.refl itself c)
  | .list items => .list (forall₂_values itself items)
  | .query tag s => .query tag tag (Statement.Alike.refl itself s)
  | .group tag s => .group tag tag (Statement.Alike.refl itself s)
termination_by structural v => v

theorem forall₂_values (itself : ∀ d, D d d) :
    ∀ items : List Value, List.Forall₂ (Value.Alike D) items items
  | [] => .nil
  | item :: items => .cons (Value.Alike.refl itself item) (forall₂_values itself items)
termination_by structural items => items

theorem forall₂_predicates (itself : ∀ d, D d d) :
    ∀ ps : List Predicate, List.Forall₂ (Predicate.Alike D) ps ps
  | [] => .nil
  | ⟨key, column, operator, operand, connective⟩ :: ps =>
      .cons (.plain key key operator connective (Column.Alike.refl itself column)
        (Value.Alike.refl itself operand)) (forall₂_predicates itself ps)
termination_by structural ps => ps

theorem forall₂_joins (itself : ∀ d, D d d) :
    ∀ js : List Join, List.Forall₂ (Join.Alike D) js js
  | [] => .nil
  | ⟨kind, table, ps⟩ :: js =>
      .cons (.mk kind (Expression.Alike.refl itself table) (forall₂_predicates itself ps))
        (forall₂_joins itself js)
termination_by structural js => js

theorem forall₂_rows (itself : ∀ d, D d d) :
    ∀ rs : List (List Value), List.Forall₂ (List.Forall₂ (Value.Alike D)) rs rs
  | [] => .nil
  | row :: rs => .cons (forall₂_values itself row) (forall₂_rows itself rs)
termination_by structural rs => rs

theorem forall₂_assignments (itself : ∀ d, D d d) :
    ∀ as : List Assignment, List.Forall₂ (Assignment.Alike D) as as
  | [] => .nil
  | ⟨key, column, operand⟩ :: as =>
      .cons (.mk key key (Column.Alike.refl itself column) (Value.Alike.refl itself operand))
        (forall₂_assignments itself as)
termination_by structural as => as

theorem forall₂_members (itself : ∀ d, D d d) :
    ∀ ms : List UnionMember, List.Forall₂ (UnionMember.Alike D) ms ms
  | [] => .nil
  | ⟨s, all⟩ :: ms => .cons (.mk all (Statement.Alike.refl itself s)) (forall₂_members itself ms)
termination_by structural ms => ms

theorem Statement.Alike.refl (itself : ∀ d, D d d) : ∀ s : Statement, s.Alike D s
  | ⟨h, ps, js, rs, as, ms, bs⟩ =>
      .mk bs bs (Header.Alike.rebuilt itself h h.config h.deletes h.markers h.groupCount)
        (forall₂_predicates itself ps) (forall₂_joins itself js) (forall₂_rows itself rs)
        (forall₂_assignments itself as) (forall₂_members itself ms)
termination_by structural s => s

end

/-- A statement may be given another configuration, other bindings and other recorded names. -/
theorem Statement.Alike.rebuilt (itself : ∀ d, D d d) (s : Statement) (config : Config)
    (deletes : Bool) (markers : List String) (groupCount : Nat) (bindings : List Binding) :
    s.Alike D { s with config, deletes, markers, groupCount, bindings } := by
  cases Statement.Alike.refl itself s with
  | mk bs _ header predicates joins rows assignments members =>
      exact .mk bs bindings (Header.Alike.rebuilt itself _ config deletes markers groupCount)
        predicates joins rows assignments members

end SqlBuilder
