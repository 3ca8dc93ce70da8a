import SqlBuilder.Statement.Call
import Mathlib.Logic.Relation

/-!
# Statements within statements

A statement stores values in its conditions, joins, rows and assignments, and
statements as members of its union.  A value holds a statement if it is a
sub-query or a group, or a list with such an entry.  What is stored directly
or at any depth below is within the statement.
-/

namespace SqlBuilder

/-- A value holds a statement by itself or by an entry of the list that it is. -/
inductive Value.Holds (inner : Statement) : Value → Prop where
  | query (tag : Nat) : Holds inner (.query tag inner)
  | group (tag : Nat) : Holds inner (.group tag inner)
  | item {items : List Value} {value : Value} (mem : value ∈ items) (holds : Holds inner value) :
      Holds inner (.list items)

namespace Value

/-- Every statement that a value holds has a property. -/
def HoldsOnly (P : Statement → Prop) (value : Value) : Prop :=
  ∀ inner, value.Holds inner → P inner

/-- Entries of a list hold what the list holds. -/
theorem HoldsOnly.entries {P : Statement → Prop} {items : List Value}
    (only : (list items).HoldsOnly P) : ∀ item ∈ items, item.HoldsOnly P :=
  fun _ mem inner holds => only inner (.item mem holds)

/-- A list holds what its entries hold. -/
theorem holds_list_iff {inner : Statement} {items : List Value} :
    (list items).Holds inner ↔ ∃ value ∈ items, value.Holds inner := by
  constructor
  · intro holds
    cases holds with
    | item mem holds => exact ⟨_, mem, holds⟩
  · rintro ⟨value, mem, holds⟩
    exact .item mem holds

mutual

/-- The statements that are collected from a value are those that it holds. -/
theorem mem_nested {inner : Statement} : ∀ value : Value, inner ∈ value.nested ↔ value.Holds inner
  | .list items => by
      rw [nested, mem_nestedInAll items, holds_list_iff]
  | .query tag s => by
      rw [nested, List.mem_singleton]
      constructor
      · rintro rfl
        exact .query tag
      · intro holds
        cases holds
        rfl
  | .group tag s => by
      rw [nested, List.mem_singleton]
      constructor
      · rintro rfl
        exact .group tag
      · intro holds
        cases holds
        rfl
  | .null | .bool _ | .int _ | .float _ | .text _ | .date _ | .dateTime _ | .parameter _
  | .column _ => by
      constructor
      · intro mem
        cases mem
      · intro holds
        cases holds
termination_by structural value => value

/-- The statements that are collected from values are those that one of them holds. -/
theorem mem_nestedInAll {inner : Statement} :
    ∀ values : List Value, inner ∈ nestedInAll values ↔ ∃ value ∈ values, value.Holds inner
  | [] => by
      simp [nestedInAll]
  | value :: values => by
      rw [nestedInAll, List.mem_append, mem_nested value, mem_nestedInAll values]
      simp only [List.mem_cons, exists_eq_or_imp]
termination_by structural values => values

end

end Value

namespace Statement

/-- The values that a statement stores, clause by clause. -/
def values (s : Statement) : List Value :=
  s.predicates.map Predicate.value ++
    s.joins.flatMap (fun join => join.predicates.map Predicate.value) ++
    s.rows.flatten ++ s.assignments.map Assignment.value

/-- The members of the union that a statement starts. -/
def memberStatements (s : Statement) : List Statement :=
  s.members.map UnionMember.statement

/-- A statement stores another as a union member or in one of its values. -/
def Stores (s inner : Statement) : Prop :=
  (∃ value ∈ s.values, value.Holds inner) ∨ inner ∈ s.memberStatements

/-- A statement is within another if it is stored there, directly or at any depth. -/
def Within (inner s : Statement) : Prop :=
  Relation.TransGen Stores s inner

/-- A fresh statement stores nothing. -/
theorem not_stores_statement (config : Config) (inner : Statement) :
    ¬ config.statement.Stores inner := by
  rintro (⟨value, mem, -⟩ | mem)
  · cases mem
  · cases mem

/-- A fresh statement that selects stores nothing. -/
theorem not_stores_selection (config : Config) (inner : Statement) :
    ¬ config.selection.Stores inner := by
  rintro (⟨value, mem, -⟩ | mem)
  · cases mem
  · cases mem

/-- A statement and every statement within it have a property. -/
def Throughout (P : Statement → Prop) (s : Statement) : Prop :=
  P s ∧ ∀ inner : Statement, inner.Within s → P inner

namespace Throughout

variable {P : Statement → Prop} {s : Statement}

theorem stored {inner : Statement} (all : s.Throughout P) (stores : s.Stores inner) :
    inner.Throughout P :=
  ⟨all.2 inner (.single stores), fun deeper within => all.2 deeper (.head stores within)⟩

/-- What a statement stores directly holds everything else within it. -/
theorem of_stored (own : P s) (stored : ∀ inner : Statement, s.Stores inner → inner.Throughout P) :
    s.Throughout P := by
  refine ⟨own, fun inner within => ?_⟩
  obtain ⟨middle, stores, further⟩ := Relation.TransGen.head'_iff.mp within
  rcases Relation.reflTransGen_iff_eq_or_transGen.mp further with rfl | deeper
  · exact (stored _ stores).1
  · exact (stored middle stores).2 inner deeper

theorem value {v : Value} (all : s.Throughout P) (mem : v ∈ s.values) :
    v.HoldsOnly (Throughout P) :=
  fun _ holds => all.stored (Or.inl ⟨v, mem, holds⟩)

theorem predicate {p : Predicate} (all : s.Throughout P) (mem : p ∈ s.predicates) :
    p.value.HoldsOnly (Throughout P) := by
  have stored : p.value ∈ s.predicates.map Predicate.value := List.mem_map_of_mem mem
  exact all.value (by simp [values, stored])

theorem joinPredicate {join : Join} {p : Predicate} (all : s.Throughout P)
    (outer : join ∈ s.joins) (mem : p ∈ join.predicates) :
    p.value.HoldsOnly (Throughout P) := by
  have stored : p.value ∈ s.joins.flatMap fun join => join.predicates.map Predicate.value :=
    List.mem_flatMap.mpr ⟨join, outer, List.mem_map_of_mem mem⟩
  refine all.value (List.mem_append_left _ (List.mem_append_left _ ?_))
  exact List.mem_append_right _ stored

theorem field {row : List Value} {v : Value} (all : s.Throughout P) (outer : row ∈ s.rows)
    (mem : v ∈ row) : v.HoldsOnly (Throughout P) := by
  have stored : v ∈ s.rows.flatten := List.mem_flatten.mpr ⟨row, outer, mem⟩
  exact all.value (by simp [values, stored])

theorem assignment {a : Assignment} (all : s.Throughout P) (mem : a ∈ s.assignments) :
    a.value.HoldsOnly (Throughout P) :=
  all.value (List.mem_append_right _ (List.mem_map_of_mem mem))

theorem member {m : UnionMember} (all : s.Throughout P) (mem : m ∈ s.members) :
    m.statement.Throughout P :=
  all.stored (Or.inr (List.mem_map_of_mem mem))

end Throughout

end Statement

end SqlBuilder
