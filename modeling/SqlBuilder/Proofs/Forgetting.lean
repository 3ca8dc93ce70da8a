import SqlBuilder.Proofs.Accounting

/-!
# Names that are forgotten

Names are forgotten one after the other, the last one first, each at its last
place among the entries in front of a mark.  The mark goes down with every
name that is found, so that the entries behind it are never touched.  In the
end the last occurrences of each name are gone, as many as were given, and the
order in which the names were given has no part in it.
-/

namespace SqlBuilder

namespace Markers

/-! ## One name -/

theorem eraseLast_cons (name first : String) (names : List String) :
    eraseLast name (first :: names) =
      if name ∈ names then first :: eraseLast name names
      else if first = name then names else first :: names := by
  unfold eraseLast
  rw [List.reverse_cons, List.erase_append]
  by_cases later : name ∈ names
  · simp [later]
  · by_cases same : first = name
    · simp [later, same]
    · simp [later, same]

theorem eraseLast_of_not_mem {name : String} {names : List String} (missing : name ∉ names) :
    eraseLast name names = names := by
  unfold eraseLast
  rw [List.erase_of_not_mem fun mem => missing (List.mem_reverse.mp mem), List.reverse_reverse]

theorem eraseLast_split {name : String} (front : List String) {back : List String}
    (last : name ∉ back) : eraseLast name (front ++ name :: back) = front ++ back := by
  induction front with
  | nil => rw [List.nil_append, eraseLast_cons, if_neg last, if_pos rfl, List.nil_append]
  | cons first front ih =>
      have later : name ∈ front ++ name :: back := List.mem_append_right front List.mem_cons_self
      rw [List.cons_append, eraseLast_cons, if_pos later, ih, List.cons_append]

/-- A name that is there has a last occurrence. -/
theorem exists_last {name : String} {names : List String} (mem : name ∈ names) :
    ∃ front back, names = front ++ name :: back ∧ name ∉ back := by
  obtain ⟨back, front, split, first⟩ := List.eq_append_cons_of_mem (List.mem_reverse.mpr mem)
  refine ⟨front.reverse, back.reverse, ?_, fun again => first (List.mem_reverse.mp again)⟩
  rw [← List.reverse_reverse names, split]
  simp

/-! ## In place -/

/-- The last place of a name in front of a mark. -/
def lastPlace? (name : String) (names : List String) : Nat → Option Nat
  | 0 => none
  | mark + 1 => if names[mark]? = some name then some mark else lastPlace? name names mark

/-- Take a name away at its last place in front of the mark; the mark goes down with it. -/
def removeOne (name : String) (state : List String × Nat) : List String × Nat :=
  match lastPlace? name state.1 state.2 with
  | some place => (state.1.eraseIdx place, state.2 - 1)
  | none => state

/-- Take names away in place, the last one first. -/
def removeInPlace (removed : List String) (mark : Nat) (names : List String) : List String :=
  (removed.foldr removeOne (names, mark)).1

/-- Entries with other names are passed over. -/
theorem lastPlace?_skip {name : String} (front : List String) {back : List String}
    (others : name ∉ back) (tail : List String) :
    lastPlace? name (front ++ back ++ tail) (front.length + back.length) =
      lastPlace? name (front ++ back ++ tail) front.length := by
  have skip (n : Nat) (within : n ≤ back.length) :
      lastPlace? name (front ++ back ++ tail) (front.length + n) =
        lastPlace? name (front ++ back ++ tail) front.length := by
    induction n with
    | zero => rfl
    | succ n ih =>
        have inBack : n < back.length := within
        have entry : (front ++ back ++ tail)[front.length + n]? = some back[n] := by
          rw [List.append_assoc, List.getElem?_append_right (Nat.le_add_right _ _),
            Nat.add_sub_cancel_left, List.getElem?_append_left inBack,
            List.getElem?_eq_getElem inBack]
        have other : back[n] ≠ name := fun same => others (same ▸ List.getElem_mem inBack)
        rw [← Nat.add_assoc, lastPlace?, entry, if_neg fun same => other (Option.some.inj same)]
        exact ih (Nat.le_of_lt inBack)
  exact skip back.length (Nat.le_refl _)

/-- Removing a name in place erases its last occurrence in front of the mark and nothing else. -/
theorem removeOne_append (name : String) (head tail : List String) :
    removeOne name (head ++ tail, head.length) =
      (eraseLast name head ++ tail, (eraseLast name head).length) := by
  unfold removeOne
  by_cases mem : name ∈ head
  · obtain ⟨front, back, rfl, last⟩ := exists_last mem
    have found : lastPlace? name (front ++ name :: back ++ tail) (front ++ name :: back).length =
        some front.length := by
      have behind := lastPlace?_skip (front ++ [name]) last tail
      simp only [List.append_assoc, List.cons_append, List.nil_append, List.length_append,
        List.length_singleton] at behind
      have entry : (front ++ name :: (back ++ tail))[front.length]? = some name := by simp
      rw [List.length_append, List.length_cons, Nat.add_comm back.length, ← Nat.add_assoc,
        List.append_assoc, List.cons_append, behind, lastPlace?, if_pos entry]
    have erased :
        (front ++ name :: back ++ tail).eraseIdx front.length = front ++ back ++ tail := by
      rw [List.append_assoc, List.eraseIdx_append_of_length_le (Nat.le_refl _), Nat.sub_self,
        List.append_assoc]
      rfl
    dsimp only
    rw [found, eraseLast_split front last]
    dsimp only
    rw [erased]
    simp
  · have missing : lastPlace? name (head ++ tail) head.length = none := by
      have skip := lastPlace?_skip [] mem tail
      simpa [lastPlace?] using skip
    dsimp only
    rw [missing, eraseLast_of_not_mem mem]

/-- The entries behind the mark stay; those in front of it are erased one by one. -/
theorem foldr_removeOne (removed head tail : List String) :
    removed.foldr removeOne (head ++ tail, head.length) =
      (removed.foldr eraseLast head ++ tail, (removed.foldr eraseLast head).length) := by
  induction removed with
  | nil => rfl
  | cons name removed ih => rw [List.foldr_cons, ih, removeOne_append, List.foldr_cons]

/-- Names are forgotten in place. -/
theorem removeInPlace_eq_forget (removed : List String) {mark : Nat} {names : List String}
    (within : mark ≤ names.length) :
    removeInPlace removed mark names = forget removed mark names := by
  have run := foldr_removeOne removed (names.take mark) (names.drop mark)
  rw [List.take_append_drop, List.length_take_of_le within] at run
  unfold removeInPlace forget
  rw [run]

/-! ## The last occurrences -/

/--
The list without the last occurrences of the given names, as many of each as
are given.  An entry stays if enough occurrences of its name stand behind it.
-/
def withoutLast (removed : List String) : List String → List String
  | [] => []
  | name :: names =>
    if removed.count name ≤ names.count name then name :: withoutLast removed names
    else withoutLast removed names

/-- The entries that stay keep their order. -/
theorem withoutLast_sublist (removed names : List String) :
    (withoutLast removed names).Sublist names := by
  induction names with
  | nil => exact .slnil
  | cons name names ih =>
      unfold withoutLast
      split
      · exact ih.cons_cons name
      · exact ih.cons name

theorem count_withoutLast (removed names : List String) (name : String) :
    (withoutLast removed names).count name = names.count name - removed.count name := by
  induction names with
  | nil => simp [withoutLast]
  | cons first names ih =>
      unfold withoutLast
      by_cases same : first = name
      · subst same
        rw [List.count_cons_self]
        split
        · rw [List.count_cons_self]
          omega
        · omega
      · rw [List.count_cons_of_ne same]
        split
        · rw [List.count_cons_of_ne same, ih]
        · exact ih

/-- Only the number of times that each name is given matters. -/
theorem withoutLast_congr {removed other : List String}
    (same : ∀ name, removed.count name = other.count name) (names : List String) :
    withoutLast removed names = withoutLast other names := by
  induction names with
  | nil => rfl
  | cons name names ih => rw [withoutLast, withoutLast, same, ih]

/-- One more name takes away one more occurrence, the last one of those that are left. -/
theorem eraseLast_withoutLast (name : String) (removed names : List String) :
    eraseLast name (withoutLast removed names) = withoutLast (name :: removed) names := by
  induction names with
  | nil => rfl
  | cons first names ih =>
      have left := count_withoutLast removed names name
      unfold withoutLast
      by_cases same : first = name
      · subst same
        rw [List.count_cons_self]
        by_cases enough : removed.count first ≤ names.count first
        · rw [if_pos enough, eraseLast_cons]
          by_cases later : first ∈ withoutLast removed names
          · have more := List.count_pos_iff.mpr later
            rw [if_pos later, if_pos (by omega), ih]
          · have none := List.count_eq_zero.mpr later
            rw [if_neg later, if_pos rfl, if_neg (by omega), ← ih, eraseLast_of_not_mem later]
        · rw [if_neg enough, if_neg (by omega), ih]
      · rw [List.count_cons_of_ne fun eq => same eq.symm]
        by_cases enough : removed.count first ≤ names.count first
        · rw [if_pos enough, if_pos enough, eraseLast_cons, if_neg same, ← ih]
          by_cases later : name ∈ withoutLast removed names
          · rw [if_pos later]
          · rw [if_neg later, eraseLast_of_not_mem later]
        · rw [if_neg enough, if_neg enough, ih]

theorem foldr_eraseLast (removed names : List String) :
    removed.foldr eraseLast names = withoutLast removed names := by
  induction removed with
  | nil =>
      have all : withoutLast [] names = names := by
        induction names with
        | nil => rfl
        | cons name names ih => rw [withoutLast, List.count_nil, if_pos (Nat.zero_le _), ih]
      exact all.symm
  | cons name removed ih => rw [List.foldr_cons, ih, eraseLast_withoutLast]

/-- What was recorded last is forgotten as a whole. -/
theorem withoutLast_append (front removed : List String) :
    withoutLast removed (front ++ removed) = front := by
  induction front with
  | nil =>
      refine List.eq_nil_iff_forall_not_mem.mpr fun name mem => ?_
      have left := List.count_pos_iff.mpr mem
      rw [count_withoutLast] at left
      simp at left
  | cons name front ih =>
      have enough : removed.count name ≤ (front ++ removed).count name := by
        rw [List.count_append]
        omega
      rw [List.cons_append, withoutLast, if_pos enough, ih]

/--
Names are forgotten as if they were removed in place, one by one from the
last: entries from the mark on stay as they are, and in front of it the last
occurrences of each name are gone, as many as were given or all that there
are.  The order of the names does not matter, and names that were recorded
right in front of the mark go as a whole.
-/
theorem forget_deletes_last (removed : List String) {mark : Nat} {names : List String}
    (within : mark ≤ names.length) :
    removeInPlace removed mark names = forget removed mark names ∧
    forget removed mark names = withoutLast removed (names.take mark) ++ names.drop mark ∧
    (withoutLast removed (names.take mark)).Sublist (names.take mark) ∧
    (∀ name, (withoutLast removed (names.take mark)).count name +
      min (removed.count name) ((names.take mark).count name) = (names.take mark).count name) ∧
    (∀ other, removed.Perm other → forget other mark names = forget removed mark names) ∧
    ∀ front, names.take mark = front ++ removed →
      forget removed mark names = front ++ names.drop mark := by
  have deleted (given : List String) :
      forget given mark names = withoutLast given (names.take mark) ++ names.drop mark := by
    rw [forget, foldr_eraseLast]
  refine ⟨removeInPlace_eq_forget removed within, deleted removed, withoutLast_sublist _ _,
    fun name => ?_, fun other perm => ?_, fun front recorded => ?_⟩
  · rw [count_withoutLast]
    omega
  · rw [deleted, deleted, withoutLast_congr fun name => (perm.count_eq name).symm]
  · rw [deleted, recorded, withoutLast_append]

theorem forget_deletes_last_repeated :
    let names := ["a", "b", "a", "c", "a", "a", "b"]
    let removed := ["a", "d", "a"]
    removeInPlace removed 5 names = ["a", "b", "c", "a", "b"] ∧
      forget removed 5 names = ["a", "b", "c", "a", "b"] := by
  intro names removed
  have within : 5 ≤ names.length := by decide
  obtain ⟨inPlace, deleted, -⟩ := forget_deletes_last removed within
  rw [inPlace, deleted]
  exact ⟨by decide, by decide⟩

end Markers

end SqlBuilder
