import SqlBuilder.Proofs.Admission

/-!
# Trees of unions

A statement combines itself with the members of its union, each of which may
have a union of its own.  If some members are not set apart, so that they go on
with the chain in front of them, the tree is another one: it is the same
exactly if each of these members stands alone.
-/

namespace SqlBuilder

/-! ## Trees -/

/-- How selections are combined by `UNION` and `UNION ALL`. -/
inductive Compound where
  | single (s : Statement)
  | combined (left : Compound) (all : Bool) (right : Compound)

/-- What stands in front of an operand: what it is combined with, if anything. -/
abbrev Pending := Option (Compound × Bool)

/-- Combine an operand with what stands in front of it. -/
def Pending.join (operand : Compound) : Pending → Compound
  | none => operand
  | some (left, all) => .combined left all operand

namespace Statement

/-- The statement selects, so that it writes its union. -/
def selects (s : Statement) : Bool :=
  [.select, .random].contains s.kind

mutual

/--
The tree of a union behind what stands in front of it.  The members for which
`apart` holds are operands of their own, the others go on with the chain.
-/
def tree (apart : Statement → Bool) (pending : Pending) : Statement → Compound
  | ⟨h, ps, js, rs, as, ms, bs⟩ =>
    let s : Statement := ⟨h, ps, js, rs, as, ms, bs⟩
    if s.selects then memberTree apart (pending.join (.single s)) ms
    else pending.join (.single s)
termination_by structural s => s

/-- Members combined one after the other with what is done. -/
def memberTree (apart : Statement → Bool) (done : Compound) : List UnionMember → Compound
  | [] => done
  | ⟨s, all⟩ :: others =>
    let operand :=
      if apart s then .combined done all (tree apart none s) else tree apart (some (done, all)) s
    memberTree apart operand others
termination_by structural members => members

end

/-- The tree that the statement holds: every member is one operand. -/
def compound (s : Statement) : Compound :=
  s.tree (fun _ => true) none

/-- A statement is combined with its members one after the other. -/
theorem compound_eq (s : Statement) :
    s.compound =
      if s.selects then
        s.members.foldl (fun done m => .combined done m.all m.statement.compound) (.single s)
      else .single s := by
  have fold (done : Compound) (ms : List UnionMember) :
      memberTree (fun _ => true) done ms =
        ms.foldl (fun done m => .combined done m.all m.statement.compound) done := by
    induction ms generalizing done with
    | nil => rfl
    | cons m ms ih =>
        cases m
        exact ih _
  rw [← fold]
  cases s
  rfl

/-- The tree that is written: members without parentheses go on with the chain. -/
def written (s : Statement) : Compound :=
  s.tree (fun m => m.standsApart) none

/-- The statement has a union that it writes. -/
def combines (s : Statement) : Bool :=
  s.selects && !s.members.isEmpty

mutual

/-- Every member with a union of its own is set apart, at every depth. -/
def unionsApart (apart : Statement → Bool) : Statement → Bool
  | ⟨h, ps, js, rs, as, ms, bs⟩ =>
    !selects ⟨h, ps, js, rs, as, ms, bs⟩ || membersApart apart ms
termination_by structural s => s

def membersApart (apart : Statement → Bool) : List UnionMember → Bool
  | [] => true
  | ⟨s, _⟩ :: others =>
    (apart s || !s.combines) && unionsApart apart s && membersApart apart others
termination_by structural members => members

end

/-- A statement without a union is a single operand. -/
theorem tree_of_alone {s : Statement} (alone : s.combines = false) (apart : Statement → Bool)
    (pending : Pending) : s.tree apart pending = pending.join (.single s) := by
  obtain ⟨h, ps, js, rs, as, ms, bs⟩ := s
  rw [tree]
  cases selects : Statement.selects ⟨h, ps, js, rs, as, ms, bs⟩ with
  | false => rfl
  | true =>
      simp only [combines, selects, Bool.true_and, Bool.not_eq_false', List.isEmpty_iff] at alone
      rw [alone]
      rfl

mutual

/-- If all members with a union are set apart, the others may be too. -/
theorem tree_of_unionsApart {apart : Statement → Bool} : ∀ (s : Statement) (pending : Pending),
    s.unionsApart apart = true → s.tree apart pending = s.tree (fun _ => true) pending
  | ⟨h, ps, js, rs, as, ms, bs⟩, pending, kept => by
      rw [tree, tree]
      cases selects : Statement.selects ⟨h, ps, js, rs, as, ms, bs⟩ with
      | false => rfl
      | true =>
          rw [unionsApart, selects] at kept
          exact memberTree_of_membersApart ms _ kept
termination_by structural s => s

theorem memberTree_of_membersApart {apart : Statement → Bool} :
    ∀ (ms : List UnionMember) (done : Compound), membersApart apart ms = true →
      memberTree apart done ms = memberTree (fun _ => true) done ms
  | [], done, _ => rfl
  | ⟨s, all⟩ :: others, done, kept => by
      simp only [membersApart, Bool.and_eq_true, Bool.or_eq_true, Bool.not_eq_true'] at kept
      obtain ⟨⟨first, inner⟩, rest⟩ := kept
      have operand : (if apart s then Compound.combined done all (tree apart none s)
          else tree apart (some (done, all)) s) =
          .combined done all (tree (fun _ => true) none s) := by
        cases set : apart s with
        | true => rw [if_pos rfl, tree_of_unionsApart s none inner]
        | false =>
            have alone : s.combines = false := first.resolve_left (by rw [set]; decide)
            rw [if_neg (by decide), tree_of_alone alone, tree_of_alone alone]
            rfl
      rw [memberTree, memberTree, operand, if_pos rfl]
      exact memberTree_of_membersApart others _ rest
termination_by structural members => members

end

end Statement

/-! ## How deep the operands are

A union that goes on with the chain is no longer within a right operand.  The
combinations there become fewer, and that tells the two trees apart.
-/

namespace Compound

/-- The number of combinations. -/
def joints : Compound → Nat
  | .single _ => 0
  | .combined left _ right => left.joints + right.joints + 1

/-- The number of combinations within right operands, counted once for each of these. -/
def nesting : Compound → Nat
  | .single _ => 0
  | .combined left _ right => left.nesting + right.nesting + right.joints

end Compound

namespace Pending

def joints : Pending → Nat
  | none => 0
  | some (left, _) => left.joints + 1

def nesting : Pending → Nat
  | none => 0
  | some (left, _) => left.nesting

theorem joints_join_single (pending : Pending) (s : Statement) :
    (pending.join (.single s)).joints = pending.joints := by
  cases pending <;> rfl

theorem nesting_join_single (pending : Pending) (s : Statement) :
    (pending.join (.single s)).nesting = pending.nesting := by
  cases pending <;> rfl

end Pending

namespace Statement

mutual

/-- The number of members at every depth. -/
def memberCount : Statement → Nat
  | ⟨h, ps, js, rs, as, ms, bs⟩ =>
    if selects ⟨h, ps, js, rs, as, ms, bs⟩ then countAll ms else 0
termination_by structural s => s

def countAll : List UnionMember → Nat
  | [] => 0
  | ⟨s, _⟩ :: others => memberCount s + 1 + countAll others
termination_by structural members => members

end

mutual

/-- The number of members within members that are set apart, counted once for each of these. -/
def depth (apart : Statement → Bool) : Statement → Nat
  | ⟨h, ps, js, rs, as, ms, bs⟩ =>
    if selects ⟨h, ps, js, rs, as, ms, bs⟩ then depthAll apart ms else 0
termination_by structural s => s

def depthAll (apart : Statement → Bool) : List UnionMember → Nat
  | [] => 0
  | ⟨s, _⟩ :: others =>
    depth apart s + (if apart s then memberCount s else 0) + depthAll apart others
termination_by structural members => members

end

theorem combines_of_memberCount {s : Statement} (alone : s.memberCount = 0) :
    s.combines = false := by
  obtain ⟨h, ps, js, rs, as, ms, bs⟩ := s
  rw [memberCount] at alone
  unfold combines
  cases selects : Statement.selects ⟨h, ps, js, rs, as, ms, bs⟩ with
  | false => rfl
  | true =>
      rw [selects, if_pos rfl] at alone
      cases ms with
      | nil => rfl
      | cons m ms => cases m; simp [countAll] at alone

mutual

theorem joints_tree (apart : Statement → Bool) : ∀ (s : Statement) (pending : Pending),
    (s.tree apart pending).joints = pending.joints + s.memberCount
  | ⟨h, ps, js, rs, as, ms, bs⟩, pending => by
      rw [tree, memberCount]
      cases selects : Statement.selects ⟨h, ps, js, rs, as, ms, bs⟩ with
      | false => exact Pending.joints_join_single pending _
      | true => rw [if_pos rfl, if_pos rfl, joints_memberTree apart ms, Pending.joints_join_single]
termination_by structural s => s

theorem joints_memberTree (apart : Statement → Bool) :
    ∀ (ms : List UnionMember) (done : Compound),
      (memberTree apart done ms).joints = done.joints + countAll ms
  | [], done => rfl
  | ⟨s, all⟩ :: others, done => by
      rw [memberTree, countAll, joints_memberTree apart others]
      cases apart s with
      | true => rw [if_pos rfl, Compound.joints, joints_tree apart s, Pending.joints]; omega
      | false => rw [if_neg (by decide), joints_tree apart s, Pending.joints]; omega
termination_by structural members => members

end

mutual

theorem nesting_tree (apart : Statement → Bool) : ∀ (s : Statement) (pending : Pending),
    (s.tree apart pending).nesting = pending.nesting + s.depth apart
  | ⟨h, ps, js, rs, as, ms, bs⟩, pending => by
      rw [tree, depth]
      cases selects : Statement.selects ⟨h, ps, js, rs, as, ms, bs⟩ with
      | false => exact Pending.nesting_join_single pending _
      | true =>
          rw [if_pos rfl, if_pos rfl, nesting_memberTree apart ms, Pending.nesting_join_single]
termination_by structural s => s

theorem nesting_memberTree (apart : Statement → Bool) :
    ∀ (ms : List UnionMember) (done : Compound),
      (memberTree apart done ms).nesting = done.nesting + depthAll apart ms
  | [], done => rfl
  | ⟨s, all⟩ :: others, done => by
      rw [memberTree, depthAll, nesting_memberTree apart others]
      cases apart s with
      | true =>
          rw [if_pos rfl, if_pos rfl, Compound.nesting, nesting_tree apart s,
            joints_tree apart s, Pending.nesting, Pending.joints]
          omega
      | false =>
          rw [if_neg (by decide), if_neg (by decide), nesting_tree apart s, Pending.nesting]
          omega
termination_by structural members => members

end

mutual

/-- Setting all members apart makes a tree deeper, unless those with a union are apart already. -/
theorem depth_le (apart : Statement → Bool) : ∀ s : Statement,
    s.depth apart ≤ s.depth (fun _ => true) ∧
      (s.depth (fun _ => true) ≤ s.depth apart → s.unionsApart apart = true)
  | ⟨h, ps, js, rs, as, ms, bs⟩ => by
      rw [depth, depth, unionsApart]
      cases selects : Statement.selects ⟨h, ps, js, rs, as, ms, bs⟩ with
      | false => exact ⟨Nat.le_refl _, fun _ => rfl⟩
      | true => exact depthAll_le apart ms
termination_by structural s => s

theorem depthAll_le (apart : Statement → Bool) : ∀ ms : List UnionMember,
    depthAll apart ms ≤ depthAll (fun _ => true) ms ∧
      (depthAll (fun _ => true) ms ≤ depthAll apart ms → membersApart apart ms = true)
  | [] => ⟨Nat.le_refl _, fun _ => rfl⟩
  | ⟨s, all⟩ :: others => by
      obtain ⟨inner, innerKept⟩ := depth_le apart s
      obtain ⟨rest, restKept⟩ := depthAll_le apart others
      rw [depthAll, depthAll, membersApart, if_pos rfl]
      cases set : apart s with
      | true =>
          rw [if_pos rfl]
          refine ⟨by omega, fun deep => ?_⟩
          rw [innerKept (by omega), restKept (by omega)]
          rfl
      | false =>
          rw [if_neg (by decide)]
          refine ⟨by omega, fun deep => ?_⟩
          -- Any member below `s` would be missing on the left.
          have alone : s.combines = false := combines_of_memberCount (by omega)
          rw [alone, innerKept (by omega), restKept (by omega)]
          rfl
termination_by structural members => members

end

/-- What is written is the tree of the statement if and only if no chain takes in another union. -/
theorem written_eq_compound_iff (s : Statement) :
    s.written = s.compound ↔ s.unionsApart (fun m => m.standsApart) = true := by
  constructor
  · intro same
    have deep : s.compound.nesting ≤ s.written.nesting :=
      Nat.le_of_eq (congrArg Compound.nesting same.symm)
    rw [compound, written, nesting_tree, nesting_tree] at deep
    exact (depth_le _ s).2 (by omega)
  · exact tree_of_unionsApart s none

end Statement

end SqlBuilder
