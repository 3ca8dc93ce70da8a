/-!
# Tables of code points

A property of characters is given by a table of code points: inclusive ranges
in ascending order with gaps between them.  A look-up ends at the first range
that starts behind the code point, and misses nothing in this way because the
ranges ascend.
-/

namespace SqlBuilder

namespace Text

namespace CodeTable

/-- No range is empty, none starts below `bound`, and each ends before a gap. -/
def ascends (bound : Nat) : List (Nat × Nat) → Bool
  | [] => true
  | (low, high) :: rest => bound ≤ low && low ≤ high && ascends (high + 2) rest

/-- Whether a code point lies in one of some ascending ranges. -/
def lookUp : List (Nat × Nat) → Nat → Bool
  | [], _ => false
  | (low, high) :: rest, n => low ≤ n && (n ≤ high || lookUp rest n)

/-- All of some ascending ranges start at the bound or above. -/
theorem le_of_ascends {bound : Nat} {ranges : List (Nat × Nat)} {range : Nat × Nat}
    (h : ascends bound ranges = true) (member : range ∈ ranges) : bound ≤ range.1 := by
  induction ranges generalizing bound with
  | nil => cases member
  | cons first rest ih =>
      simp only [ascends, Bool.and_eq_true, decide_eq_true_eq] at h
      cases member with
      | head => exact h.1.1
      | tail _ member =>
          have later := ih h.2 member
          omega

/-- A look-up in ascending ranges finds every code point of them. -/
theorem lookUp_iff {bound : Nat} {ranges : List (Nat × Nat)} (h : ascends bound ranges = true)
    (n : Nat) : lookUp ranges n = true ↔ ∃ range ∈ ranges, range.1 ≤ n ∧ n ≤ range.2 := by
  induction ranges generalizing bound with
  | nil => simp [lookUp]
  | cons first rest ih =>
      simp only [ascends, Bool.and_eq_true, decide_eq_true_eq] at h
      simp only [lookUp, Bool.and_eq_true, Bool.or_eq_true, decide_eq_true_eq, ih h.2,
        List.mem_cons, exists_eq_or_imp]
      constructor
      · rintro ⟨low, high | found⟩
        · exact .inl ⟨low, high⟩
        · exact .inr found
      · rintro (⟨low, high⟩ | ⟨range, member, low, high⟩)
        · exact ⟨low, .inl high⟩
        · have later := le_of_ascends h.2 member
          exact ⟨by omega, .inr ⟨range, member, low, high⟩⟩

end CodeTable

/-- Inclusive ranges of code points that ascend. -/
structure CodeTable where
  ranges : List (Nat × Nat)
  ascend : CodeTable.ascends 0 ranges = true

namespace CodeTable

/-- Whether a code point lies in a range of the table. -/
def holds (table : CodeTable) (n : Nat) : Bool :=
  lookUp table.ranges n

/-- A look-up finds every code point of the ranges, and no other. -/
theorem holds_iff (table : CodeTable) (n : Nat) :
    table.holds n = true ↔ ∃ range ∈ table.ranges, range.1 ≤ n ∧ n ≤ range.2 :=
  lookUp_iff table.ascend n

end CodeTable

end Text

end SqlBuilder
