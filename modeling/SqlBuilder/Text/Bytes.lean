/-!
# Texts cut to a number of bytes

Lengths are counted in bytes of UTF-8.  A text that is too long is cut between
two characters: the cut starts at the byte position that is asked for and backs
off until it is no longer within a character.
-/

namespace SqlBuilder

namespace Text

/-- The last place between two characters, or at an end, that is not behind a byte position. -/
def lastBoundary (text : String) : Nat → Nat
  | 0 => 0
  | n + 1 =>
    if String.Pos.Raw.isValid text ⟨n + 1⟩ then n + 1 else lastBoundary text n

/-- Backing off goes to the left only. -/
theorem lastBoundary_le (text : String) (limit : Nat) : lastBoundary text limit ≤ limit := by
  induction limit with
  | zero => exact Nat.le_refl 0
  | succ n ih =>
      unfold lastBoundary
      split
      · exact Nat.le_refl (n + 1)
      · exact Nat.le_succ_of_le ih

/-- Backing off ends at a place where the text can be cut. -/
theorem isValid_lastBoundary (text : String) (limit : Nat) :
    String.Pos.Raw.IsValid text ⟨lastBoundary text limit⟩ := by
  induction limit with
  | zero => exact String.Pos.Raw.isValid_zero
  | succ n ih =>
      unfold lastBoundary
      split
      · next valid => exact String.Pos.Raw.isValid_eq_true_iff.mp valid
      · exact ih

/-- Backing off passes over no place where the text can be cut. -/
theorem le_lastBoundary {text : String} {place limit : Nat}
    (valid : String.Pos.Raw.IsValid text ⟨place⟩) (within : place ≤ limit) :
    place ≤ lastBoundary text limit := by
  induction limit with
  | zero => exact within
  | succ n ih =>
      unfold lastBoundary
      split
      · exact within
      · next passed =>
          have other : place ≠ n + 1 := by
            rintro rfl
            exact passed (String.Pos.Raw.isValid_eq_true_iff.mpr valid)
          exact ih (by omega)

/-- A text of at most `limit` bytes as it is, of any other the part in front of the last boundary. -/
def cut (limit : Nat) (text : String) : String :=
  if text.utf8ByteSize ≤ limit then text
  else (text.sliceTo (text.pos ⟨lastBoundary text limit⟩ (isValid_lastBoundary text limit))).copy

/-- A text of at most `limit` bytes as it is, any other cut and marked by three dots. -/
def shorten (limit : Nat) (text : String) : String :=
  if text.utf8ByteSize ≤ limit then text else cut limit text ++ "..."

end Text

end SqlBuilder
