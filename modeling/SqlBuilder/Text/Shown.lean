import SqlBuilder.Text.Blank
import SqlBuilder.Text.Extending
import SqlBuilder.Text.Unassigned

/-!
# Characters that are shown as themselves

A character is shown as itself if it has a shape of its own.  Controls, blanks
other than the space, formatting and ignorable characters, characters for
private use, code points without a character, and marks that extend the
character before them have none.
-/

namespace SqlBuilder

namespace Text

/-- Control characters of the two control blocks (general category `Cc`). -/
def isControl (c : Char) : Bool :=
  c.toNat < 0x20 || (0x7f ≤ c.toNat && c.toNat < 0xa0)

/-- Characters that only direct how others are laid out (general category `Cf`). -/
def formatting : CodeTable where
  ranges := [
    (0xad, 0xad), (0x600, 0x605), (0x61c, 0x61c), (0x6dd, 0x6dd), (0x70f, 0x70f), (0x890, 0x891),
    (0x8e2, 0x8e2), (0x180e, 0x180e), (0x200b, 0x200f), (0x202a, 0x202e), (0x2060, 0x2064),
    (0x2066, 0x206f), (0xfeff, 0xfeff), (0xfff9, 0xfffb), (0x110bd, 0x110bd), (0x110cd, 0x110cd),
    (0x13430, 0x1343f), (0x1bca0, 0x1bca3), (0x1d173, 0x1d17a), (0xe0001, 0xe0001),
    (0xe0020, 0xe007f)]
  ascend := by decide

/-- Characters whose meaning is left to private agreement (general category `Co`). -/
def privateUse : CodeTable where
  ranges := [(0xe000, 0xf8ff), (0xf0000, 0xffffd), (0x100000, 0x10fffd)]
  ascend := by decide

/--
Characters that leave no trace where they are not supported, with the Unicode
property `Default_Ignorable_Code_Point`; the fillers of Hangul are among them.
-/
def ignorable : CodeTable where
  ranges := [
    (0xad, 0xad), (0x34f, 0x34f), (0x61c, 0x61c), (0x115f, 0x1160), (0x17b4, 0x17b5),
    (0x180b, 0x180f), (0x200b, 0x200f), (0x202a, 0x202e), (0x2060, 0x206f), (0x3164, 0x3164),
    (0xfe00, 0xfe0f), (0xfeff, 0xfeff), (0xffa0, 0xffa0), (0xfff0, 0xfff8), (0x1bca0, 0x1bca3),
    (0x1d173, 0x1d17a), (0xe0000, 0xe0fff)]
  ascend := by decide

/-- A blank that is not the space. -/
def isWideBlank (c : Char) : Bool :=
  isBlankChar c && c != ' '

/-- The tables of characters without a shape of their own. -/
def withoutShape : List CodeTable :=
  [formatting, ignorable, privateUse, unassigned, extending]

/-- Whether a character is shown as itself. -/
def isShown (c : Char) : Bool :=
  !(isControl c || isWideBlank c || withoutShape.any (·.holds c.toNat))

/-- A character is shown if it is in no range of the tables, no control and no wide blank. -/
theorem isShown_iff (c : Char) :
    isShown c = true ↔ isControl c = false ∧ isWideBlank c = false ∧
      ∀ table ∈ withoutShape, ∀ range ∈ table.ranges, ¬ (range.1 ≤ c.toNat ∧ c.toNat ≤ range.2) := by
  simp only [isShown, Bool.not_eq_true', Bool.or_eq_false_iff, List.any_eq_false,
    CodeTable.holds_iff, not_exists, not_and, and_assoc]

/-- The visible characters of ASCII are shown as themselves. -/
theorem isShown_visible {c : Char} (low : 0x21 ≤ c.toNat) (high : c.toNat ≤ 0x7e) :
    isShown c = true := by
  have apart : ∀ table ∈ withoutShape, ∀ range ∈ table.ranges, 0x7e < range.1 := by
    decide +kernel
  refine (isShown_iff c).mpr ⟨?_, ?_, fun table mem range inTable within => ?_⟩
  · simp only [isControl, Bool.or_eq_false_iff, Bool.and_eq_false_iff, decide_eq_false_iff_not]
    omega
  · rw [isWideBlank, isBlankChar_visible low high, Bool.false_and]
  · have behind := apart table mem range inTable
    omega

end Text

end SqlBuilder
