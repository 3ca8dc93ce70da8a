import SqlBuilder.Text.CodeTable

/-!
# Blank characters

The blank characters are those with the Unicode property `White_Space`.  A
text is trimmed by dropping blank characters at its ends, and it is blank when
nothing is left.
-/

namespace SqlBuilder

namespace Text

/-- The blank characters. -/
def blank : CodeTable where
  ranges := [(0x9, 0xd), (0x20, 0x20), (0x85, 0x85), (0xa0, 0xa0), (0x1680, 0x1680),
    (0x2000, 0x200a), (0x2028, 0x2029), (0x202f, 0x202f), (0x205f, 0x205f), (0x3000, 0x3000)]
  ascend := by decide

/-- Whether a character has the property `White_Space`. -/
def isBlankChar (c : Char) : Bool :=
  blank.holds c.toNat

/-- Drop the trailing characters that satisfy a test. -/
def dropTrailing (test : Char → Bool) (cs : List Char) : List Char :=
  (cs.reverse.dropWhile test).reverse

/-- Drop the blank characters at both ends. -/
def trimmed (cs : List Char) : List Char :=
  dropTrailing isBlankChar (cs.dropWhile isBlankChar)

/-- The text without the blank characters at its ends. -/
def trim (text : String) : String :=
  String.ofList (trimmed text.toList)

/-- Whether a text holds blank characters only. -/
def isBlank (text : String) : Bool :=
  text.toList.all isBlankChar

/-- The blank characters are those in the ranges of the table. -/
theorem isBlankChar_iff (c : Char) :
    isBlankChar c = true ↔ ∃ range ∈ blank.ranges, range.1 ≤ c.toNat ∧ c.toNat ≤ range.2 :=
  blank.holds_iff c.toNat

/-- The visible characters of ASCII are not blank. -/
theorem isBlankChar_visible {c : Char} (low : 0x21 ≤ c.toNat) (high : c.toNat ≤ 0x7e) :
    isBlankChar c = false := by
  have apart : ∀ range ∈ blank.ranges, range.2 < 0x21 ∨ 0x7e < range.1 := by decide
  rw [Bool.eq_false_iff, ne_eq, isBlankChar_iff]
  rintro ⟨range, mem, starts, ends⟩
  rcases apart range mem with before | behind <;> omega

/-- What is dropped at the end satisfies the test. -/
theorem dropTrailing_append (test : Char → Bool) (cs : List Char) :
    ∃ dropped, cs = dropTrailing test cs ++ dropped ∧ dropped.all test = true := by
  refine ⟨(cs.reverse.takeWhile test).reverse, ?_, ?_⟩
  · rw [dropTrailing, ← List.reverse_append, List.takeWhile_append_dropWhile, List.reverse_reverse]
  · rw [List.all_reverse, List.all_takeWhile]

end Text

end SqlBuilder
