import SqlBuilder.Text.Blank

/-!
# Comparison without regard to letter case

Letters are folded in the ASCII range only; every other character stands for
itself.  Keywords, operators and dialect names are compared in this way.
-/

namespace SqlBuilder

namespace Text

/-- The text with its ASCII capitals lowered. -/
def lower (text : String) : String :=
  String.ofList (text.toList.map Char.toLower)

/-- Whether two texts agree up to the case of ASCII letters. -/
def equalFolded (left right : String) : Bool :=
  left.toList.map Char.toLower == right.toList.map Char.toLower

/-- Whether a list of characters occurs somewhere within another. -/
def occursIn (part : List Char) : List Char → Bool
  | [] => part.isEmpty
  | c :: cs => part.isPrefixOf (c :: cs) || occursIn part cs

/-- Whether a lower-case word occurs in a text in any mix of ASCII case. -/
def mentions (text word : String) : Bool :=
  occursIn word.toList (text.toList.map Char.toLower)

/-- A letter, or the low line. -/
def isNameStart (c : Char) : Bool :=
  c == '_' || c.isAlpha

/-- A letter, a digit, or the low line. -/
def isNameChar (c : Char) : Bool :=
  c == '_' || c.isAlphanum

/-- To occur within a list is to be a contiguous part of it. -/
theorem occursIn_iff (part text : List Char) :
    occursIn part text = true ↔ part <:+: text := by
  induction text with
  | nil => simp [occursIn]
  | cons c cs ih => simp [occursIn, ih, List.infix_cons_iff]

end Text

end SqlBuilder
