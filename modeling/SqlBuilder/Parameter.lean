import SqlBuilder.Text.Ascii

/-!
# Names of parameters

A parameter may be given with a leading colon, which is not part of its name.
Names that values refer to must have the form of a plain word.
-/

namespace SqlBuilder

namespace Parameter

/-- The name that is meant by a text: the text less one leading colon. -/
def name (given : String) : String :=
  match given.toList with
  | ':' :: cs => String.ofList cs
  | _ => given

/-- A word starts with a letter or the low line and goes on with these and digits. -/
def isWord : List Char → Bool
  | [] => false
  | c :: cs => Text.isNameStart c && cs.all Text.isNameChar

/-- The name has the form of a plain word. -/
def isValid (name : String) : Bool :=
  isWord name.toList

theorem isValid_iff (name : String) :
    isValid name = true ↔
      ∃ first rest, name.toList = first :: rest ∧ (first = '_' ∨ first.isAlpha = true) ∧
        ∀ c ∈ rest, c = '_' ∨ c.isAlphanum = true := by
  unfold isValid
  constructor
  · intro valid
    cases chars : name.toList with
    | nil => simp [chars, isWord] at valid
    | cons first rest =>
        simp only [chars, isWord, Text.isNameStart, Text.isNameChar, Bool.and_eq_true,
          Bool.or_eq_true, beq_iff_eq, List.all_eq_true] at valid
        exact ⟨first, rest, rfl, valid⟩
  · rintro ⟨first, rest, chars, valid⟩
    simp only [chars, isWord, Text.isNameStart, Text.isNameChar, Bool.and_eq_true,
      Bool.or_eq_true, beq_iff_eq, List.all_eq_true]
    exact valid

end Parameter

end SqlBuilder
