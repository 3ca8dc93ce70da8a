import SqlBuilder.Text.Shown

/-!
# Texts in descriptions

A description shows a text between double quotes.  Quotes and backslashes are
preceded by a backslash, the common control characters have a letter of their
own, and every other character without a shape of its own is shown by its code
point.
-/

namespace SqlBuilder

namespace Text

/-- A character as a description shows it. -/
def escapedChar (c : Char) : List Char :=
  if c == '\t' then ['\\', 't']
  else if c == '\n' then ['\\', 'n']
  else if c == '\r' then ['\\', 'r']
  else if c == '\x00' then ['\\', '0']
  else if c == '"' then ['\\', '"']
  else if c == '\\' then ['\\', '\\']
  else if isShown c then [c]
  else ['\\', 'u', '\x7b'] ++ Nat.toDigits 16 c.toNat ++ ['\x7d']

/-- Visible characters of ASCII are shown one by one. -/
theorem isShown_of_all_visible (cs : List Char)
    (visible : (cs.all fun c => 0x21 ≤ c.toNat && c.toNat ≤ 0x7e) = true) :
    ∀ c ∈ cs, isShown c = true := by
  intro c mem
  have between := List.all_eq_true.mp visible c mem
  simp only [Bool.and_eq_true, decide_eq_true_eq] at between
  exact isShown_visible between.1 between.2

/-- The digits of a code point are shown as themselves. -/
theorem isShown_of_mem_toDigits {n : Nat} {c : Char} (mem : c ∈ Nat.toDigits 16 n) :
    isShown c = true := by
  have shown (digit : Nat) (small : digit < 16) : isShown (Nat.digitChar digit) = true :=
    isShown_of_all_visible ((List.range 16).map Nat.digitChar) (by decide) _
      (List.mem_map_of_mem (List.mem_range.mpr small))
  induction n using Nat.strongRecOn with
  | ind n ih =>
      rw [Nat.toDigits_eq_if (by decide)] at mem
      split at mem
      · next small =>
          rw [List.mem_singleton.mp mem]
          exact shown n small
      · next large =>
          rcases List.mem_append.mp mem with leading | last
          · exact ih (n / 16) (by omega) leading
          · rw [List.mem_singleton.mp last]
            exact shown (n % 16) (Nat.mod_lt n (by decide))

/-- Whatever the character is, a description shows it by characters that are shown. -/
theorem isShown_escapedChar (c : Char) : ∀ d ∈ escapedChar c, isShown d = true := by
  have opening := isShown_of_all_visible ['\\', 'u', '\x7b'] (by decide)
  have closing := isShown_of_all_visible ['\x7d'] (by decide)
  unfold escapedChar
  -- a letter of its own, a quote or a backslash
  iterate 6 (split; · exact isShown_of_all_visible _ (by decide))
  split
  · next shown => exact List.forall_mem_singleton.mpr shown
  · intro d mem
    rcases List.mem_append.mp mem with front | last
    · rcases List.mem_append.mp front with first | digit
      · exact opening d first
      · exact isShown_of_mem_toDigits digit
    · exact closing d last

/-- A text between double quotes, as a description shows it. -/
def escaped (text : String) : String :=
  "\"" ++ String.ofList (text.toList.flatMap escapedChar) ++ "\""

/-- A description of a text, whatever the text holds, is shown character by character. -/
theorem isShown_escaped (text : String) : ∀ c ∈ (escaped text).toList, isShown c = true := by
  have quote := isShown_of_all_visible "\"".toList (by decide)
  intro c mem
  rw [escaped, String.toList_append, String.toList_append] at mem
  rcases List.mem_append.mp mem with front | closing
  · rcases List.mem_append.mp front with opening | inner
    · exact quote c opening
    · rw [String.toList_ofList] at inner
      obtain ⟨original, -, shown⟩ := List.mem_flatMap.mp inner
      exact isShown_escapedChar original c shown
  · exact quote c closing

end Text

end SqlBuilder
