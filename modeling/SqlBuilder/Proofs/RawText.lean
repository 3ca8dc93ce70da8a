import SqlBuilder.Statement.Clauses
import Mathlib.Data.List.Basic

/-!
# Raw text

A statement that is taken as text is searched for words that write and then
trimmed at its end.  Words are found wherever they stand, in any mix of ASCII
case.  Trimming leaves the longest prefix that ends well, and no word stands
in a prefix that does not stand in the whole.
-/

namespace SqlBuilder

namespace Text

/-- A lower-case word stands somewhere in the text, in any mix of ASCII case. -/
def Contains (text word : String) : Prop :=
  ∃ part, part <:+: text.toList ∧ part.map Char.toLower = word.toList

/-- The search finds a word exactly if it stands somewhere in the text. -/
theorem mentions_iff (text word : String) : mentions text word = true ↔ Contains text word := by
  unfold mentions Contains
  rw [occursIn_iff, List.infix_map_iff]
  constructor
  · rintro ⟨part, stands, same⟩
    exact ⟨part, stands, same.symm⟩
  · rintro ⟨part, stands, same⟩
    exact ⟨part, stands, same.symm⟩

/-- The longest prefix of a list that does not end in what a test holds of. -/
structure IsTrimmed (test : Char → Bool) (cs kept : List Char) : Prop where
  start : kept <+: cs
  ends : ∀ c ∈ kept.getLast?, test c = false
  longest : ∀ other, other <+: cs → (∀ c ∈ other.getLast?, test c = false) → other <+: kept

/-- What is left after dropping at the end ends well. -/
theorem dropTrailing_ends (test : Char → Bool) (cs : List Char) :
    ∀ c ∈ (dropTrailing test cs).getLast?, test c = false := by
  intro c last
  unfold dropTrailing at last
  rw [List.getLast?_reverse] at last
  have head := List.head?_dropWhile_not test cs.reverse
  rw [Option.mem_def.mp last] at head
  simpa using head

/-- A prefix that ends well ends before what the test holds of. -/
theorem prefix_of_ends {test : Char → Bool} {kept dropped other : List Char}
    (all : dropped.all test = true) (short : other <+: kept ++ dropped)
    (ends : ∀ c ∈ other.getLast?, test c = false) : other <+: kept := by
  rcases List.prefix_or_prefix_of_prefix short (List.prefix_append kept dropped) with
    within | ⟨rest, rfl⟩
  · exact within
  · have inDropped : rest <+: dropped := (List.prefix_append_right_inj kept).mp short
    rcases List.eq_nil_or_concat rest with rfl | ⟨front, last, rfl⟩
    · simp only [List.append_nil, List.prefix_rfl]
    · have mem : last ∈ dropped := by
        apply inDropped.subset
        rw [List.concat_eq_append]
        exact List.mem_append_right front List.mem_cons_self
      have good : test last = false := by
        apply ends
        rw [List.concat_eq_append, ← List.append_assoc, List.getLast?_concat]
        rfl
      rw [List.all_eq_true.mp all last mem] at good
      cases good

/-- What is left after dropping at the end is the longest prefix that ends well. -/
theorem isTrimmed_dropTrailing (test : Char → Bool) (cs : List Char) :
    IsTrimmed test cs (dropTrailing test cs) := by
  obtain ⟨dropped, split, all⟩ := dropTrailing_append test cs
  refine ⟨⟨dropped, split.symm⟩, dropTrailing_ends test cs, ?_⟩
  intro other short ends
  rw [split] at short
  exact prefix_of_ends all short ends

/-- What stands in a prefix stands in the whole. -/
theorem Contains.of_prefix {text whole word : String} (start : text.toList <+: whole.toList)
    (contains : Contains text word) : Contains whole word := by
  obtain ⟨part, stands, same⟩ := contains
  exact ⟨part, stands.trans start.isInfix, same⟩

end Text

/-- A word that writes stands in the text, in any mix of ASCII case. -/
def HasWriteWord (text : String) : Prop :=
  ∃ word ∈ ["insert", "update", "drop", "delete", "create", "alter"], Text.Contains text word

namespace Statement

/-- The search for words that write finds one if there is one. -/
theorem find?_writeWords (sql : String) :
    (∃ word, writeWords.find? (Text.mentions sql) = some word) ↔ HasWriteWord sql := by
  constructor
  · rintro ⟨word, found⟩
    exact ⟨word, List.mem_of_find?_eq_some found,
      (Text.mentions_iff sql word).mp (List.find?_some found)⟩
  · rintro ⟨word, mem, contains⟩
    apply Option.isSome_iff_exists.mp
    rw [List.find?_isSome]
    exact ⟨word, mem, (Text.mentions_iff sql word).mpr contains⟩

/-- Raw text is stored as the longest prefix that does not end in a semicolon or a blank. -/
theorem isTrimmed_trimRaw (sql : String) :
    Text.IsTrimmed isRawEnd sql.toList (trimRaw sql).toList := by
  unfold trimRaw
  rw [String.toList_ofList]
  exact Text.isTrimmed_dropTrailing isRawEnd sql.toList

/-- Trimming brings no word back. -/
theorem hasWriteWord_of_trimRaw {sql : String} (has : HasWriteWord (trimRaw sql)) :
    HasWriteWord sql := by
  obtain ⟨word, mem, contains⟩ := has
  exact ⟨word, mem, contains.of_prefix (isTrimmed_trimRaw sql).start⟩

end Statement

end SqlBuilder
