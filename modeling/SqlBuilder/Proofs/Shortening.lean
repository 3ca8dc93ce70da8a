import SqlBuilder.Hook

/-!
# Statements cut for the log

The places at which a text can be cut are the sizes of its leading parts.  A
character takes at most four bytes, so one of any four byte positions in a row
within a text is such a place, and a cut that backs off from the limit goes
back three bytes at most.  What is in front of it is the longest leading part of
whole characters that fits; the log shows it with three dots behind it.
-/

namespace SqlBuilder

namespace Text

/-! ## Leading parts -/

/-- The text that joins a leading part and the characters behind it. -/
theorem eq_append_of_leading {text part : String} {rest : List Char}
    (joined : part.toList ++ rest = text.toList) : text = part ++ String.ofList rest := by
  apply String.toList_inj.mp
  rw [String.toList_append, String.toList_ofList, joined]

/-- A text can be cut at the sizes of its leading parts and nowhere else. -/
theorem isValid_iff_leading {text : String} {place : Nat} :
    String.Pos.Raw.IsValid text ⟨place⟩ ↔
      ∃ part : String, part.toList <+: text.toList ∧ part.utf8ByteSize = place := by
  rw [String.Pos.Raw.isValid_iff_exists_append]
  constructor
  · rintro ⟨part, rest, rfl, here⟩
    refine ⟨part, ?_, (congrArg String.Pos.Raw.byteIdx here).symm⟩
    rw [String.toList_append]
    exact List.prefix_append _ _
  · rintro ⟨part, ⟨rest, joined⟩, rfl⟩
    exact ⟨part, String.ofList rest, eq_append_of_leading joined, rfl⟩

/-- Of two leading parts the one with fewer bytes leads the other. -/
theorem leading_of_size_le {text left right : String} (leadsLeft : left.toList <+: text.toList)
    (leadsRight : right.toList <+: text.toList) (smaller : left.utf8ByteSize ≤ right.utf8ByteSize) :
    left.toList <+: right.toList := by
  rcases List.prefix_or_prefix_of_prefix leadsLeft leadsRight with leads | ⟨rest, joined⟩
  · exact leads
  · have longer := eq_append_of_leading joined
    have nothing : String.ofList rest = "" := by
      apply String.utf8ByteSize_eq_zero_iff.mp
      rw [longer, String.utf8ByteSize_append] at smaller
      omega
    have same : left = right := by rw [longer, nothing, String.append_empty]
    exact same ▸ List.prefix_rfl

/-- The bytes of a leading part are the first bytes of the text. -/
theorem bytes_of_leading {text part : String} (leads : part.toList <+: text.toList) :
    part.toByteArray = text.toByteArray.extract 0 part.utf8ByteSize := by
  obtain ⟨rest, joined⟩ := leads
  rw [eq_append_of_leading joined, String.toByteArray_append,
    ByteArray.extract_append_eq_left String.size_toByteArray.symm]

/-- In front of the end of a text the next place to cut it is at most four bytes away. -/
theorem exists_isValid_behind {text : String} {place : Nat}
    (valid : String.Pos.Raw.IsValid text ⟨place⟩) (inside : place < text.utf8ByteSize) :
    ∃ next, String.Pos.Raw.IsValid text ⟨next⟩ ∧ place < next ∧ next ≤ place + 4 := by
  obtain ⟨part, ⟨rest, joined⟩, rfl⟩ := isValid_iff_leading.mp valid
  cases rest with
  | nil =>
      rw [List.append_nil, String.toList_inj] at joined
      rw [joined] at inside
      exact absurd inside (Nat.lt_irrefl _)
  | cons c rest =>
      have leads : (part.push c).toList <+: text.toList := by
        refine ⟨rest, ?_⟩
        rw [String.toList_push, List.append_assoc, List.singleton_append, joined]
      refine ⟨(part.push c).utf8ByteSize, isValid_iff_leading.mpr ⟨_, leads, rfl⟩, ?_, ?_⟩
      · rw [String.utf8ByteSize_push]
        exact Nat.lt_add_of_pos_right c.utf8Size_pos
      · rw [String.utf8ByteSize_push]
        exact Nat.add_le_add_left c.utf8Size_le_four _

/-! ## The longest one that fits -/

/-- The longest leading part of a text, in whole characters, among those of at most `limit` bytes. -/
structure LongestWithin (limit : Nat) (text part : String) : Prop where
  leading : part.toList <+: text.toList
  fits : part.utf8ByteSize ≤ limit
  longest : ∀ other : String, other.toList <+: text.toList → other.utf8ByteSize ≤ limit →
    other.toList <+: part.toList

theorem LongestWithin.unique {limit : Nat} {text left right : String}
    (isLeft : LongestWithin limit text left) (isRight : LongestWithin limit text right) :
    left = right := by
  have there := isRight.longest left isLeft.leading isLeft.fits
  have back := isLeft.longest right isRight.leading isRight.fits
  exact String.toList_inj.mp (there.eq_of_length_le back.length_le)

theorem cut_leading (limit : Nat) (text : String) : (cut limit text).toList <+: text.toList := by
  unfold cut
  split
  · exact List.prefix_rfl
  · have splits := (text.pos _ (isValid_lastBoundary text limit)).splits.eq_append
    have characters := congrArg String.toList splits
    rw [String.toList_append] at characters
    exact ⟨_, characters.symm⟩

/-- A cut ends where backing off from the limit ends, also if the text is kept whole. -/
theorem utf8ByteSize_cut (limit : Nat) (text : String) :
    (cut limit text).utf8ByteSize = lastBoundary text limit := by
  unfold cut
  split
  · next short =>
      have end_ : String.Pos.Raw.IsValid text ⟨text.utf8ByteSize⟩ :=
        String.Pos.Raw.isValid_rawEndPos
      exact Nat.le_antisymm (le_lastBoundary end_ short)
        (isValid_lastBoundary text limit).le_utf8ByteSize
  · simp

theorem longestWithin_cut (limit : Nat) (text : String) :
    LongestWithin limit text (cut limit text) where
  leading := cut_leading limit text
  fits := by
    rw [utf8ByteSize_cut]
    exact lastBoundary_le text limit
  longest := by
    intro other leads fits
    refine leading_of_size_le leads (cut_leading limit text) ?_
    rw [utf8ByteSize_cut]
    exact le_lastBoundary (isValid_iff_leading.mpr ⟨other, leads, rfl⟩) fits

theorem cut_eq_iff {limit : Nat} {text part : String} :
    cut limit text = part ↔ LongestWithin limit text part := by
  constructor
  · rintro rfl
    exact longestWithin_cut limit text
  · intro longest
    exact (longestWithin_cut limit text).unique longest

/-- Backing off within a text goes back three bytes at most. -/
theorem le_lastBoundary_add_three {text : String} {limit : Nat} (long : limit < text.utf8ByteSize) :
    limit ≤ lastBoundary text limit + 3 := by
  have back := lastBoundary_le text limit
  obtain ⟨next, valid, behind, near⟩ :=
    exists_isValid_behind (isValid_lastBoundary text limit) (by omega)
  rcases Nat.lt_or_ge limit next with ahead | within
  · omega
  · have passed := le_lastBoundary valid within
    omega

end Text

/--
A statement is cut behind the longest leading part of whole characters that
takes no more bytes than the limit.  So the cut is at a place between two
characters, the last one up to the limit, a statement that fits is not cut, and
at most three bytes are given up of any other.  The log shows a statement that
fits, or for which no limit is set, as it is, and any other as this part with
three dots behind it.
-/
theorem LogSettings.shown_cut_between_characters (sql : String) (limit : Nat) :
    let part := Text.cut limit sql
    let place := part.utf8ByteSize
    (∀ text, part = text ↔ Text.LongestWithin limit sql text) ∧
    part.toByteArray = sql.toByteArray.extract 0 place ∧
    String.Pos.Raw.IsValid sql ⟨place⟩ ∧
    (∀ other ≤ limit, String.Pos.Raw.IsValid sql ⟨other⟩ → other ≤ place) ∧
    (sql.utf8ByteSize ≤ limit → part = sql) ∧
    (limit < sql.utf8ByteSize → limit ≤ place + 3) ∧
    ∀ settings : LogSettings,
      (settings.maxBytes = none → settings.shown sql = sql) ∧
      (settings.maxBytes = some limit →
        settings.shown sql = if sql.utf8ByteSize ≤ limit then sql else part ++ "...") := by
  intro part place
  have size : place = Text.lastBoundary sql limit := Text.utf8ByteSize_cut limit sql
  refine ⟨fun text => Text.cut_eq_iff, Text.bytes_of_leading (Text.cut_leading limit sql), ?_, ?_,
    fun short => if_pos short, ?_, fun settings => ⟨?_, ?_⟩⟩
  · rw [size]
    exact Text.isValid_lastBoundary sql limit
  · intro other within valid
    rw [size]
    exact Text.le_lastBoundary valid within
  · intro long
    rw [size]
    exact Text.le_lastBoundary_add_three long
  · intro unlimited
    rw [shown, unlimited]
  · intro limited
    rw [shown, limited]
    rfl

/-- Three of the four bytes of the last character fit, and all three are given up. -/
theorem LogSettings.shown_cut_between_characters_widest :
    let sql := "aé€😀"
    9 < sql.utf8ByteSize ∧ Text.LongestWithin 9 sql "aé€" ∧
      (Text.cut 9 sql).utf8ByteSize + 3 = 9 ∧
      LogSettings.shown { maxBytes := some 9 } sql = "aé€..." := by
  intro sql
  have long : 9 < sql.utf8ByteSize := by decide
  have part : Text.cut 9 sql = "aé€" := by decide
  obtain ⟨longest, -, -, -, -, -, logged⟩ := shown_cut_between_characters sql 9
  refine ⟨long, (longest "aé€").mp part, ?_, ?_⟩
  · rw [part]
    decide
  · rw [(logged { maxBytes := some 9 }).2 rfl, if_neg (Nat.not_le.mpr long), part]
    decide

end SqlBuilder
