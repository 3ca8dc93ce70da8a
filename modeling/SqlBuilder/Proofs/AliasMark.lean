import SqlBuilder.Ident.Wrap
import SqlBuilder.Proofs.RawText
import SqlBuilder.Proofs.Spelling

/-!
# Where an alias begins

A text is split into a name and its alias at the last `as`, in any case, that
stands between two blanks.  Within an identifier blanks stand in quotes only,
so the text in front of such a mark has a quote left open and is no identifier
itself.
-/

namespace SqlBuilder

/-! ## Trimmed text -/

namespace Text

/-- There is no blank at either end. -/
structure Tight (cs : List Char) : Prop where
  starts : ∀ c ∈ cs.head?, isBlankChar c = false
  ends : ∀ c ∈ cs.getLast?, isBlankChar c = false

theorem dropTrailing_of_ends {test : Char → Bool} {cs : List Char}
    (ends : ∀ c ∈ cs.getLast?, test c = false) : dropTrailing test cs = cs := by
  rcases List.eq_nil_or_concat cs with rfl | ⟨front, last, rfl⟩
  · rfl
  · have kept : test last = false := ends last (by simp)
    simp [dropTrailing, kept]

theorem trimmed_of_tight {cs : List Char} (tight : Tight cs) : trimmed cs = cs := by
  have front : cs.dropWhile isBlankChar = cs := by
    cases cs with
    | nil => rfl
    | cons c cs =>
        apply List.dropWhile_cons_of_neg
        rw [tight.starts c rfl]
        exact Bool.false_ne_true
  rw [trimmed, front, dropTrailing_of_ends tight.ends]

theorem tight_trimmed (cs : List Char) : Tight (trimmed cs) := by
  refine ⟨fun c first => ?_, dropTrailing_ends isBlankChar (cs.dropWhile isBlankChar)⟩
  obtain ⟨dropped, split, _⟩ := dropTrailing_append isBlankChar (cs.dropWhile isBlankChar)
  have head := List.head?_dropWhile_not isBlankChar cs
  obtain ⟨rest, kept⟩ := List.head?_eq_some_iff.mp (Option.mem_def.mp first)
  change dropTrailing isBlankChar (cs.dropWhile isBlankChar) = c :: rest at kept
  rw [split, kept] at head
  exact head

/-- Trimming drops blanks on both sides. -/
theorem trimmed_split (cs : List Char) :
    ∃ lead trail, cs = lead ++ trimmed cs ++ trail ∧ (∀ c ∈ lead, isBlankChar c = true) ∧
      ∀ c ∈ trail, isBlankChar c = true := by
  obtain ⟨trail, split, blank⟩ := dropTrailing_append isBlankChar (cs.dropWhile isBlankChar)
  refine ⟨cs.takeWhile isBlankChar, trail, ?_, ?_, List.all_eq_true.mp blank⟩
  · rw [List.append_assoc, trimmed, ← split, List.takeWhile_append_dropWhile]
  · exact List.all_eq_true.mp List.all_takeWhile

/-- Where a text does not end with a blank, trimming drops blanks in front only. -/
theorem trimmed_front {cs : List Char} (ends : ∀ c ∈ cs.getLast?, isBlankChar c = false) :
    ∃ lead, cs = lead ++ trimmed cs ∧ ∀ c ∈ lead, isBlankChar c = true := by
  obtain ⟨lead, trail, split, leadBlank, trailBlank⟩ := trimmed_split cs
  rcases List.eq_nil_or_concat trail with rfl | ⟨front, last, rfl⟩
  · exact ⟨lead, by rwa [List.append_nil] at split, leadBlank⟩
  · have kept : isBlankChar last = false := by
      apply ends
      rw [split]
      simp
    rw [trailBlank last (by simp)] at kept
    cases kept

theorem count_quote_of_blank {cs : List Char} (blank : ∀ c ∈ cs, isBlankChar c = true) :
    cs.count '"' = 0 := by
  refine List.count_eq_zero.mpr fun mem => ?_
  cases blank '"' mem

/-- Trimming drops no quote. -/
theorem count_quote_trimmed (cs : List Char) : (trimmed cs).count '"' = cs.count '"' := by
  obtain ⟨lead, trail, split, leadBlank, trailBlank⟩ := trimmed_split cs
  have whole := congrArg (List.count '"') split
  rw [List.count_append, List.count_append, count_quote_of_blank leadBlank,
    count_quote_of_blank trailBlank] at whole
  omega

theorem trim_of_tight {text : String} (tight : Tight text.toList) : trim text = text := by
  rw [trim, trimmed_of_tight tight, String.ofList_toList]

theorem tight_trim (text : String) : Tight (trim text).toList := by
  rw [trim, String.toList_ofList]
  exact tight_trimmed text.toList

theorem trim_trim (text : String) : trim (trim text) = trim text :=
  trim_of_tight (tight_trim text)

/-- What starts without a blank starts the same when it is trimmed. -/
theorem trimmed_cons {c : Char} (kept : isBlankChar c = false) (cs : List Char) :
    ∃ rest, trimmed (c :: cs) = c :: rest := by
  obtain ⟨lead, trail, split, leadBlank, trailBlank⟩ := trimmed_split (c :: cs)
  have notLead : c ∉ lead := fun mem => Bool.false_ne_true (kept ▸ leadBlank c mem)
  have notTrail : c ∉ trail := fun mem => Bool.false_ne_true (kept ▸ trailBlank c mem)
  cases lead with
  | cons first lead => exact absurd ((List.cons.inj split).1 ▸ List.mem_cons_self) notLead
  | nil =>
      cases middle : trimmed (c :: cs) with
      | cons first rest =>
          rw [middle] at split
          exact ⟨rest, by rw [(List.cons.inj split).1]⟩
      | nil =>
          rw [middle, List.append_nil, List.nil_append] at split
          exact absurd (split ▸ List.mem_cons_self) notTrail

/-- What ends without a blank ends the same when it is trimmed. -/
theorem trimmed_concat {c : Char} (kept : isBlankChar c = false) (cs : List Char) :
    ∃ front, trimmed (cs ++ [c]) = front ++ [c] := by
  have ends : ∀ d ∈ (cs ++ [c]).getLast?, isBlankChar d = false := by
    intro d last
    rw [List.getLast?_concat] at last
    cases last
    exact kept
  obtain ⟨lead, split, leadBlank⟩ := trimmed_front ends
  rcases List.eq_nil_or_concat (trimmed (cs ++ [c])) with none | ⟨front, last, some⟩
  · rw [none, List.append_nil] at split
    have dropped := leadBlank c (split ▸ List.mem_append_right cs List.mem_cons_self)
    rw [kept] at dropped
    cases dropped
  · rw [some, List.concat_eq_append, ← List.append_assoc] at split
    obtain rfl : c = last := (List.append_singleton_inj.mp split).2
    exact ⟨front, by rw [some, List.concat_eq_append]⟩

/-- A letter that is lowered to another is a capital. -/
theorem eq_or_of_toLower {c d : Char} (lower : c.toLower = d) :
    c = d ∨ (65 ≤ c.toNat ∧ c.toNat + 32 = d.toNat) := by
  unfold Char.toLower at lower
  split at lower
  · next capital =>
      right
      subst lower
      have low : 65 ≤ c.val.toNat := capital.1
      have high : c.val.toNat ≤ 90 := capital.2
      refine ⟨low, ?_⟩
      change c.val.toNat + 32 = (c.val + 32).toNat
      have step : (32 : UInt32).toNat = 32 := rfl
      rw [UInt32.toNat_add]
      omega
  · exact .inl lower

end Text

/-! ## Marks of aliases -/

/-- `as` in any case between two blanks. -/
def AliasMark (mark : List Char) : Prop :=
  mark.map Char.toLower = [' ', 'a', 's', ' ']

namespace AliasMark

theorem eq_blank {c : Char} (lower : c.toLower = ' ') : c = ' ' := by
  rcases Text.eq_or_of_toLower lower with same | ⟨low, high⟩
  · exact same
  · have blank : (' ' : Char).toNat = 32 := rfl
    omega

/-- A mark is two letters between two blanks. -/
theorem letters {mark : List Char} (isMark : AliasMark mark) :
    ∃ a s, mark = [' ', a, s, ' '] ∧ a.toLower = 'a' ∧ s.toLower = 's' := by
  obtain ⟨first, _, rfl, blank, isMark⟩ := List.map_eq_cons_iff.mp isMark
  obtain ⟨a, _, rfl, isA, isMark⟩ := List.map_eq_cons_iff.mp isMark
  obtain ⟨s, _, rfl, isS, isMark⟩ := List.map_eq_cons_iff.mp isMark
  obtain ⟨last, _, rfl, blank', isMark⟩ := List.map_eq_cons_iff.mp isMark
  rw [List.map_eq_nil_iff] at isMark
  subst isMark
  exact ⟨a, s, by rw [eq_blank blank, eq_blank blank'], isA, isS⟩

/-- The letters of a mark are not blank. -/
theorem letter_visible {c d : Char} (lower : c.toLower = d) (low : 97 ≤ d.toNat)
    (high : d.toNat ≤ 122) : Text.isBlankChar c = false := by
  have visible : 65 ≤ c.toNat ∧ c.toNat ≤ 122 := by
    rcases Text.eq_or_of_toLower lower with rfl | ⟨least, shift⟩ <;> omega
  exact Text.isBlankChar_visible (by omega) (by omega)

/-- A mark holds nothing but its letters and blanks. -/
theorem not_mem {mark : List Char} (isMark : AliasMark mark) {c : Char}
    (other : c.toLower ∉ [' ', 'a', 's', ' ']) : c ∉ mark := by
  intro mem
  have lowered := List.mem_map_of_mem (f := Char.toLower) mem
  rw [isMark] at lowered
  exact other lowered

theorem count_quote {mark : List Char} (isMark : AliasMark mark) : mark.count '"' = 0 :=
  List.count_eq_zero.mpr (isMark.not_mem (by decide))

end AliasMark

namespace Ident

theorem isAliasMark_iff {cs : List Char} :
    isAliasMark cs = true ↔ ∃ mark rest, cs = mark ++ rest ∧ AliasMark mark := by
  fun_cases isAliasMark cs with
  | case1 a s rest =>
      rw [Bool.and_eq_true, beq_iff_eq, beq_iff_eq]
      constructor
      · rintro ⟨isA, isS⟩
        refine ⟨[' ', a, s, ' '], rest, rfl, ?_⟩
        simp [AliasMark, isA, isS]
      · rintro ⟨mark, behind, split, isMark⟩
        obtain ⟨a', s', rfl, isA, isS⟩ := isMark.letters
        cases split
        exact ⟨isA, isS⟩
  | case2 cs noMark =>
      constructor
      · intro found
        cases found
      · rintro ⟨mark, behind, rfl, isMark⟩
        obtain ⟨a, s, rfl, -, -⟩ := isMark.letters
        exact (noMark a s behind rfl).elim

theorem splitAlias_cons_eq_none_iff {c : Char} {cs : List Char} :
    splitAlias (c :: cs) = none ↔ splitAlias cs = none ∧ isAliasMark (c :: cs) ≠ true := by
  rw [splitAlias]
  cases splitAlias cs with
  | some pair => simp
  | none => simp

/-- No mark begins at a letter. -/
theorem splitAlias_letter {c d : Char} {cs : List Char} (lower : c.toLower = d) (letter : ' ' ≠ d)
    (unsplit : splitAlias cs = none) : splitAlias (c :: cs) = none := by
  refine splitAlias_cons_eq_none_iff.mpr ⟨unsplit, fun found => ?_⟩
  obtain ⟨mark, rest, split, isMark⟩ := isAliasMark_iff.mp found
  obtain ⟨a, s, rfl, -, -⟩ := isMark.letters
  rw [(List.cons.inj split).1] at lower
  exact letter lower

/-- A text is not split exactly if it holds no mark. -/
theorem splitAlias_eq_none_iff {cs : List Char} :
    splitAlias cs = none ↔ ∀ mark, AliasMark mark → ¬mark <:+: cs := by
  induction cs with
  | nil =>
      refine iff_of_true rfl fun mark isMark within => ?_
      obtain ⟨a, s, rfl, -, -⟩ := isMark.letters
      exact absurd (List.infix_nil.mp within) (List.cons_ne_nil _ _)
  | cons c cs ih =>
      rw [splitAlias_cons_eq_none_iff, ih]
      constructor
      · rintro ⟨later, here⟩ mark isMark within
        rcases List.infix_cons_iff.mp within with ⟨rest, split⟩ | within
        · exact here (isAliasMark_iff.mpr ⟨mark, rest, split.symm, isMark⟩)
        · exact later mark isMark within
      · intro nowhere
        refine ⟨fun mark isMark within => nowhere mark isMark (List.infix_cons within), ?_⟩
        intro found
        obtain ⟨mark, rest, split, isMark⟩ := isAliasMark_iff.mp found
        exact nowhere mark isMark ⟨[], rest, split.symm⟩

/-- What stands within a text that is not split is not split. -/
theorem splitAlias_of_infix {part whole : List Char} (unsplit : splitAlias whole = none)
    (within : part <:+: whole) : splitAlias part = none := by
  rw [splitAlias_eq_none_iff] at unsplit ⊢
  exact fun mark isMark inPart => unsplit mark isMark (inPart.trans within)

/-- Where there is no blank there is no mark. -/
theorem splitAlias_of_no_blank {cs : List Char} (noBlank : ' ' ∉ cs) : splitAlias cs = none := by
  rw [splitAlias_eq_none_iff]
  intro mark isMark within
  obtain ⟨a, s, rfl, -, -⟩ := isMark.letters
  exact noBlank (within.subset List.mem_cons_self)

/-- No mark reaches across a character that marks do not hold. -/
theorem splitAlias_append_cons {front back : List Char} {c : Char}
    (other : c.toLower ∉ [' ', 'a', 's', ' ']) (frontUnsplit : splitAlias front = none)
    (backUnsplit : splitAlias back = none) : splitAlias (front ++ c :: back) = none := by
  rw [splitAlias_eq_none_iff] at frontUnsplit backUnsplit ⊢
  intro mark isMark within
  have without : c ∉ mark := isMark.not_mem other
  obtain ⟨a, s, rfl, -, -⟩ := isMark.letters
  rcases List.infix_append_iff.mp within with
    inFront | inBack | ⟨left, right, split, atEnd, atStart⟩
  · exact frontUnsplit _ isMark inFront
  · rcases List.infix_cons_iff.mp inBack with ⟨rest, split⟩ | inBack
    · exact without (by rw [(List.cons.inj split).1]; exact List.mem_cons_self)
    · exact backUnsplit _ isMark inBack
  · cases right with
    | nil =>
        rw [List.append_nil] at split
        exact frontUnsplit _ isMark (split ▸ atEnd.isInfix)
    | cons d right =>
        obtain ⟨rest, same⟩ := atStart
        obtain rfl : d = c := (List.cons.inj same).1
        exact without (split ▸ List.mem_append_right left List.mem_cons_self)

/-- The split is at a mark, and no mark begins behind its letters. -/
theorem splitAlias_eq_some {cs left right : List Char} (split : splitAlias cs = some (left, right)) :
    ∃ mark, AliasMark mark ∧ cs = left ++ mark ++ right ∧ splitAlias (' ' :: right) = none := by
  induction cs generalizing left with
  | nil => cases split
  | cons c cs ih =>
      rw [splitAlias] at split
      cases later : splitAlias cs with
      | some pair =>
          obtain ⟨front, back⟩ := pair
          rw [later] at split
          cases split
          obtain ⟨mark, isMark, whole, unsplit⟩ := ih later
          exact ⟨mark, isMark, congrArg (c :: ·) whole, unsplit⟩
      | none =>
          rw [later] at split
          dsimp only at split
          split at split
          · next found =>
              cases split
              obtain ⟨mark, rest, whole, isMark⟩ := isAliasMark_iff.mp found
              obtain ⟨a, s, rfl, isA, isS⟩ := isMark.letters
              cases whole
              exact ⟨_, isMark, rfl, splitAlias_of_infix later ⟨[a, s], [], by simp⟩⟩
          · cases split

/-- What stands in front of the last mark goes with the name. -/
theorem splitAlias_append {back left right : List Char} (front : List Char)
    (split : splitAlias back = some (left, right)) :
    splitAlias (front ++ back) = some (front ++ left, right) := by
  induction front with
  | nil => exact split
  | cons c front ih =>
      rw [List.cons_append, splitAlias, ih]
      rfl

/-- A text is split at a mark behind which none begins. -/
theorem splitAlias_mark {mark right : List Char} (left : List Char) (isMark : AliasMark mark)
    (unsplit : splitAlias (' ' :: right) = none) :
    splitAlias (left ++ mark ++ right) = some (left, right) := by
  obtain ⟨a, s, rfl, isA, isS⟩ := isMark.letters
  have found : isAliasMark ([' ', a, s, ' '] ++ right) = true :=
    isAliasMark_iff.mpr ⟨_, right, rfl, isMark⟩
  have behind : splitAlias (a :: s :: ' ' :: right) = none :=
    splitAlias_letter isA (by decide) (splitAlias_letter isS (by decide) unsplit)
  have here : splitAlias ([' ', a, s, ' '] ++ right) = some ([], right) := by
    change splitAlias (' ' :: a :: s :: ' ' :: right) = _
    rw [splitAlias, behind]
    exact if_pos found
  have whole := splitAlias_append left here
  rwa [List.append_nil, ← List.append_assoc] at whole

end Ident

/-! ## Open quotes -/

theorem GoesOnName.visible {c : Char} (more : GoesOnName c) :
    0x21 ≤ c.toNat ∧ c.toNat ≤ 0x7e := by
  rcases more with (⟨low, high⟩ | ⟨low, high⟩ | rfl) | ⟨low, high⟩ | rfl
  · exact ⟨Nat.le_trans (by decide) low, Nat.le_trans high (by decide)⟩
  · exact ⟨Nat.le_trans (by decide) low, Nat.le_trans high (by decide)⟩
  · decide
  · exact ⟨Nat.le_trans (by decide) low, Nat.le_trans high (by decide)⟩
  · decide

theorem GoesOnName.not_blank {c : Char} (more : GoesOnName c) : Text.isBlankChar c = false :=
  Text.isBlankChar_visible more.visible.1 more.visible.2

/-- The quotes of a body come in pairs. -/
theorem QuotedBody.count_quote {body name : List Char} (inside : QuotedBody body name) :
    body.count '"' % 2 = 0 := by
  induction inside with
  | nil => rfl
  | quote inside ih =>
      rw [List.count_cons_self, List.count_cons_self]
      omega
  | other notQuote inside ih => rwa [List.count_cons_of_ne notQuote]

/-- In front of another character the quotes of a body come in pairs. -/
theorem QuotedBody.count_front {body name : List Char} (inside : QuotedBody body name) {c : Char}
    (notQuote : c ≠ '"') : ∀ {front back : List Char}, body = front ++ c :: back →
      front.count '"' % 2 = 0 := by
  induction inside with
  | nil =>
      intro front back split
      exact absurd split.symm (List.append_ne_nil_of_right_ne_nil _ (List.cons_ne_nil _ _))
  | quote inside ih =>
      intro front back split
      rcases front with _ | ⟨first, _ | ⟨second, front⟩⟩
      · exact absurd (List.cons.inj split).1.symm notQuote
      · exact absurd (List.cons.inj (List.cons.inj split).2).1.symm notQuote
      · obtain ⟨rfl, behind⟩ := List.cons.inj split
        obtain ⟨rfl, rest⟩ := List.cons.inj behind
        have paired := ih rest
        rw [List.count_cons_self, List.count_cons_self]
        omega
  | other other inside ih =>
      intro front back split
      cases front with
      | nil => rfl
      | cons first front =>
          obtain ⟨rfl, rest⟩ := List.cons.inj split
          rw [List.count_cons_of_ne other]
          exact ih rest

namespace Part

theorem Spelled.count_quote {part : Part} {text : List Char} (spelled : part.Spelled text) :
    text.count '"' % 2 = 0 := by
  cases spelled with
  | star => rfl
  | @plain c cs start more =>
      have none : '"' ∉ c :: cs := by
        rintro mem
        rcases List.mem_cons.mp mem with rfl | mem
        · exact start.ne (by decide) rfl
        · exact (more _ mem).ne (by decide) rfl
      rw [List.count_eq_zero.mpr none]
  | quoted inside nonempty =>
      have paired := inside.count_quote
      rw [List.cons_append, List.count_cons_self, List.count_append, List.count_singleton_self]
      omega

/-- Blanks of a part stand in its quotes. -/
theorem Spelled.count_front {part : Part} {text front back : List Char} {c : Char}
    (spelled : part.Spelled text) (blank : Text.isBlankChar c = true)
    (split : text = front ++ c :: back) : front.count '"' % 2 = 1 := by
  have notQuote : c ≠ '"' := by
    rintro rfl
    cases blank
  cases spelled with
  | star =>
      have mem : c ∈ ['*'] := by
        rw [split]
        exact List.mem_append_right front List.mem_cons_self
      rw [List.mem_singleton.mp mem] at blank
      cases blank
  | @plain first rest start more =>
      have mem : c ∈ first :: rest := by
        rw [split]
        exact List.mem_append_right front List.mem_cons_self
      have plain : GoesOnName c := by
        rcases List.mem_cons.mp mem with rfl | mem
        · exact .inl start
        · exact more c mem
      rw [plain.not_blank] at blank
      cases blank
  | @quoted body name inside nonempty =>
      cases front with
      | nil => exact absurd (List.cons.inj split).1.symm notQuote
      | cons first front =>
          obtain ⟨rfl, within⟩ := List.cons.inj split
          change body ++ ['"'] = front ++ c :: back at within
          rcases List.eq_nil_or_concat back with rfl | ⟨back, last, rfl⟩
          · exact absurd (List.append_singleton_inj.mp within).2.symm notQuote
          · have ends : body ++ ['"'] = (front ++ c :: back) ++ [last] := by simpa using within
            have paired := inside.count_front notQuote (List.append_singleton_inj.mp ends).1
            rw [List.count_cons_self]
            omega

end Part

namespace Ident

theorem Spelled.count_quote {parts : List Part} {text : List Char}
    (spelled : Spelled parts text) : text.count '"' % 2 = 0 := by
  induction spelled with
  | last spelled => exact spelled.count_quote
  | @dot part text parts rest spelled notStar behind ih =>
      have paired := spelled.count_quote
      have notQuote : ('.' : Char) ≠ '"' := by decide
      rw [List.count_append, List.count_cons_of_ne notQuote]
      omega

/-- Blanks of an identifier stand in its quotes. -/
theorem Spelled.count_front {parts : List Part} {text : List Char}
    (spelled : Spelled parts text) {c : Char} (blank : Text.isBlankChar c = true) :
    ∀ {front back : List Char}, text = front ++ c :: back → front.count '"' % 2 = 1 := by
  have notDot : '.' ≠ c := by
    rintro rfl
    cases blank
  induction spelled with
  | last spelled => exact spelled.count_front blank
  | @dot part text parts rest spelled notStar behind ih =>
      intro front back split
      rcases List.append_eq_append_iff.mp split with ⟨more, rfl, within⟩ | ⟨more, rfl, within⟩
      · cases more with
        | nil => exact absurd (List.cons.inj within).1 notDot
        | cons first more =>
            obtain ⟨rfl, later⟩ := List.cons.inj within
            have paired := spelled.count_quote
            have opened := ih later
            have notQuote : ('.' : Char) ≠ '"' := by decide
            rw [List.count_append, List.count_cons_of_ne notQuote]
            omega
      · cases more with
        | nil => exact absurd (List.cons.inj within).1.symm notDot
        | cons first more =>
            obtain ⟨rfl, _⟩ := List.cons.inj within
            exact spelled.count_front blank rfl

/-- In front of a mark within an identifier a quote is open. -/
theorem Spelled.count_before_mark {parts : List Part} {text before mark after : List Char}
    (spelled : Spelled parts (Text.trimmed text))
    (ends : ∀ c ∈ text.getLast?, Text.isBlankChar c = false) (isMark : AliasMark mark)
    (split : text = before ++ mark ++ after) : before.count '"' % 2 = 1 := by
  obtain ⟨a, s, rfl, isA, -⟩ := isMark.letters
  have visible := AliasMark.letter_visible isA (by decide) (by decide)
  obtain ⟨lead, whole, leadBlank⟩ := Text.trimmed_front ends
  -- The blank behind the letters is not among those that are dropped, so it stands in quotes.
  have behind : lead ++ Text.trimmed text = (before ++ [' ', a, s]) ++ ' ' :: after := by
    rw [← whole, split]
    simp
  rcases List.append_eq_append_iff.mp behind with ⟨front, eq, rest⟩ | ⟨more, eq, _⟩
  · have opened := spelled.count_front (c := ' ') rfl rest
    have letters : ([' ', a, s] ++ [' ']).count '"' = 0 := isMark.count_quote
    rw [List.count_append] at letters
    have count := congrArg (List.count '"') eq
    rw [List.count_append, List.count_append, Text.count_quote_of_blank leadBlank] at count
    omega
  · have dropped : Text.isBlankChar a = true := by
      apply leadBlank
      rw [eq]
      simp
    rw [visible] at dropped
    cases dropped

end Ident

end SqlBuilder
