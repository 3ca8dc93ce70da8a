import SqlBuilder.Proofs.Wrapping

/-!
# Quoting twice

Text that was wrapped is not changed by wrapping it again.  In double quotes
the same identifiers are found a second time, split at the same mark.  In the
other quotes the text starts or ends as no identifier does, and so do all of
the parts that it might be split into.
-/

namespace SqlBuilder

/-! ## The ends of quoted text -/

namespace Part

variable {quote : Quote}

theorem exists_name {part : Part} (notStar : part ≠ .star) : ∃ name, part.name = some name := by
  cases part with
  | star => exact absurd rfl notStar
  | plain name => exact ⟨name, rfl⟩
  | quoted name => exact ⟨name, rfl⟩

theorem sql_starts {part : Part} (notStar : part ≠ .star) :
    ∃ rest, (part.sql quote).toList = quote.opening :: rest := by
  obtain ⟨name, named⟩ := exists_name notStar
  rw [toList_sql_named named]
  exact ⟨_, rfl⟩

theorem sql_ends {part : Part} (notStar : part ≠ .star) :
    ∃ front, (part.sql quote).toList = front ++ [quote.closing] := by
  obtain ⟨name, named⟩ := exists_name notStar
  rw [toList_sql_named named]
  exact ⟨_, rfl⟩

end Part

namespace Ident

variable {quote : Quote}

/-- An identifier in quotes is a star alone, or it starts with an opening quote. -/
theorem Spelled.sql_starts {parts : List Part} {text : List Char} (spelled : Spelled parts text) :
    parts = [.star] ∨ ∃ rest, ((⟨parts⟩ : Ident).sql quote).toList = quote.opening :: rest := by
  cases spelled with
  | @last part text spelled =>
      by_cases star : part = .star
      · exact .inl (congrArg ([·]) star)
      · rw [sql_last]
        exact .inr (Part.sql_starts star)
  | @dot part text parts rest spelled notStar behind =>
      obtain ⟨more, starts⟩ : ∃ more, (part.sql quote).toList = quote.opening :: more :=
        Part.sql_starts notStar
      rw [toList_sql_dot part behind.parts_ne_nil, starts]
      exact .inr ⟨_, rfl⟩

/-- It ends with a closing quote or a star. -/
theorem Spelled.sql_ends {parts : List Part} {text : List Char} (spelled : Spelled parts text) :
    ∃ front last, ((⟨parts⟩ : Ident).sql quote).toList = front ++ [last] ∧
      (last = quote.closing ∨ last = '*') := by
  induction spelled with
  | @last part text spelled =>
      rw [sql_last]
      by_cases star : part = .star
      · subst star
        exact ⟨[], '*', Part.toList_sql_star, .inr rfl⟩
      · obtain ⟨front, ends⟩ := Part.sql_ends star
        exact ⟨front, quote.closing, ends, .inl rfl⟩
  | @dot part text parts rest spelled notStar behind ih =>
      obtain ⟨front, last, ends, mark⟩ := ih
      refine ⟨(part.sql quote).toList ++ '.' :: front, last, ?_, mark⟩
      rw [toList_sql_dot part behind.parts_ne_nil, ends, List.append_assoc, List.cons_append]

theorem Spelled.sql_ne_nil {parts : List Part} {text : List Char} (spelled : Spelled parts text) :
    ((⟨parts⟩ : Ident).sql quote).toList ≠ [] := by
  obtain ⟨front, last, ends, -⟩ := spelled.sql_ends
  rw [ends]
  exact List.append_ne_nil_of_right_ne_nil front (List.cons_ne_nil last [])

/-- No blank stands at the ends of an identifier in quotes. -/
theorem Spelled.tight_sql {parts : List Part} {text : List Char} (spelled : Spelled parts text)
    (visible : Text.isBlankChar quote.opening = false ∧ Text.isBlankChar quote.closing = false) :
    Text.Tight ((⟨parts⟩ : Ident).sql quote).toList := by
  have starVisible : Text.isBlankChar '*' = false := by decide
  constructor
  · intro c first
    rcases spelled.sql_starts with rfl | ⟨rest, starts⟩
    · rw [sql_last, Part.toList_sql_star] at first
      cases first
      exact starVisible
    · rw [starts] at first
      cases first
      exact visible.1
  · intro c last
    obtain ⟨front, final, ends, rfl | rfl⟩ := spelled.sql_ends
    · rw [ends, List.getLast?_concat] at last
      cases last
      exact visible.2
    · rw [ends, List.getLast?_concat] at last
      cases last
      exact starVisible

end Ident

/-! ## Text that starts or ends as no identifier does -/

/-- A visible character that starts no part of an identifier. -/
structure ForeignStart (c : Char) : Prop where
  visible : Text.isBlankChar c = false
  notName : ¬StartsName c
  notStar : c ≠ '*'
  notQuote : c ≠ '"'

/-- A visible character that ends no part of an identifier. -/
structure ForeignEnd (c : Char) : Prop where
  visible : Text.isBlankChar c = false
  notName : ¬GoesOnName c
  notStar : c ≠ '*'
  notQuote : c ≠ '"'

/-- What a part spells ends with a character of a plain name, a quote or a star. -/
theorem Part.Spelled.ends {part : Part} {text : List Char} (spelled : part.Spelled text) :
    ∃ front last, text = front ++ [last] ∧ (GoesOnName last ∨ last = '"' ∨ last = '*') := by
  cases spelled with
  | star => exact ⟨[], '*', rfl, .inr (.inr rfl)⟩
  | @plain c cs start more =>
      rcases List.eq_nil_or_concat cs with rfl | ⟨front, last, rfl⟩
      · exact ⟨[], c, rfl, .inl (.inl start)⟩
      · have goesOn : GoesOnName last := more last (by simp)
        exact ⟨c :: front, last, by simp, .inl goesOn⟩
  | @quoted body name inside nonempty => exact ⟨'"' :: body, '"', rfl, .inr (.inl rfl)⟩

theorem Ident.Spelled.ends {parts : List Part} {text : List Char}
    (spelled : Ident.Spelled parts text) :
    ∃ front last, text = front ++ [last] ∧ (GoesOnName last ∨ last = '"' ∨ last = '*') := by
  induction spelled with
  | last spelled => exact spelled.ends
  | @dot part text parts rest spelled notStar behind ih =>
      obtain ⟨front, last, split, plain⟩ := ih
      exact ⟨text ++ '.' :: front, last, by simp [split], plain⟩

/-- What starts with such a character is no identifier. -/
theorem ForeignStart.not_parsed {c : Char} (foreign : ForeignStart c) {text : String}
    {rest : List Char} (starts : text.toList = c :: rest) (ident : Ident) :
    Ident.parse (Text.trim text) ≠ .ok ident := by
  intro parsed
  obtain ⟨more, trimmed⟩ := Text.trimmed_cons foreign.visible rest
  have spelled := Ident.spelled_trimmed parsed
  rw [starts, trimmed] at spelled
  have broken : Ident.Broken (c :: more) :=
    .start more foreign.notName foreign.notStar foreign.notQuote
  exact Ident.broken_iff_not_spelled.mp broken ⟨ident.parts, spelled⟩

/-- What ends with such a character is no identifier. -/
theorem ForeignEnd.not_parsed {c : Char} (foreign : ForeignEnd c) {text : String}
    {front : List Char} (ends : text.toList = front ++ [c]) (ident : Ident) :
    Ident.parse (Text.trim text) ≠ .ok ident := by
  intro parsed
  obtain ⟨before, trimmed⟩ := Text.trimmed_concat foreign.visible front
  have spelled := Ident.spelled_trimmed parsed
  rw [ends, trimmed] at spelled
  obtain ⟨other, last, split, kind⟩ := spelled.ends
  obtain rfl : c = last := (List.append_singleton_inj.mp split).2
  rcases kind with more | quote | star
  · exact foreign.notName more
  · exact foreign.notQuote quote
  · exact foreign.notStar star

theorem not_blank_of_visible {c : Char} (visible : Text.isBlankChar c = false) : c ≠ ' ' := by
  rintro rfl
  cases visible

namespace Ident

variable {quote : Quote}

/-- Text that starts as no identifier does is passed on: so does every name split off it. -/
theorem wrap_of_start {text : String} {c : Char} {rest : List Char}
    (tight : Text.Tight text.toList) (starts : text.toList = c :: rest)
    (foreign : ForeignStart c) : wrap quote text = text := by
  have same : Text.trim text = text := Text.trim_of_tight tight
  have kept : wrap quote text = Text.trim text := by
    refine wrap_other (foreign.not_parsed starts) fun left right split => ?_
    obtain ⟨mark, isMark, whole, -⟩ := splitAlias_eq_some split
    obtain ⟨a, s, rfl, -, -⟩ := isMark.letters
    rw [same, starts] at whole
    obtain ⟨more, rfl⟩ : ∃ more, left = c :: more := by
      cases left with
      | nil => exact absurd (List.cons.inj whole).1 (not_blank_of_visible foreign.visible)
      | cons d more => exact ⟨more, by rw [(List.cons.inj whole).1]⟩
    exact parseAliased_eq_none fun ident _ parsed =>
      absurd parsed (foreign.not_parsed String.toList_ofList ident)
  rw [kept, same]

/-- Text that ends as no identifier does is passed on: so does every alias split off it. -/
theorem wrap_of_end {text : String} {c : Char} {front : List Char}
    (tight : Text.Tight text.toList) (ends : text.toList = front ++ [c])
    (foreign : ForeignEnd c) : wrap quote text = text := by
  have same : Text.trim text = text := Text.trim_of_tight tight
  have kept : wrap quote text = Text.trim text := by
    refine wrap_other (foreign.not_parsed ends) fun left right split => ?_
    obtain ⟨mark, isMark, whole, -⟩ := splitAlias_eq_some split
    obtain ⟨a, s, rfl, -, -⟩ := isMark.letters
    rw [same, ends] at whole
    obtain ⟨more, rfl⟩ : ∃ more, right = more ++ [c] := by
      rcases List.eq_nil_or_concat right with rfl | ⟨more, last, rfl⟩
      · have final : front ++ [c] = (left ++ [' ', a, s]) ++ [' '] := by simpa using whole
        exact absurd (List.append_singleton_inj.mp final).2
          (not_blank_of_visible foreign.visible)
      · rw [List.concat_eq_append, ← List.append_assoc] at whole
        obtain rfl : c = last := (List.append_singleton_inj.mp whole).2
        exact ⟨more, List.concat_eq_append⟩
    exact parseAliased_eq_none fun _ other _ =>
      foreign.not_parsed String.toList_ofList other
  rw [kept, same]

end Ident

/-! ## Double quotes -/

theorem QuotedBody.eq_doubled {body name : List Char} (inside : QuotedBody body name) :
    body = Quote.double.doubled name := by
  induction inside with
  | nil => rfl
  | quote inside ih =>
      rw [ih]
      rfl
  | @other c body name notQuote inside ih =>
      have single : Quote.double.doubled (c :: name) = c :: Quote.double.doubled name :=
        if_neg notQuote
      rw [single, ih]

theorem Part.Spelled.splitAlias_sql {part : Part} {text : List Char} (spelled : part.Spelled text)
    (unsplit : Ident.splitAlias text = none) :
    Ident.splitAlias (part.sql .double).toList = none := by
  cases spelled with
  | star =>
      rw [toList_sql_star]
      exact unsplit
  | @plain c cs start more =>
      have plain : Part.Spelled (.plain (String.ofList (c :: cs))) (c :: cs) := .plain start more
      refine Ident.splitAlias_of_no_blank fun mem => ?_
      rcases plain.mem_of_mem_sql mem with within | opening | closing
      · have goesOn : GoesOnName ' ' := by
          rcases List.mem_cons.mp within with rfl | within
          · exact .inl start
          · exact more ' ' within
        cases goesOn.not_blank
      · cases opening
      · cases closing
  | @quoted body name inside nonempty =>
      have same : ((Part.quoted (String.ofList name)).sql .double).toList =
          '"' :: body ++ ['"'] := by
        rw [toList_sql_named rfl, String.toList_ofList, ← inside.eq_doubled]
        rfl
      rw [same]
      exact unsplit

namespace Ident

/-- Where an identifier is not split, neither is its text in double quotes. -/
theorem Spelled.splitAlias_sql {parts : List Part} {text : List Char}
    (spelled : Spelled parts text) (unsplit : splitAlias text = none) :
    splitAlias ((⟨parts⟩ : Ident).sql .double).toList = none := by
  induction spelled with
  | last spelled =>
      rw [sql_last]
      exact spelled.splitAlias_sql unsplit
  | @dot part text parts rest spelled notStar behind ih =>
      have front : splitAlias text = none :=
        splitAlias_of_infix unsplit (List.prefix_append text ('.' :: rest)).isInfix
      have back : splitAlias rest = none :=
        splitAlias_of_infix unsplit ⟨text ++ ['.'], [], by simp⟩
      rw [toList_sql_dot part behind.parts_ne_nil]
      exact splitAlias_append_cons (by decide) (spelled.splitAlias_sql front) (ih back)

theorem double_visible : Text.isBlankChar Quote.double.opening = false ∧
    Text.isBlankChar Quote.double.closing = false := by
  decide

/-- An identifier in double quotes is found again. -/
theorem wrap_sql_double {text : String} {ident : Ident} (parsed : parse text = .ok ident)
    (unsplit : splitAlias text.toList = none) :
    wrap .double (ident.sql .double) = ident.sql .double := by
  have spelled := (parse_eq_ok_iff.mp parsed).2
  have same : Text.trim (ident.sql .double) = ident.sql .double :=
    Text.trim_of_tight (spelled.tight_sql double_visible)
  have again : splitAlias (Text.trim (ident.sql .double)).toList = none := by
    rw [same]
    exact spelled.splitAlias_sql unsplit
  have found : parse (Text.trim (ident.sql .double)) = .ok ident.allInQuotes := by
    rw [same]
    exact parse_sql_double parsed
  rw [wrap_unsplit again found, sql_allInQuotes]

theorem toList_aliased (left right : String) :
    (left ++ " AS " ++ right).toList = left.toList ++ [' ', 'A', 'S', ' '] ++ right.toList := by
  simp [String.toList_append]

theorem tight_aliased {ident other : Ident} {name label : List Char}
    (isName : Spelled ident.parts name) (isLabel : Spelled other.parts label)
    (visible : Text.isBlankChar quote.opening = false ∧ Text.isBlankChar quote.closing = false) :
    Text.Tight (ident.sql quote ++ " AS " ++ other.sql quote).toList := by
  rw [toList_aliased]
  constructor
  · intro c first
    rw [List.append_assoc, List.head?_append_of_ne_nil _ isName.sql_ne_nil] at first
    exact (isName.tight_sql visible).starts c first
  · intro c last
    rw [List.getLast?_append_of_ne_nil _ isLabel.sql_ne_nil] at last
    exact (isLabel.tight_sql visible).ends c last

theorem isAlias_allInQuotes {ident : Ident} (isAlias : ident.isAlias = true) :
    ident.allInQuotes.isAlias = true := by
  obtain ⟨part, rfl, notStar⟩ := isAlias_iff.mp isAlias
  exact isAlias_iff.mpr ⟨part.inQuotes, rfl, Part.inQuotes_ne_star notStar⟩

/-- Nor does a mark begin at a blank in front of an alias in double quotes. -/
theorem Spelled.splitAlias_blank_sql {ident : Ident} {text : List Char}
    (spelled : Spelled ident.parts text) (isAlias : ident.isAlias = true)
    (unsplit : splitAlias text = none) :
    splitAlias (' ' :: (ident.sql .double).toList) = none := by
  have inner := spelled.splitAlias_sql unsplit
  obtain ⟨part, rfl, notStar⟩ := isAlias_iff.mp isAlias
  obtain ⟨rest, starts⟩ : ∃ rest, (part.sql .double).toList = '"' :: rest :=
    Part.sql_starts notStar
  rw [sql_last, starts] at inner ⊢
  have behind : splitAlias rest = none :=
    splitAlias_of_infix inner (List.suffix_cons '"' rest).isInfix
  have front : splitAlias [' '] = none := rfl
  exact splitAlias_append_cons (by decide) front behind

/-- An identifier and its alias in double quotes are found again, split at the same mark. -/
theorem wrap_aliased_double {name label : String} {ident other : Ident}
    (parsed : parse name = .ok ident) (single : parse label = .ok other)
    (isAlias : other.isAlias = true) (unsplit : splitAlias label.toList = none) :
    wrap .double (ident.sql .double ++ " AS " ++ other.sql .double) =
      ident.sql .double ++ " AS " ++ other.sql .double := by
  have isName := (parse_eq_ok_iff.mp parsed).2
  have isLabel := (parse_eq_ok_iff.mp single).2
  have same := Text.trim_of_tight (tight_aliased isName isLabel double_visible)
  have isMark : AliasMark [' ', 'A', 'S', ' '] := by
    rw [AliasMark]
    decide
  have split : splitAlias (ident.sql .double ++ " AS " ++ other.sql .double).toList =
      some ((ident.sql .double).toList, (other.sql .double).toList) := by
    rw [toList_aliased]
    exact splitAlias_mark _ isMark (isLabel.splitAlias_blank_sql isAlias unsplit)
  rw [← same] at split
  have both : parseAliased (Text.trim (String.ofList (ident.sql .double).toList))
      (Text.trim (String.ofList (other.sql .double).toList)) =
        some (ident.allInQuotes, other.allInQuotes) := by
    rw [String.ofList_toList, String.ofList_toList,
      Text.trim_of_tight (isName.tight_sql double_visible),
      Text.trim_of_tight (isLabel.tight_sql double_visible)]
    exact parseAliased_eq_some_iff.mpr
      ⟨parse_sql_double parsed, parse_sql_double single, isAlias_allInQuotes isAlias⟩
  rw [wrap_split split both, sql_allInQuotes, sql_allInQuotes]

/-- An identifier in other quotes starts with a foreign character, or is a star. -/
theorem wrap_sql_foreign {parts : List Part} {text : List Char} (spelled : Spelled parts text)
    (opens : ForeignStart quote.opening) (closes : ForeignEnd quote.closing) :
    wrap quote ((⟨parts⟩ : Ident).sql quote) = (⟨parts⟩ : Ident).sql quote := by
  rcases spelled.sql_starts with rfl | ⟨rest, starts⟩
  · rw [sql_last]
    exact wrap_star quote
  · exact wrap_of_start (spelled.tight_sql ⟨opens.visible, closes.visible⟩) starts opens

/-- An alias in other quotes ends with a foreign character. -/
theorem wrap_aliased_foreign {ident other : Ident} {name label : List Char}
    (isName : Spelled ident.parts name) (isLabel : Spelled other.parts label)
    (isAlias : other.isAlias = true) (opens : ForeignStart quote.opening)
    (closes : ForeignEnd quote.closing) :
    wrap quote (ident.sql quote ++ " AS " ++ other.sql quote) =
      ident.sql quote ++ " AS " ++ other.sql quote := by
  have tight := tight_aliased isName isLabel ⟨opens.visible, closes.visible⟩
  obtain ⟨part, rfl, notStar⟩ := isAlias_iff.mp isAlias
  obtain ⟨front, ends⟩ : ∃ front, (part.sql quote).toList = front ++ [quote.closing] :=
    Part.sql_ends notStar
  have whole : (ident.sql quote ++ " AS " ++ (⟨[part]⟩ : Ident).sql quote).toList =
      ((ident.sql quote).toList ++ [' ', 'A', 'S', ' '] ++ front) ++ [quote.closing] := by
    rw [toList_aliased, sql_last, ends, List.append_assoc _ front]
  exact wrap_of_end tight whole closes

/-- The quotes that are not double quotes stand neither before nor behind what is spelled. -/
theorem foreign_of_styles (builtIn : quote ∈ Quote.styles) :
    quote = .double ∨ ForeignStart quote.opening ∧ ForeignEnd quote.closing := by
  simp only [Quote.styles, List.mem_cons, List.not_mem_nil, or_false] at builtIn
  rcases builtIn with double | rfl | rfl
  · exact .inl double
  · refine .inr ⟨?_, ?_⟩ <;> constructor <;> decide
  · refine .inr ⟨?_, ?_⟩ <;> constructor <;> decide

/-- Wrapping a second time changes nothing. -/
theorem wrap_wrap {quote : Quote} (builtIn : quote ∈ Quote.styles) (text : String) :
    wrap quote (wrap quote text) = wrap quote text := by
  cases split : splitAlias (Text.trim text).toList with
  | none =>
      cases parsed : parse (Text.trim text) with
      | error fault =>
          have failed : ∀ ident, parse (Text.trim text) ≠ .ok ident := by
            rw [parsed]
            nofun
          rw [wrap_unsplit_other split failed, wrap_trim, wrap_unsplit_other split failed]
      | ok ident =>
          rw [wrap_unsplit split parsed]
          rcases foreign_of_styles builtIn with rfl | ⟨opens, closes⟩
          · exact wrap_sql_double parsed split
          · exact wrap_sql_foreign (parse_eq_ok_iff.mp parsed).2 opens closes
  | some pair =>
      obtain ⟨left, right⟩ := pair
      cases both : parseAliased (Text.trim (String.ofList left))
          (Text.trim (String.ofList right)) with
      | none => rw [wrap_split_other split both, wrap_trim, wrap_split_other split both]
      | some pair =>
          obtain ⟨ident, other⟩ := pair
          obtain ⟨parsed, single, isAlias⟩ := parseAliased_eq_some_iff.mp both
          rw [wrap_split split both]
          rcases foreign_of_styles builtIn with rfl | ⟨opens, closes⟩
          · refine wrap_aliased_double parsed single isAlias ?_
            obtain ⟨mark, -, -, unsplit⟩ := splitAlias_eq_some split
            obtain ⟨lead, trail, whole, -⟩ := Text.trimmed_split right
            refine splitAlias_of_infix unsplit ⟨' ' :: lead, trail, ?_⟩
            rw [Text.trim, String.toList_ofList, String.toList_ofList, List.cons_append,
              List.cons_append, ← whole]
          · exact wrap_aliased_foreign (parse_eq_ok_iff.mp parsed).2 (parse_eq_ok_iff.mp single).2
              isAlias opens closes

theorem wrap_wrap_aliased : Quote.bracket ∈ Quote.styles ∧
    wrap .bracket (wrap .bracket "u.name as \"n]m\"") = wrap .bracket "u.name as \"n]m\"" :=
  ⟨by decide, wrap_wrap (by decide) "u.name as \"n]m\""⟩

end Ident

end SqlBuilder
