import SqlBuilder.Proofs.AliasMark
import SqlBuilder.Proofs.QuotedNames

/-!
# Quoting what is an identifier

An identifier is quoted, an identifier with an alias is quoted on both sides,
and any other text is passed on as it is.  A mark of an alias that stands
within quotes is taken for one: then the text is passed on as well.
-/

namespace SqlBuilder

namespace Ident

/-! ## The branches of wrapping -/

section Branches

variable {quote : Quote} {text : String}

theorem wrap_unsplit {ident : Ident} (unsplit : splitAlias (Text.trim text).toList = none)
    (parsed : parse (Text.trim text) = .ok ident) : wrap quote text = ident.sql quote := by
  simp only [wrap, unsplit, parsed]

theorem wrap_unsplit_other (unsplit : splitAlias (Text.trim text).toList = none)
    (failed : ∀ ident, parse (Text.trim text) ≠ .ok ident) :
    wrap quote text = Text.trim text := by
  cases parsed : parse (Text.trim text) with
  | ok ident => exact absurd parsed (failed ident)
  | error fault => simp only [wrap, unsplit, parsed]

theorem wrap_split {left right : List Char} {ident label : Ident}
    (split : splitAlias (Text.trim text).toList = some (left, right))
    (parsed : parseAliased (Text.trim (String.ofList left)) (Text.trim (String.ofList right)) =
      some (ident, label)) :
    wrap quote text = ident.sql quote ++ " AS " ++ label.sql quote := by
  simp only [wrap, split, parsed]

theorem wrap_split_other {left right : List Char}
    (split : splitAlias (Text.trim text).toList = some (left, right))
    (failed : parseAliased (Text.trim (String.ofList left)) (Text.trim (String.ofList right)) =
      none) : wrap quote text = Text.trim text := by
  simp only [wrap, split, failed]

theorem isAlias_iff {ident : Ident} :
    ident.isAlias = true ↔ ∃ part, ident = ⟨[part]⟩ ∧ part ≠ .star := by
  obtain ⟨parts⟩ := ident
  fun_cases isAlias (⟨parts⟩ : Ident) with
  | case1 name single =>
      cases single
      exact iff_of_true rfl ⟨_, rfl, nofun⟩
  | case2 name single =>
      cases single
      exact iff_of_true rfl ⟨_, rfl, nofun⟩
  | case3 notPlain notQuoted =>
      refine iff_of_false Bool.false_ne_true ?_
      rintro ⟨part, same, named⟩
      cases part with
      | plain name => exact notPlain name (congrArg Ident.parts same)
      | quoted name => exact notQuoted name (congrArg Ident.parts same)
      | star => exact named rfl

theorem parseAliased_eq_some_iff {name label : String} {ident other : Ident} :
    parseAliased name label = some (ident, other) ↔
      parse name = .ok ident ∧ parse label = .ok other ∧ other.isAlias = true := by
  unfold parseAliased
  cases parse name with
  | error fault => simp
  | ok left =>
      cases parse label with
      | error fault => simp
      | ok right =>
          simp only [Except.ok.injEq]
          by_cases single : right.isAlias = true
          · rw [if_pos single, Option.some.injEq, Prod.mk.injEq]
            constructor
            · rintro ⟨rfl, rfl⟩
              exact ⟨rfl, rfl, single⟩
            · rintro ⟨rfl, rfl, -⟩
              exact ⟨rfl, rfl⟩
          · rw [if_neg single]
            refine iff_of_false nofun ?_
            rintro ⟨-, rfl, isAlias⟩
            exact single isAlias

/-- Nothing is read where one of the two is no identifier. -/
theorem parseAliased_eq_none {name label : String}
    (failed : ∀ ident other, parse name = .ok ident → parse label ≠ .ok other) :
    parseAliased name label = none := by
  cases both : parseAliased name label with
  | none => rfl
  | some pair =>
      obtain ⟨parsed, labelled, -⟩ := parseAliased_eq_some_iff.mp both
      exact absurd labelled (failed pair.1 pair.2 parsed)

/-- Text is passed on where neither it nor what it is split into is read. -/
theorem wrap_other (noIdent : ∀ ident, parse (Text.trim text) ≠ .ok ident)
    (noAlias : ∀ left right, splitAlias (Text.trim text).toList = some (left, right) →
      parseAliased (Text.trim (String.ofList left)) (Text.trim (String.ofList right)) = none) :
    wrap quote text = Text.trim text := by
  cases split : splitAlias (Text.trim text).toList with
  | none => exact wrap_unsplit_other split noIdent
  | some pair => exact wrap_split_other split (noAlias pair.1 pair.2 split)

theorem wrap_trim (quote : Quote) (text : String) : wrap quote (Text.trim text) = wrap quote text := by
  simp only [wrap, Text.trim_trim]

theorem wrap_star (quote : Quote) : wrap quote "*" = "*" := by
  rfl

end Branches

/-! ## Marks within quotes -/

theorem mentions_as_iff {text : String} :
    Text.mentions text " as " = true ↔ splitAlias text.toList ≠ none := by
  rw [Text.mentions_iff, ne_eq, splitAlias_eq_none_iff]
  constructor
  · rintro ⟨part, within, same⟩ nowhere
    exact nowhere part same within
  · intro somewhere
    simp only [not_forall, not_not] at somewhere
    obtain ⟨mark, isMark, within⟩ := somewhere
    exact ⟨mark, within, isMark⟩

/-- Of two outcomes, the one that a mark in a text decides on. -/
theorem eq_by_mark {text wrapped kept quoted : String}
    (noMark : splitAlias text.toList = none → wrapped = quoted)
    (marked : ∀ left right, splitAlias text.toList = some (left, right) → wrapped = kept) :
    wrapped = if Text.mentions text " as " then kept else quoted := by
  cases split : splitAlias text.toList with
  | none =>
      have absent : Text.mentions text " as " ≠ true :=
        fun found => mentions_as_iff.mp found split
      rw [if_neg absent]
      exact noMark split
  | some pair =>
      have found : Text.mentions text " as " = true := by
        rw [mentions_as_iff, split]
        nofun
      rw [if_pos found]
      exact marked pair.1 pair.2 split

theorem spelled_trimmed {text : String} {ident : Ident}
    (parsed : parse (Text.trim text) = .ok ident) :
    Spelled ident.parts (Text.trimmed text.toList) := by
  have spelled := (parse_eq_ok_iff.mp parsed).2
  rwa [Text.trim, String.toList_ofList] at spelled

/-- A text in which a quote is open is no identifier. -/
theorem not_parsed_of_open {cs : List Char} (opened : cs.count '"' % 2 = 1) (ident : Ident) :
    parse (Text.trim (String.ofList cs)) ≠ .ok ident := by
  intro parsed
  have paired := (spelled_trimmed parsed).count_quote
  rw [Text.count_quote_trimmed, String.toList_ofList] at paired
  omega

theorem parseAliased_of_open {left : List Char} (opened : left.count '"' % 2 = 1) (label : String) :
    parseAliased (Text.trim (String.ofList left)) label = none :=
  parseAliased_eq_none fun ident _ parsed => absurd parsed (not_parsed_of_open opened ident)

/--
A text is an identifier with an alias: a mark stands between an identifier and
a single name, further blanks aside.
-/
structure Aliased (text : String) (ident : Ident) (behind : String) (label : Part) : Prop where
  marked : ∃ front mark, text.toList = front ++ mark ++ behind.toList ∧ AliasMark mark ∧
    parse (Text.trim (String.ofList front)) = .ok ident
  single : parse (Text.trim behind) = .ok ⟨[label]⟩
  named : label ≠ .star

namespace Aliased

variable {text behind : String} {ident : Ident} {label : Part}

/-- The text ends with its alias, not with a blank. -/
theorem ends (aliased : Aliased text ident behind label) (tight : Text.Tight text.toList) :
    ∀ c ∈ behind.toList.getLast?, Text.isBlankChar c = false := by
  obtain ⟨front, mark, split, -, -⟩ := aliased.marked
  intro c last
  apply tight.ends
  rw [split, List.getLast?_append, Option.mem_def.mp last]
  rfl

theorem nonempty (aliased : Aliased text ident behind label) : behind.toList ≠ [] := by
  intro none
  have spelled := spelled_trimmed aliased.single
  rw [none] at spelled
  exact spelled.ne_nil rfl

/-- Without a mark in the alias no mark begins behind the letters in front of it. -/
theorem unsplit (aliased : Aliased text ident behind label) (tight : Text.Tight text.toList)
    (noMark : splitAlias behind.toList = none) : splitAlias (' ' :: behind.toList) = none := by
  cases split : splitAlias (' ' :: behind.toList) with
  | none => rfl
  | some pair =>
      obtain ⟨left, right⟩ := pair
      obtain ⟨mark, isMark, whole, -⟩ := splitAlias_eq_some split
      have spelled : Spelled [label] (Text.trimmed (' ' :: behind.toList)) :=
        spelled_trimmed aliased.single
      have ends : ∀ c ∈ (' ' :: behind.toList).getLast?, Text.isBlankChar c = false := by
        rw [List.getLast?_cons_of_ne_nil aliased.nonempty]
        exact aliased.ends tight
      have opened := spelled.count_before_mark ends isMark whole
      cases left with
      | nil => cases opened
      | cons c left =>
          have within : mark <:+: behind.toList :=
            ⟨left, right, (List.cons.inj whole).2.symm⟩
          exact absurd within (splitAlias_eq_none_iff.mp noMark mark isMark)

end Aliased

/-- A mark within the quotes of an identifier keeps it from being quoted. -/
theorem wrap_marked {quote : Quote} {text : String} {ident : Ident} {left right : List Char}
    (parsed : parse (Text.trim text) = .ok ident)
    (split : splitAlias (Text.trim text).toList = some (left, right)) :
    wrap quote text = Text.trim text := by
  obtain ⟨mark, isMark, whole, -⟩ := splitAlias_eq_some split
  have spelled : Spelled ident.parts (Text.trimmed (Text.trim text).toList) := by
    rw [← Text.trim_trim text] at parsed
    exact spelled_trimmed parsed
  have opened := spelled.count_before_mark (Text.tight_trim text).ends isMark whole
  exact wrap_split_other split (parseAliased_of_open opened _)

/-- A mark within the quotes of an alias keeps the text from being quoted. -/
theorem wrap_marked_alias {quote : Quote} {text behind : String} {ident : Ident} {label : Part}
    {left right : List Char} (aliased : Aliased (Text.trim text) ident behind label)
    (split : splitAlias behind.toList = some (left, right)) :
    wrap quote text = Text.trim text := by
  obtain ⟨front, mark, whole, isMark, parsed⟩ := aliased.marked
  obtain ⟨inner, isInner, within, -⟩ := splitAlias_eq_some split
  have opened := (spelled_trimmed aliased.single).count_before_mark
    (aliased.ends (Text.tight_trim text)) isInner within
  have paired := (spelled_trimmed parsed).count_quote
  rw [Text.count_quote_trimmed, String.toList_ofList] at paired
  have count : (front ++ mark ++ left).count '"' % 2 = 1 := by
    rw [List.count_append, List.count_append, isMark.count_quote]
    omega
  have outer : splitAlias (Text.trim text).toList = some (front ++ mark ++ left, right) := by
    rw [whole]
    exact splitAlias_append (front ++ mark) split
  exact wrap_split_other outer (parseAliased_of_open count _)

theorem wrap_alias {quote : Quote} {text behind : String} {ident : Ident} {label : Part}
    (aliased : Aliased (Text.trim text) ident behind label)
    (noMark : splitAlias behind.toList = none) :
    wrap quote text = ident.sql quote ++ " AS " ++ label.sql quote := by
  obtain ⟨front, mark, whole, isMark, parsed⟩ := aliased.marked
  have split : splitAlias (Text.trim text).toList = some (front, behind.toList) := by
    rw [whole]
    exact splitAlias_mark front isMark (aliased.unsplit (Text.tight_trim text) noMark)
  have single : parse (Text.trim (String.ofList behind.toList)) = .ok ⟨[label]⟩ := by
    rw [String.ofList_toList]
    exact aliased.single
  have both := parseAliased_eq_some_iff.mpr
    ⟨parsed, single, isAlias_iff.mpr ⟨label, rfl, aliased.named⟩⟩
  rw [wrap_split split both, sql_last]

/--
What wrapping gives, by the form of the text.  An identifier is quoted unless
a mark of an alias stands in it, an identifier with an alias is quoted unless a
mark stands in its alias, and every other text is passed on.
-/
theorem wrap_by_form (quote : Quote) (text : String) :
    (∀ ident, parse (Text.trim text) = .ok ident →
      wrap quote text =
        if Text.mentions (Text.trim text) " as " then Text.trim text else ident.sql quote) ∧
    (∀ ident behind label, Aliased (Text.trim text) ident behind label →
      wrap quote text =
        if Text.mentions behind " as " then Text.trim text
        else ident.sql quote ++ " AS " ++ label.sql quote) ∧
    ((∀ ident, parse (Text.trim text) ≠ .ok ident) →
      (∀ ident behind label, ¬Aliased (Text.trim text) ident behind label) →
      wrap quote text = Text.trim text) := by
  refine ⟨fun ident parsed => ?_, fun ident behind label aliased => ?_,
    fun noIdent noAlias => ?_⟩
  · apply eq_by_mark
    · intro unsplit
      exact wrap_unsplit unsplit parsed
    · intro left right split
      exact wrap_marked parsed split
  · apply eq_by_mark
    · intro noMark
      exact wrap_alias aliased noMark
    · intro left right split
      exact wrap_marked_alias aliased split
  · refine wrap_other noIdent fun left right split => ?_
    obtain ⟨mark, isMark, whole, -⟩ := splitAlias_eq_some split
    cases both : parseAliased (Text.trim (String.ofList left))
        (Text.trim (String.ofList right)) with
    | none => rfl
    | some pair =>
        obtain ⟨ident, other⟩ := pair
        obtain ⟨parsed, single, isAlias⟩ := parseAliased_eq_some_iff.mp both
        obtain ⟨label, rfl, named⟩ := isAlias_iff.mp isAlias
        refine absurd ⟨⟨left, mark, ?_, isMark, parsed⟩, single, named⟩
          (noAlias ident (String.ofList right) label)
        rw [String.toList_ofList]
        exact whole

theorem wrap_by_form_aliased :
    Aliased (Text.trim " u.name AS \"n as\"") ⟨[.plain "u", .plain "name"]⟩ "\"n as\""
        (.quoted "n as") ∧
      wrap .bracket " u.name AS \"n as\"" = "[u].[name] AS [n as]" :=
  have aliased : Aliased (Text.trim " u.name AS \"n as\"") ⟨[.plain "u", .plain "name"]⟩
      "\"n as\"" (.quoted "n as") :=
    { marked := ⟨['u', '.', 'n', 'a', 'm', 'e'], [' ', 'A', 'S', ' '], by decide +kernel,
        by unfold AliasMark; decide, Outcome.except_of_toOption (by decide +kernel)⟩
      single := Outcome.except_of_toOption (by decide +kernel)
      named := nofun }
  ⟨aliased, ((wrap_by_form .bracket " u.name AS \"n as\"").2.1 _ _ _ aliased).trans
    (by decide +kernel)⟩

theorem quoted_mark_is_kept :
    parse (Text.trim "\"first as last\"") = .ok ⟨[.quoted "first as last"]⟩ ∧
      wrap .backtick "\"first as last\"" = "\"first as last\"" ∧
      (⟨[.quoted "first as last"]⟩ : Ident).sql .backtick = "\x60first as last\x60" ∧
      ("\"first as last\"" : String) ≠ "\x60first as last\x60" :=
  ⟨Outcome.except_of_toOption (by decide +kernel), by decide +kernel, by decide +kernel,
    by decide +kernel⟩

end Ident

end SqlBuilder
