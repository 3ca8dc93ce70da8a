import SqlBuilder.Proofs.Outcome
import SqlBuilder.Proofs.Spelling

/-!
# Quoted identifiers are read back

In the quotes of a dialect a closing quote within a name is doubled and
nothing else is changed.  A reader that knows only this gets the names of an
identifier back from its text, whatever they hold, and nothing is left over.
In double quotes the text is an identifier itself, with all its names quoted.
-/

namespace SqlBuilder

/-! ## Reading quoted names -/

namespace Quote

/-- The quotes of the built-in dialects. -/
def styles : List Quote := [.double, .backtick, .bracket]

mutual

/--
Read parts with single dots between them: their names, where a bare star has
none, and the text behind them.
-/
def readParts (quote : Quote) : List Char → Option (List (Option String) × List Char)
  | [] => none
  | c :: cs =>
    if c = quote.opening then
      (quote.readName cs).map fun (name, names, rest) => (some (String.ofList name) :: names, rest)
    else if c = '*' then
      (quote.readFurther cs).map fun (names, rest) => (none :: names, rest)
    else none
termination_by structural cs => cs

/--
Read a name from behind its opening quote, and the parts behind it.  It ends
at the first closing quote that is not doubled.
-/
def readName (quote : Quote) : List Char → Option (List Char × List (Option String) × List Char)
  | [] => none
  | [c] => if c = quote.closing then some ([], [], []) else none
  | c :: d :: cs =>
    if c = quote.closing then
      if d = quote.closing then (quote.readName cs).map fun (name, behind) => (c :: name, behind)
      else (quote.readFurther (d :: cs)).map fun behind => ([], behind)
    else (quote.readName (d :: cs)).map fun (name, behind) => (c :: name, behind)
termination_by structural cs => cs

/-- Read what follows a part: further parts behind a dot, or else none. -/
def readFurther (quote : Quote) : List Char → Option (List (Option String) × List Char)
  | '.' :: cs => quote.readParts cs
  | cs => some ([], cs)
termination_by structural cs => cs

end

variable {quote : Quote}

theorem readName_closed {rest : List Char} (ends : rest.head? ≠ some quote.closing) :
    quote.readName (quote.closing :: rest) =
      (quote.readFurther rest).map fun behind => ([], behind) := by
  cases rest with
  | nil => simp [readName, readFurther]
  | cons d rest =>
      have other : d ≠ quote.closing := by simpa using ends
      rw [readName, if_pos rfl, if_neg other]

theorem readName_doubled (rest : List Char) :
    quote.readName (quote.closing :: quote.closing :: rest) =
      (quote.readName rest).map fun (name, behind) => (quote.closing :: name, behind) := by
  rw [readName, if_pos rfl, if_pos rfl]

theorem readName_other {c : Char} (rest : List Char) (other : c ≠ quote.closing) :
    quote.readName (c :: rest) =
      (quote.readName rest).map fun (name, behind) => (c :: name, behind) := by
  cases rest with
  | nil => simp [readName, other]
  | cons d rest => rw [readName, if_neg other]

/-- A name is read up to its closing quote, its doubled quotes undone. -/
theorem readName_enclosed (name : List Char) {rest : List Char}
    (ends : rest.head? ≠ some quote.closing) :
    quote.readName (quote.doubled name ++ quote.closing :: rest) =
      (quote.readFurther rest).map fun behind => (name, behind) := by
  induction name with
  | nil => exact readName_closed ends
  | cons c name ih =>
      by_cases closing : c = quote.closing
      · rw [doubled, if_pos closing, closing, List.cons_append, List.cons_append,
          readName_doubled, ih, Option.map_map]
        rfl
      · rw [doubled, if_neg closing, List.cons_append, readName_other _ closing, ih,
          Option.map_map]
        rfl

end Quote

/-! ## The text of an identifier -/

namespace Part

variable {quote : Quote}

/-- The name of a part; a star has none. -/
def name : Part → Option String
  | .plain name => some name
  | .quoted name => some name
  | .star => none

/-- The part with its name in quotes. -/
def inQuotes : Part → Part
  | .plain name => .quoted name
  | .quoted name => .quoted name
  | .star => .star

theorem toList_sql_star : (Part.star.sql quote).toList = ['*'] := by
  simp [sql]

theorem eq_of_name {part : Part} {name : String} (named : part.name = some name) :
    part = .plain name ∨ part = .quoted name := by
  cases part with
  | star => cases named
  | plain other => exact .inl (congrArg plain (Option.some.inj named))
  | quoted other => exact .inr (congrArg quoted (Option.some.inj named))

theorem toList_sql_named {part : Part} {name : String} (named : part.name = some name) :
    (part.sql quote).toList =
      quote.opening :: quote.doubled name.toList ++ [quote.closing] := by
  have enclosed : part.sql quote = quote.enclose name := by
    rcases eq_of_name named with rfl | rfl <;> rfl
  rw [enclosed, Quote.enclose, String.toList_ofList]

theorem eq_star_of_name {part : Part} (unnamed : part.name = none) : part = .star := by
  cases part <;> trivial

theorem sql_inQuotes (part : Part) : part.inQuotes.sql quote = part.sql quote := by
  cases part <;> rfl

end Part

namespace Ident

variable {quote : Quote}

/-- The identifier with all its names in quotes. -/
def allInQuotes (ident : Ident) : Ident :=
  ⟨ident.parts.map Part.inQuotes⟩

theorem sql_allInQuotes (ident : Ident) : ident.allInQuotes.sql quote = ident.sql quote := by
  simp only [sql, allInQuotes, List.map_map, Function.comp_def, Part.sql_inQuotes]

theorem sql_last (part : Part) : (⟨[part]⟩ : Ident).sql quote = part.sql quote := by
  rw [sql, List.map_singleton, String.intercalate_singleton]

theorem toList_sql_dot (part : Part) {parts : List Part} (more : parts ≠ []) :
    ((⟨part :: parts⟩ : Ident).sql quote).toList =
      (part.sql quote).toList ++ '.' :: ((⟨parts⟩ : Ident).sql quote).toList := by
  obtain ⟨second, others, rfl⟩ := List.exists_cons_of_ne_nil more
  simp [sql, String.toList_append]

end Ident

/-! ## Reading the text of an identifier -/

namespace Quote

variable {quote : Quote}

/-- A part is read back. -/
theorem readParts_part (notStar : quote.opening ≠ '*') (part : Part) {rest : List Char}
    (ends : rest.head? ≠ some quote.closing) :
    quote.readParts ((part.sql quote).toList ++ rest) =
      (quote.readFurther rest).map fun (names, left) => (part.name :: names, left) := by
  cases named : part.name with
  | none =>
      obtain rfl := Part.eq_star_of_name named
      rw [Part.toList_sql_star, List.singleton_append, readParts, if_neg notStar.symm, if_pos rfl]
  | some name =>
      have text : (part.sql quote).toList ++ rest =
          quote.opening :: (quote.doubled name.toList ++ quote.closing :: rest) := by
        simp [Part.toList_sql_named named]
      rw [text, readParts, if_pos rfl, readName_enclosed _ ends, Option.map_map]
      simp only [Function.comp_def, String.ofList_toList]

/-- The parts of an identifier are read back, and nothing behind them. -/
theorem readParts_sql (notStar : quote.opening ≠ '*') (notDot : quote.closing ≠ '.')
    {parts : List Part} (nonempty : parts ≠ []) :
    quote.readParts ((⟨parts⟩ : Ident).sql quote).toList = some (parts.map Part.name, []) := by
  induction parts with
  | nil => exact absurd rfl nonempty
  | cons part parts ih =>
      cases parts with
      | nil =>
          have ends : ([] : List Char).head? ≠ some quote.closing := nofun
          have read := readParts_part notStar part ends
          rw [List.append_nil] at read
          rw [Ident.sql_last, read, readFurther]
          · rfl
          · nofun
      | cons second others =>
          have ends : ('.' :: ((⟨second :: others⟩ : Ident).sql quote).toList).head? ≠
              some quote.closing := by
            simpa using notDot.symm
          rw [Ident.toList_sql_dot part (List.cons_ne_nil second others),
            readParts_part notStar part ends, readFurther, ih (List.cons_ne_nil second others)]
          rfl

theorem marks_of_styles (builtIn : quote ∈ styles) :
    quote.opening ≠ '*' ∧ quote.closing ≠ '.' := by
  simp only [styles, List.mem_cons, List.not_mem_nil, or_false] at builtIn
  rcases builtIn with rfl | rfl | rfl <;> decide

end Quote

/-! ## Double quotes -/

theorem quotedBody_doubled (name : List Char) : QuotedBody (Quote.double.doubled name) name := by
  induction name with
  | nil => exact .nil
  | cons c name ih =>
      by_cases quote : c = '"'
      · subst quote
        exact .quote ih
      · have single : Quote.double.doubled (c :: name) = c :: Quote.double.doubled name := if_neg quote
        rw [single]
        exact .other quote ih

theorem Quote.mem_of_mem_doubled {quote : Quote} {name : List Char} {c : Char}
    (mem : c ∈ quote.doubled name) : c ∈ name := by
  induction name with
  | nil => exact mem
  | cons d name ih =>
      have either : c = d ∨ c ∈ quote.doubled name := by
        rw [doubled] at mem
        split at mem <;> simpa using mem
      exact List.mem_cons.mpr (either.imp_right ih)

theorem Quote.doubled_ne_nil {quote : Quote} {name : List Char} (nonempty : name ≠ []) :
    quote.doubled name ≠ [] := by
  cases name with
  | nil => exact absurd rfl nonempty
  | cons c name =>
      rw [doubled]
      split <;> exact List.cons_ne_nil _ _

theorem QuotedBody.name_ne_nil {body name : List Char} (inside : QuotedBody body name)
    (nonempty : body ≠ []) : name ≠ [] := by
  cases inside with
  | nil => exact absurd rfl nonempty
  | quote => exact List.cons_ne_nil _ _
  | other => exact List.cons_ne_nil _ _

theorem QuotedBody.mem {body name : List Char} (inside : QuotedBody body name) {c : Char}
    (mem : c ∈ name) : c ∈ body := by
  induction inside with
  | nil => exact mem
  | quote inside ih =>
      rcases List.mem_cons.mp mem with rfl | mem
      · exact List.mem_cons_self
      · exact List.mem_cons_of_mem _ (List.mem_cons_of_mem _ (ih mem))
  | other notQuote inside ih =>
      rcases List.mem_cons.mp mem with rfl | mem
      · exact List.mem_cons_self
      · exact List.mem_cons_of_mem _ (ih mem)

namespace Part

/-- What is spelled is a star, or it has a name that is not empty and stands in the text. -/
theorem Spelled.named {part : Part} {text : List Char} (spelled : part.Spelled text) :
    part = .star ∨ ∃ name : String, part.name = some name ∧ name.toList ≠ [] ∧
      ∀ c ∈ name.toList, c ∈ text := by
  cases spelled with
  | star => exact .inl rfl
  | @plain c cs start more =>
      refine .inr ⟨String.ofList (c :: cs), rfl, ?_, ?_⟩ <;> simp
  | @quoted body name inside nonempty =>
      refine .inr ⟨String.ofList name, rfl, ?_, ?_⟩
      · rw [String.toList_ofList]
        exact inside.name_ne_nil nonempty
      · intro c mem
        rw [String.toList_ofList] at mem
        simp [inside.mem mem]

/-- The name of a part in double quotes spells the part in quotes. -/
theorem Spelled.inQuotes {part : Part} {text : List Char} (spelled : part.Spelled text) :
    part.inQuotes.Spelled (part.sql .double).toList := by
  rcases spelled.named with rfl | ⟨name, named, nonempty, _⟩
  · rw [toList_sql_star]
    exact .star
  · have quoted : part.inQuotes = .quoted name := by
      rcases eq_of_name named with rfl | rfl <;> rfl
    have inside := quotedBody_doubled name.toList
    have whole := Spelled.quoted inside (Quote.doubled_ne_nil nonempty)
    rw [String.ofList_toList] at whole
    rw [quoted, toList_sql_named named]
    exact whole

theorem inQuotes_ne_star {part : Part} (notStar : part ≠ .star) : part.inQuotes ≠ .star := by
  cases part with
  | star => exact absurd rfl notStar
  | plain name => nofun
  | quoted name => nofun

/-- The text of a part in quotes holds what stands in the part, and quotes. -/
theorem Spelled.mem_of_mem_sql {part : Part} {text : List Char} (spelled : part.Spelled text)
    {quote : Quote} {c : Char} (mem : c ∈ (part.sql quote).toList) :
    c ∈ text ∨ c = quote.opening ∨ c = quote.closing := by
  rcases spelled.named with rfl | ⟨name, named, _, within⟩
  · cases spelled
    rw [toList_sql_star] at mem
    exact .inl mem
  · rw [toList_sql_named named, List.mem_append, List.mem_cons, List.mem_singleton] at mem
    rcases mem with (opening | mem) | closing
    · exact .inr (.inl opening)
    · exact .inl (within c (Quote.mem_of_mem_doubled mem))
    · exact .inr (.inr closing)

end Part

namespace Ident

theorem Spelled.parts_ne_nil {parts : List Part} {text : List Char}
    (spelled : Spelled parts text) : parts ≠ [] := by
  cases spelled <;> exact List.cons_ne_nil _ _

/-- An identifier in double quotes spells its parts in quotes. -/
theorem Spelled.inQuotes {parts : List Part} {text : List Char} (spelled : Spelled parts text) :
    Spelled (parts.map Part.inQuotes) ((⟨parts⟩ : Ident).sql .double).toList := by
  induction spelled with
  | @last part text spelled =>
      rw [sql_last]
      exact .last spelled.inQuotes
  | @dot part text parts rest spelled notStar behind ih =>
      rw [toList_sql_dot part behind.parts_ne_nil, List.map_cons]
      exact .dot spelled.inQuotes (Part.inQuotes_ne_star notStar) ih

/-- The text of an identifier in quotes holds what stands in the identifier, and quotes. -/
theorem Spelled.mem_of_mem_sql {parts : List Part} {text : List Char}
    (spelled : Spelled parts text) {quote : Quote} {c : Char}
    (mem : c ∈ ((⟨parts⟩ : Ident).sql quote).toList) :
    c ∈ text ∨ c = quote.opening ∨ c = quote.closing := by
  induction spelled with
  | @last part text spelled =>
      rw [sql_last] at mem
      exact spelled.mem_of_mem_sql mem
  | @dot part text parts rest spelled notStar behind ih =>
      rw [toList_sql_dot part behind.parts_ne_nil, List.mem_append, List.mem_cons] at mem
      rw [List.mem_append, List.mem_cons]
      rcases mem with front | dot | back
      · rcases spelled.mem_of_mem_sql front with within | mark
        · exact .inl (.inl within)
        · exact .inr mark
      · exact .inl (.inr (.inl dot))
      · rcases ih back with within | mark
        · exact .inl (.inr (.inr within))
        · exact .inr mark

theorem parse_sql_double {text : String} {ident : Ident} (parsed : parse text = .ok ident) :
    parse (ident.sql .double) = .ok ident.allInQuotes := by
  obtain ⟨noNul, spelled⟩ := parse_eq_ok_iff.mp parsed
  refine parse_eq_ok_iff.mpr ⟨?_, spelled.inQuotes⟩
  intro nul
  rcases spelled.mem_of_mem_sql nul with within | opening | closing
  · exact noNul within
  · cases opening
  · cases closing

/--
What is read as an identifier is read back from its text in the quotes of any
dialect, name by name and to its end.  In double quotes it is the identifier
itself that is read, with its names in quotes, and its text stays the same.
-/
theorem sql_reads_back {text : String} {ident : Ident} (parsed : parse text = .ok ident) :
    (∀ quote ∈ Quote.styles,
        quote.readParts (ident.sql quote).toList = some (ident.parts.map Part.name, [])) ∧
      parse (ident.sql .double) = .ok ident.allInQuotes ∧
      ident.allInQuotes.sql .double = ident.sql .double := by
  obtain ⟨_, spelled⟩ := parse_eq_ok_iff.mp parsed
  refine ⟨fun quote builtIn => ?_, parse_sql_double parsed, sql_allInQuotes ident⟩
  obtain ⟨notStar, notDot⟩ := Quote.marks_of_styles builtIn
  exact Quote.readParts_sql notStar notDot spelled.parts_ne_nil

theorem sql_reads_back_awkward :
    let awkward : Ident := ⟨[.plain "u", .quoted "a.]b \" \x60*", .star]⟩
    parse "u.\"a.]b \"\" \x60*\".*" = .ok awkward ∧
      (∀ quote ∈ Quote.styles, quote.readParts (awkward.sql quote).toList =
        some ([some "u", some "a.]b \" \x60*", none], [])) ∧
      parse (awkward.sql .double) = .ok awkward.allInQuotes ∧
      awkward.allInQuotes.sql .double = awkward.sql .double :=
  have parsed : parse "u.\"a.]b \"\" \x60*\".*" =
      .ok ⟨[.plain "u", .quoted "a.]b \" \x60*", .star]⟩ :=
    Outcome.except_of_toOption (by decide +kernel)
  ⟨parsed, sql_reads_back parsed⟩

end Ident

end SqlBuilder
