import SqlBuilder.Ident.Parse

/-!
# The spelling of identifiers

An identifier is spelled by its parts with single dots between them: plain
names, names between double quotes, and a star in the last place.  Reading
accepts exactly the texts that are spelled in this way, and gives the parts
that they spell.  Every other text breaks at some place: where a part should
start, within quotes, or behind a part.
-/

namespace SqlBuilder

/-! ## The grammar -/

/-- `A` to `Z`, `a` to `z` and the low line start a plain name. -/
def StartsName (c : Char) : Prop :=
  ('A' ≤ c ∧ c ≤ 'Z') ∨ ('a' ≤ c ∧ c ≤ 'z') ∨ c = '_'

/-- These, the digits and the dollar sign go on with it. -/
def GoesOnName (c : Char) : Prop :=
  StartsName c ∨ ('0' ≤ c ∧ c ≤ '9') ∨ c = '$'

/-- What stands between double quotes, and the name that it stands for. -/
inductive QuotedBody : List Char → List Char → Prop where
  | nil : QuotedBody [] []
  | quote {body name : List Char} (behind : QuotedBody body name) :
      QuotedBody ('"' :: '"' :: body) ('"' :: name)
  | other {c : Char} {body name : List Char} (notQuote : c ≠ '"') (behind : QuotedBody body name) :
      QuotedBody (c :: body) (c :: name)

namespace Part

/-- The text of a part. -/
inductive Spelled : Part → List Char → Prop where
  | star : Spelled .star ['*']
  | plain {c : Char} {cs : List Char} (start : StartsName c) (more : ∀ d ∈ cs, GoesOnName d) :
      Spelled (.plain (String.ofList (c :: cs))) (c :: cs)
  | quoted {body name : List Char} (inside : QuotedBody body name) (nonempty : body ≠ []) :
      Spelled (.quoted (String.ofList name)) ('"' :: body ++ ['"'])

/-- Behind the text of a part this character would belong to a longer part. -/
def GoesOn : Part → Char → Prop
  | .plain _, c => GoesOnName c
  | .quoted _, c => c = '"'
  | .star, _ => False

end Part

namespace Ident

/-- The text of the parts of an identifier.  A star has no part behind it. -/
inductive Spelled : List Part → List Char → Prop where
  | last {part : Part} {text : List Char} (spelled : part.Spelled text) : Spelled [part] text
  | dot {part : Part} {text : List Char} {parts : List Part} {rest : List Char}
      (spelled : part.Spelled text) (notStar : part ≠ .star) (behind : Spelled parts rest) :
      Spelled (part :: parts) (text ++ '.' :: rest)

/-- A text that breaks the grammar, by the place where it does. -/
inductive Broken : List Char → Prop where
  /-- No part stands where one should: the text is empty or ends with a dot. -/
  | nothing : Broken []
  /-- No part starts here, as at a dot that leads or follows another. -/
  | start {c : Char} (rest : List Char) (notName : ¬StartsName c) (notStar : c ≠ '*')
      (notQuote : c ≠ '"') : Broken (c :: rest)
  /-- There is no name between the quotes. -/
  | emptyQuotes {rest : List Char} (closed : rest.head? ≠ some '"') : Broken ('"' :: '"' :: rest)
  /-- The quotes are not closed. -/
  | unclosed {body name : List Char} (inside : QuotedBody body name) : Broken ('"' :: body)
  /-- Something follows the star. -/
  | afterStar (c : Char) (rest : List Char) : Broken ('*' :: c :: rest)
  /-- Behind a part stands what is neither a part of it nor a dot. -/
  | behind {part : Part} {text : List Char} {c : Char} (rest : List Char)
      (spelled : part.Spelled text) (notStar : part ≠ .star) (ends : ¬part.GoesOn c)
      (notDot : c ≠ '.') : Broken (text ++ c :: rest)
  /-- The text breaks behind a part and its dot. -/
  | later {part : Part} {text rest : List Char} (spelled : part.Spelled text)
      (notStar : part ≠ .star) (broken : Broken rest) : Broken (text ++ '.' :: rest)

end Ident

/-! ## Characters -/

theorem isNameStart_iff (c : Char) : Text.isNameStart c = true ↔ StartsName c := by
  have ranges : Text.isNameStart c =
      (c == '_' || (decide ('A' ≤ c ∧ c ≤ 'Z') || (decide ('a' ≤ c) && decide (c ≤ 'z')))) := rfl
  simp only [ranges, StartsName, Bool.or_eq_true, Bool.and_eq_true, beq_iff_eq, decide_eq_true_eq]
  grind

theorem isPlainChar_iff (c : Char) : Ident.isPlainChar c = true ↔ GoesOnName c := by
  have ranges : Ident.isPlainChar c =
      ((c == '_' || (c.isAlpha || (decide ('0' ≤ c) && decide (c ≤ '9')))) || c == '$') := rfl
  have start : (c == '_' || c.isAlpha) = true ↔ StartsName c := isNameStart_iff c
  rw [Bool.or_eq_true, beq_iff_eq] at start
  simp only [ranges, GoesOnName, Bool.or_eq_true, Bool.and_eq_true, beq_iff_eq, decide_eq_true_eq]
  grind

instance (c : Char) : Decidable (StartsName c) :=
  decidable_of_iff _ (isNameStart_iff c)

instance (c : Char) : Decidable (GoesOnName c) :=
  decidable_of_iff _ (isPlainChar_iff c)

theorem StartsName.ne {c d : Char} (start : StartsName c) (other : ¬StartsName d) : c ≠ d := by
  rintro rfl
  exact other start

theorem GoesOnName.ne {c d : Char} (more : GoesOnName c) (other : ¬GoesOnName d) : c ≠ d := by
  rintro rfl
  exact other more

/-! ## Steps of reading -/

namespace Ident

theorem atPart_quote (cs : List Char) :
    atPart ('"' :: cs) =
      if closesAtOnce cs then .error .emptyQuotes else quotedPart <$> inQuotes cs := by
  rw [atPart]

theorem atPart_name {c : Char} (cs : List Char) (start : StartsName c) :
    atPart (c :: cs) = (plainPart ∘ prepend c) <$> inName cs := by
  have notDot : c ≠ '.' := start.ne (by decide)
  have isStart : Text.isNameStart c = true := (isNameStart_iff c).mpr start
  rw [atPart, if_neg notDot, if_pos isStart]
  · exact start.ne (by decide)
  · exact start.ne (by decide)

theorem atPart_other {c : Char} (cs : List Char) (notName : ¬StartsName c) (notStar : c ≠ '*')
    (notQuote : c ≠ '"') : ∃ fault, atPart (c :: cs) = .error fault := by
  have notStart : Text.isNameStart c ≠ true := fun start => notName ((isNameStart_iff c).mp start)
  rw [atPart, if_neg notStart]
  · split
    · exact ⟨_, rfl⟩
    · exact ⟨_, rfl⟩
  · exact notStar
  · exact notQuote

theorem inName_goesOn {c : Char} (cs : List Char) (more : GoesOnName c) :
    inName (c :: cs) = prepend c <$> inName cs := by
  have notDot : c ≠ '.' := more.ne (by decide)
  rw [inName, if_pos ((isPlainChar_iff c).mpr more)]
  exact notDot

theorem inName_other {c : Char} (cs : List Char) (ends : ¬GoesOnName c) (notDot : c ≠ '.') :
    inName (c :: cs) = .error (.badCharacter c) := by
  rw [inName, if_neg (fun more => ends ((isPlainChar_iff c).mp more))]
  exact notDot

theorem inQuotes_closed {rest : List Char} (closed : rest.head? ≠ some '"') :
    inQuotes ('"' :: rest) = (([], ·)) <$> atDot rest := by
  rw [inQuotes]
  rintro cs rfl
  exact closed rfl

theorem inQuotes_other {c : Char} (cs : List Char) (notQuote : c ≠ '"') :
    inQuotes (c :: cs) = prepend c <$> inQuotes cs := by
  rw [inQuotes]
  · rintro cs rfl
    exact absurd rfl notQuote
  · exact notQuote

theorem atDot_other {c : Char} (cs : List Char) (notDot : c ≠ '.') :
    atDot (c :: cs) = .error (.missingDot c) := by
  rw [atDot]
  exact notDot

/-! ## What reading says of a text -/

/-- A property of what is read, or else one of the text. -/
def Verdict {α : Type} (good : α → Prop) (bad : Prop) : Except Fault α → Prop
  | .ok read => good read
  | .error _ => bad

theorem Verdict.map {α β : Type} {good : α → Prop} {bad : Prop} {good' : β → Prop} {bad' : Prop}
    {f : α → β} {reading : Except Fault α} (verdict : Verdict good bad reading)
    (keeps : ∀ read, good read → good' (f read)) (breaks : bad → bad') :
    Verdict good' bad' (f <$> reading) := by
  cases reading with
  | ok read => exact keeps read verdict
  | error fault => exact breaks verdict

/-- What may stand behind a part other than the star. -/
inductive Behind : List Part → List Char → Prop where
  | nothing : Behind [] []
  | dot {parts : List Part} {rest : List Char} (spelled : Spelled parts rest) :
      Behind parts ('.' :: rest)

/-- What may not, where some characters go on with the part. -/
inductive BreaksBehind (goesOn : Char → Prop) : List Char → Prop where
  | character {c : Char} (rest : List Char) (ends : ¬goesOn c) (notDot : c ≠ '.') :
      BreaksBehind goesOn (c :: rest)
  | dot {rest : List Char} (broken : Broken rest) : BreaksBehind goesOn ('.' :: rest)

theorem Behind.spelled {part : Part} {text : List Char} {parts : List Part} {rest : List Char}
    (behind : Behind parts rest) (spelled : part.Spelled text) (notStar : part ≠ .star) :
    Spelled (part :: parts) (text ++ rest) := by
  cases behind with
  | nothing =>
      rw [List.append_nil]
      exact .last spelled
  | dot further => exact .dot spelled notStar further

theorem BreaksBehind.broken {part : Part} {text rest : List Char}
    (breaks : BreaksBehind part.GoesOn rest) (spelled : part.Spelled text)
    (notStar : part ≠ .star) : Broken (text ++ rest) := by
  cases breaks with
  | character rest ends notDot => exact .behind rest spelled notStar ends notDot
  | dot broken => exact .later spelled notStar broken

/-- The rest of a plain name, and the parts behind it. -/
def IsNameRest (cs : List Char) : List Char × List Part → Prop
  | (name, parts) => ∃ rest, cs = name ++ rest ∧ (∀ c ∈ name, GoesOnName c) ∧ Behind parts rest

/-- The text breaks behind the rest of a plain name. -/
def BreaksName (cs : List Char) : Prop :=
  ∃ name rest, cs = name ++ rest ∧ (∀ c ∈ name, GoesOnName c) ∧ BreaksBehind GoesOnName rest

/-- The rest of a quoted name up to its closing quote, and the parts behind it. -/
def IsQuotesRest (cs : List Char) : List Char × List Part → Prop
  | (name, parts) => ∃ body rest, cs = body ++ '"' :: rest ∧ QuotedBody body name ∧
      Behind parts rest

/-- The text breaks within or behind the rest of a quoted name. -/
def BreaksQuotes (cs : List Char) : Prop :=
  ∃ body name, QuotedBody body name ∧
    (cs = body ∨ ∃ rest, cs = body ++ '"' :: rest ∧ BreaksBehind (· = '"') rest)

theorem IsNameRest.cons {c : Char} {cs : List Char} (more : GoesOnName c) :
    ∀ read, IsNameRest cs read → IsNameRest (c :: cs) (prepend c read)
  | _, ⟨rest, split, all, behind⟩ =>
      ⟨rest, congrArg (c :: ·) split, List.forall_mem_cons.mpr ⟨more, all⟩, behind⟩

theorem BreaksName.cons {c : Char} {cs : List Char} (more : GoesOnName c) :
    BreaksName cs → BreaksName (c :: cs)
  | ⟨name, rest, split, all, breaks⟩ =>
      ⟨c :: name, rest, congrArg (c :: ·) split, List.forall_mem_cons.mpr ⟨more, all⟩, breaks⟩

theorem IsNameRest.spelled {c : Char} {cs : List Char} (start : StartsName c) :
    ∀ read, IsNameRest cs read → Spelled (plainPart (prepend c read)) (c :: cs)
  | (name, _), ⟨rest, split, all, behind⟩ => by
      have spelled : Part.Spelled (.plain (String.ofList (c :: name))) (c :: name) :=
        .plain start all
      subst split
      exact behind.spelled spelled nofun

theorem BreaksName.broken {c : Char} {cs : List Char} (start : StartsName c) :
    BreaksName cs → Broken (c :: cs)
  | ⟨name, rest, split, all, breaks⟩ => by
      have spelled : Part.Spelled (.plain (String.ofList (c :: name))) (c :: name) :=
        .plain start all
      have behind : BreaksBehind (Part.plain (String.ofList (c :: name))).GoesOn rest := breaks
      subst split
      exact behind.broken spelled nofun

theorem IsQuotesRest.quote {cs : List Char} :
    ∀ read, IsQuotesRest cs read → IsQuotesRest ('"' :: '"' :: cs) (prepend '"' read)
  | _, ⟨body, rest, split, inside, behind⟩ =>
      ⟨'"' :: '"' :: body, rest, congrArg ('"' :: '"' :: ·) split, .quote inside, behind⟩

theorem IsQuotesRest.other {c : Char} {cs : List Char} (notQuote : c ≠ '"') :
    ∀ read, IsQuotesRest cs read → IsQuotesRest (c :: cs) (prepend c read)
  | _, ⟨body, rest, split, inside, behind⟩ =>
      ⟨c :: body, rest, congrArg (c :: ·) split, .other notQuote inside, behind⟩

theorem BreaksQuotes.quote {cs : List Char} :
    BreaksQuotes cs → BreaksQuotes ('"' :: '"' :: cs)
  | ⟨body, name, inside, unclosed⟩ => by
      refine ⟨'"' :: '"' :: body, '"' :: name, .quote inside, ?_⟩
      rcases unclosed with rfl | ⟨rest, rfl, breaks⟩
      · exact .inl rfl
      · exact .inr ⟨rest, rfl, breaks⟩

theorem BreaksQuotes.other {c : Char} {cs : List Char} (notQuote : c ≠ '"') :
    BreaksQuotes cs → BreaksQuotes (c :: cs)
  | ⟨body, name, inside, unclosed⟩ => by
      refine ⟨c :: body, c :: name, .other notQuote inside, ?_⟩
      rcases unclosed with rfl | ⟨rest, rfl, breaks⟩
      · exact .inl rfl
      · exact .inr ⟨rest, rfl, breaks⟩

/-- Quotes hold nothing exactly if they close at once. -/
theorem closesAtOnce_iff {cs : List Char} :
    closesAtOnce cs = true ↔ ∃ rest, cs = '"' :: rest ∧ rest.head? ≠ some '"' := by
  fun_cases closesAtOnce cs with
  | case1 rest => simp
  | case2 rest single =>
      refine ⟨fun _ => ⟨rest, rfl, ?_⟩, fun _ => rfl⟩
      intro quote
      obtain ⟨more, rfl⟩ := List.head?_eq_some_iff.mp quote
      exact single more rfl
  | case3 _ _ notQuote =>
      constructor
      · intro closes
        cases closes
      · rintro ⟨rest, rfl, _⟩
        exact (notQuote rest rfl).elim

theorem Behind.closed {parts : List Part} {rest : List Char} (behind : Behind parts rest) :
    rest.head? ≠ some '"' := by
  cases behind <;> simp

theorem BreaksBehind.closed {rest : List Char} (breaks : BreaksBehind (· = '"') rest) :
    rest.head? ≠ some '"' := by
  cases breaks with
  | character rest ends => simpa using ends
  | dot => simp

/-- Quotes that do not close at once hold something. -/
theorem quoted_spelled {body name rest : List Char} (inside : QuotedBody body name)
    (closed : rest.head? ≠ some '"') (more : closesAtOnce (body ++ '"' :: rest) ≠ true) :
    Part.Spelled (.quoted (String.ofList name)) ('"' :: body ++ ['"']) := by
  refine .quoted inside ?_
  rintro rfl
  exact more (closesAtOnce_iff.mpr ⟨rest, rfl, closed⟩)

theorem IsQuotesRest.spelled {cs : List Char} (more : closesAtOnce cs ≠ true) :
    ∀ read, IsQuotesRest cs read → Spelled (quotedPart read) ('"' :: cs)
  | (name, _), ⟨body, rest, split, inside, behind⟩ => by
      subst split
      have spelled := behind.spelled (quoted_spelled inside behind.closed more) nofun
      simpa [quotedPart] using spelled

theorem BreaksQuotes.broken {cs : List Char} (more : closesAtOnce cs ≠ true) :
    BreaksQuotes cs → Broken ('"' :: cs)
  | ⟨body, name, inside, unclosed⟩ => by
      rcases unclosed with rfl | ⟨rest, rfl, breaks⟩
      · exact .unclosed inside
      · have behind : BreaksBehind (Part.quoted (String.ofList name)).GoesOn rest := breaks
        have broken := behind.broken (quoted_spelled inside breaks.closed more) nofun
        simpa using broken

/-- Behind a dot there are further parts, or the text breaks. -/
theorem verdict_dot (goesOn : Char → Prop) {cs : List Char}
    (verdict : Verdict (Spelled · cs) (Broken cs) (atPart cs)) :
    Verdict (Behind · ('.' :: cs)) (BreaksBehind goesOn ('.' :: cs)) (atDot ('.' :: cs)) := by
  rw [atDot]
  split
  · next nothing =>
      rw [List.isEmpty_iff.mp nothing]
      exact BreaksBehind.dot .nothing
  · cases reading : atPart cs with
    | ok parts =>
        rw [reading] at verdict
        exact Behind.dot verdict
    | error fault =>
        rw [reading] at verdict
        exact BreaksBehind.dot verdict

theorem inName_dot (cs : List Char) : inName ('.' :: cs) = (([], ·)) <$> atDot ('.' :: cs) := by
  rw [inName, atDot]
  split
  · rfl
  · rfl

mutual

/-- The start of a part: either its text and what follows are spelled, or they break. -/
theorem verdict_atPart : ∀ cs : List Char, Verdict (Spelled · cs) (Broken cs) (atPart cs)
  | [] => Broken.nothing
  | c :: cs => by
      by_cases star : c = '*'
      · subst star
        rw [atPart]
        cases cs with
        | nil => exact Spelled.last .star
        | cons d ds => exact Broken.afterStar d ds
      by_cases quote : c = '"'
      · subst quote
        rw [atPart_quote]
        split
        · next atOnce =>
            obtain ⟨rest, rfl, closed⟩ := closesAtOnce_iff.mp atOnce
            exact Broken.emptyQuotes closed
        · next more =>
            exact (verdict_inQuotes cs).map (IsQuotesRest.spelled more)
              (BreaksQuotes.broken more)
      by_cases start : StartsName c
      · rw [atPart_name cs start]
        exact (verdict_inName cs).map (IsNameRest.spelled start) (BreaksName.broken start)
      · obtain ⟨fault, failed⟩ := atPart_other cs start star quote
        rw [failed]
        exact Broken.start cs start star quote
termination_by structural cs => cs

theorem verdict_inName : ∀ cs : List Char, Verdict (IsNameRest cs) (BreaksName cs) (inName cs)
  | [] => ⟨[], rfl, nofun, .nothing⟩
  | c :: cs => by
      by_cases dot : c = '.'
      · subst dot
        rw [inName_dot]
        exact (verdict_dot GoesOnName (verdict_atPart cs)).map
          (fun _ behind => ⟨'.' :: cs, rfl, nofun, behind⟩)
          (fun breaks => ⟨[], '.' :: cs, rfl, nofun, breaks⟩)
      by_cases more : GoesOnName c
      · rw [inName_goesOn cs more]
        exact (verdict_inName cs).map (IsNameRest.cons more) (BreaksName.cons more)
      · rw [inName_other cs more dot]
        exact ⟨[], c :: cs, rfl, nofun, .character cs more dot⟩
termination_by structural cs => cs

theorem verdict_inQuotes : ∀ cs : List Char,
    Verdict (IsQuotesRest cs) (BreaksQuotes cs) (inQuotes cs)
  | [] => ⟨[], [], .nil, .inl rfl⟩
  | [c] => by
      by_cases quote : c = '"'
      · subst quote
        exact ⟨[], [], rfl, .nil, .nothing⟩
      · rw [inQuotes_other [] quote]
        exact BreaksQuotes.other quote ⟨[], [], .nil, .inl rfl⟩
  | c :: d :: cs => by
      by_cases quote : c = '"'
      · subst quote
        by_cases paired : d = '"'
        · subst paired
          exact (verdict_inQuotes cs).map IsQuotesRest.quote BreaksQuotes.quote
        · have closed : (d :: cs).head? ≠ some '"' := by simpa using paired
          rw [inQuotes_closed closed]
          exact (verdict_atDot (d :: cs) closed).map
            (fun _ behind => ⟨[], d :: cs, rfl, .nil, behind⟩)
            (fun breaks => ⟨[], [], .nil, .inr ⟨d :: cs, rfl, breaks⟩⟩)
      · rw [inQuotes_other (d :: cs) quote]
        exact (verdict_inQuotes (d :: cs)).map (IsQuotesRest.other quote)
          (BreaksQuotes.other quote)
termination_by structural cs => cs

theorem verdict_atDot : ∀ cs : List Char, cs.head? ≠ some '"' →
    Verdict (Behind · cs) (BreaksBehind (· = '"') cs) (atDot cs)
  | [], _ => Behind.nothing
  | c :: cs, closed => by
      by_cases dot : c = '.'
      · subst dot
        exact verdict_dot _ (verdict_atPart cs)
      · rw [atDot_other cs dot]
        have notQuote : c ≠ '"' := by simpa using closed
        exact BreaksBehind.character cs notQuote dot
termination_by structural cs => cs

end

/-! ## What is spelled is read -/

/-- Put the start of a name in front of the rest of it. -/
def prependAll (front : List Char) : List Char × List Part → List Char × List Part
  | (name, parts) => (front ++ name, parts)

/-- A plain name ends where nothing follows, or a dot. -/
theorem inName_ends {rest : List Char} (ends : ∀ c ∈ rest.head?, c = '.') :
    inName rest = (([], ·)) <$> atDot rest := by
  cases rest with
  | nil => rfl
  | cons c rest =>
      obtain rfl : c = '.' := ends c rfl
      exact inName_dot rest

theorem inName_append {front : List Char} (all : ∀ c ∈ front, GoesOnName c) (rest : List Char) :
    inName (front ++ rest) = prependAll front <$> inName rest := by
  induction front with
  | nil => exact (id_map (inName rest)).symm
  | cons c front ih =>
      obtain ⟨more, all⟩ := List.forall_mem_cons.mp all
      rw [List.cons_append, inName_goesOn _ more, ih all, ← comp_map]
      rfl

theorem inQuotes_append {body name : List Char} (inside : QuotedBody body name)
    (rest : List Char) : inQuotes (body ++ rest) = prependAll name <$> inQuotes rest := by
  induction inside with
  | nil => exact (id_map (inQuotes rest)).symm
  | quote inside ih =>
      rw [List.cons_append, List.cons_append, inQuotes, ih, ← comp_map]
      rfl
  | other notQuote inside ih =>
      rw [List.cons_append, inQuotes_other _ notQuote, ih, ← comp_map]
      rfl

theorem closesAtOnce_append {body name : List Char} (inside : QuotedBody body name)
    (nonempty : body ≠ []) (rest : List Char) : closesAtOnce (body ++ rest) = false := by
  cases inside with
  | nil => exact absurd rfl nonempty
  | quote => rfl
  | other notQuote =>
      rw [Bool.eq_false_iff, ne_eq, closesAtOnce_iff]
      rintro ⟨_, split, _⟩
      exact notQuote (List.cons.inj split).1

theorem atPart_plain {c : Char} {cs : List Char} (start : StartsName c)
    (more : ∀ d ∈ cs, GoesOnName d) (rest : List Char) :
    atPart (c :: cs ++ rest) = (plainPart ∘ prependAll (c :: cs)) <$> inName rest := by
  rw [List.cons_append, atPart_name _ start, inName_append more, ← comp_map]
  rfl

theorem atPart_quoted {body name : List Char} (inside : QuotedBody body name)
    (nonempty : body ≠ []) {rest : List Char} (closed : rest.head? ≠ some '"') :
    atPart ('"' :: body ++ ['"'] ++ rest) =
      (Part.quoted (String.ofList name) :: ·) <$> atDot rest := by
  have within : '"' :: body ++ ['"'] ++ rest = '"' :: (body ++ '"' :: rest) := by simp
  rw [within, atPart_quote, closesAtOnce_append inside nonempty, inQuotes_append inside,
    inQuotes_closed closed, if_neg Bool.false_ne_true, ← comp_map, ← comp_map]
  congr 1
  funext parts
  simp [prependAll, quotedPart]

/-- Behind a part that is at its end, reading goes on at the dot. -/
theorem atPart_append {part : Part} {text : List Char} (spelled : part.Spelled text)
    (notStar : part ≠ .star) {rest : List Char} (ends : ∀ c ∈ rest.head?, c = '.') :
    atPart (text ++ rest) = (part :: ·) <$> atDot rest := by
  cases spelled with
  | star => exact absurd rfl notStar
  | plain start more =>
      rw [atPart_plain start more, inName_ends ends, ← comp_map]
      congr 1
      funext parts
      simp [prependAll, plainPart]
  | quoted inside nonempty =>
      refine atPart_quoted inside nonempty ?_
      intro quote
      cases ends '"' quote

theorem atPart_breaks {part : Part} {text : List Char} (spelled : part.Spelled text)
    (notStar : part ≠ .star) {c : Char} (rest : List Char) (ends : ¬part.GoesOn c)
    (notDot : c ≠ '.') : ∃ fault, atPart (text ++ c :: rest) = .error fault := by
  cases spelled with
  | star => exact absurd rfl notStar
  | plain start more =>
      rw [atPart_plain start more, inName_other rest ends notDot]
      exact ⟨_, rfl⟩
  | quoted inside nonempty =>
      have closed : (c :: rest).head? ≠ some '"' := fun quote => ends (Option.some.inj quote)
      rw [atPart_quoted inside nonempty closed, atDot_other rest notDot]
      exact ⟨_, rfl⟩

theorem Spelled.ne_nil {parts : List Part} {text : List Char} (spelled : Spelled parts text) :
    text ≠ [] := by
  rcases spelled with ⟨_ | _ | _⟩ | _ <;> simp

/-- Reading gives the parts that are spelled. -/
theorem atPart_of_spelled {parts : List Part} {text : List Char} (spelled : Spelled parts text) :
    atPart text = .ok parts := by
  induction spelled with
  | @last part text spelled =>
      by_cases star : part = .star
      · subst star
        cases spelled
        rfl
      · have read : atPart (text ++ []) = (part :: ·) <$> atDot [] :=
          atPart_append spelled star nofun
        rw [List.append_nil] at read
        exact read
  | @dot part text parts rest spelled notStar behind ih =>
      have more : rest.isEmpty ≠ true := fun none => behind.ne_nil (List.isEmpty_iff.mp none)
      rw [atPart_append spelled notStar (by simp), atDot, if_neg more, ih]
      rfl

/-- Reading fails on a text that breaks the grammar. -/
theorem atPart_of_broken {text : List Char} (broken : Broken text) :
    ∃ fault, atPart text = .error fault := by
  induction broken with
  | nothing => exact ⟨_, rfl⟩
  | start rest notName notStar notQuote => exact atPart_other rest notName notStar notQuote
  | @emptyQuotes rest closed =>
      rw [atPart_quote, if_pos (closesAtOnce_iff.mpr ⟨rest, rfl, closed⟩)]
      exact ⟨_, rfl⟩
  | @unclosed body name inside =>
      have read := inQuotes_append inside []
      rw [List.append_nil] at read
      rw [atPart_quote, read]
      split
      · exact ⟨_, rfl⟩
      · exact ⟨_, rfl⟩
  | afterStar c rest => exact ⟨_, rfl⟩
  | behind rest spelled notStar ends notDot => exact atPart_breaks spelled notStar rest ends notDot
  | @later part text rest spelled notStar broken ih =>
      obtain ⟨fault, failed⟩ := ih
      rw [atPart_append spelled notStar (by simp), atDot, failed]
      split
      · exact ⟨_, rfl⟩
      · exact ⟨_, rfl⟩

theorem spelled_iff {parts : List Part} {text : List Char} :
    atPart text = .ok parts ↔ Spelled parts text := by
  refine ⟨fun read => ?_, atPart_of_spelled⟩
  have verdict := verdict_atPart text
  rw [read] at verdict
  exact verdict

theorem broken_iff {text : List Char} : (∃ fault, atPart text = .error fault) ↔ Broken text := by
  refine ⟨?_, atPart_of_broken⟩
  rintro ⟨fault, failed⟩
  have verdict := verdict_atPart text
  rw [failed] at verdict
  exact verdict

/-- A text breaks the grammar exactly if it spells no parts. -/
theorem broken_iff_not_spelled {text : List Char} :
    Broken text ↔ ¬∃ parts, Spelled parts text := by
  rw [← broken_iff]
  constructor
  · rintro ⟨fault, failed⟩ ⟨parts, spelled⟩
    rw [atPart_of_spelled spelled] at failed
    cases failed
  · intro unspelled
    cases read : atPart text with
    | ok parts => exact absurd ⟨parts, spelled_iff.mp read⟩ unspelled
    | error fault => exact ⟨fault, rfl⟩

/-- What a text spells, it spells alone. -/
theorem Spelled.unique {left right : List Part} {text : List Char} (spelled : Spelled left text)
    (other : Spelled right text) : left = right := by
  have read := atPart_of_spelled spelled
  rw [atPart_of_spelled other] at read
  exact (Except.ok.inj read).symm

/-! ## Reading an identifier -/

theorem parse_of_nul {text : String} (nul : '\x00' ∈ text.toList) :
    parse text = .error .nul := by
  have nonempty : text.toList.isEmpty ≠ true := by
    intro none
    rw [List.isEmpty_iff.mp none] at nul
    cases nul
  unfold parse
  rw [if_neg nonempty, if_pos (List.contains_iff_mem.mpr nul)]

/-- Without a NUL character it is read from the start of its first part. -/
theorem parse_of_not_nul {text : String} (noNul : '\x00' ∉ text.toList)
    (nonempty : text.toList ≠ []) : parse text = Ident.mk <$> atPart text.toList := by
  unfold parse
  rw [if_neg (fun none => nonempty (List.isEmpty_iff.mp none)),
    if_neg (fun found => noNul (List.contains_iff_mem.mp found))]

theorem parse_eq_ok_iff {text : String} {parts : List Part} :
    parse text = .ok ⟨parts⟩ ↔ '\x00' ∉ text.toList ∧ Spelled parts text.toList := by
  constructor
  · intro read
    have noNul : '\x00' ∉ text.toList := by
      intro nul
      rw [parse_of_nul nul] at read
      cases read
    have nonempty : text.toList ≠ [] := by
      intro none
      unfold parse at read
      rw [none] at read
      cases read
    rw [parse_of_not_nul noNul nonempty] at read
    cases parsed : atPart text.toList with
    | error fault =>
        rw [parsed] at read
        cases read
    | ok other =>
        rw [parsed] at read
        cases read
        exact ⟨noNul, spelled_iff.mp parsed⟩
  · rintro ⟨noNul, spelled⟩
    rw [parse_of_not_nul noNul spelled.ne_nil, atPart_of_spelled spelled]
    rfl

/-- It is refused if it holds a NUL character or breaks the grammar. -/
theorem parse_eq_error_iff {text : String} :
    (∃ fault, parse text = .error fault) ↔ '\x00' ∈ text.toList ∨ Broken text.toList := by
  constructor
  · rintro ⟨fault, failed⟩
    by_cases nul : '\x00' ∈ text.toList
    · exact .inl nul
    · refine .inr (broken_iff_not_spelled.mpr ?_)
      rintro ⟨parts, spelled⟩
      rw [parse_eq_ok_iff.mpr ⟨nul, spelled⟩] at failed
      cases failed
  · intro refused
    cases read : parse text with
    | error fault => exact ⟨fault, rfl⟩
    | ok ident =>
        obtain ⟨noNul, spelled⟩ := parse_eq_ok_iff.mp (show parse text = .ok ⟨ident.parts⟩ from read)
        rcases refused with nul | broken
        · exact absurd nul noNul
        · exact absurd ⟨ident.parts, spelled⟩ (broken_iff_not_spelled.mp broken)

/--
A text is read as an identifier exactly if it holds no NUL character and is
spelled by the grammar, and the parts that are read are those that it spells,
which are unique.  It is refused exactly if it holds a NUL character or breaks
the grammar, and it breaks the grammar exactly if it spells no parts.
-/
theorem parse_reads_grammar (text : String) :
    (∀ parts, parse text = .ok ⟨parts⟩ ↔ '\x00' ∉ text.toList ∧ Spelled parts text.toList) ∧
      (∀ left right, Spelled left text.toList → Spelled right text.toList → left = right) ∧
      ((∃ fault, parse text = .error fault) ↔ '\x00' ∈ text.toList ∨ Broken text.toList) ∧
      (Broken text.toList ↔ ¬∃ parts, Spelled parts text.toList) :=
  ⟨fun _ => parse_eq_ok_iff, fun _ _ spelled other => spelled.unique other, parse_eq_error_iff,
    broken_iff_not_spelled⟩

example : (parse "u.\"odd\"\"name\".*").toOption =
    some ⟨[.plain "u", .quoted "odd\"name", .star]⟩ := by
  decide +kernel

end Ident

end SqlBuilder
