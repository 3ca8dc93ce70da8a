import SqlBuilder.Proofs.RowLimit

/-!
# Reading a page back

A statement that selects writes its limit and its offset in two places: in
front of its columns and at its end.  What stands there is read here word by
word, dialect by dialect, and the limit and the offset are found again.
-/

namespace SqlBuilder

open Factor

/-! ## Words and numbers -/

namespace Text

/-- The words of a text, between blanks. -/
def words (text : String) : List String :=
  ((text.toList.splitOn ' ').map String.ofList).filter (· ≠ "")

/-- The number that a word of digits stands for. -/
def readNat? (word : String) : Option Nat :=
  if word ≠ "" ∧ word.toList.all Char.isDigit then some (Nat.ofDigitChars 10 word.toList 0)
  else none

/-- Words with a blank in front of each. -/
def spell : List String → String
  | [] => ""
  | word :: others => " " ++ word ++ spell others

/-- A text without blanks that is not empty. -/
def IsWord (word : String) : Prop :=
  word ≠ "" ∧ ' ' ∉ word.toList

theorem toList_spell (parts : List String) :
    (spell parts).toList = [' '].intercalate ([] :: parts.map String.toList) := by
  have later (first : List Char) (others : List String) :
      [' '].intercalate (first :: others.map String.toList) =
        first ++ others.flatMap fun word => ' ' :: word.toList := by
    induction others generalizing first with
    | nil => simp [List.intercalate]
    | cons word others ih => simpa [List.intercalate] using ih word.toList
  rw [later, List.nil_append]
  induction parts with
  | nil => rfl
  | cons word others ih => simp [spell, ih]

/-- Words that are spelled are read. -/
theorem words_spell {parts : List String} (plain : ∀ word ∈ parts, IsWord word) :
    words (spell parts) = parts := by
  have apart : ∀ cs ∈ [] :: parts.map String.toList, ' ' ∉ cs := by
    intro cs mem
    rcases List.mem_cons.mp mem with rfl | mem
    · exact List.not_mem_nil
    · obtain ⟨word, inParts, rfl⟩ := List.mem_map.mp mem
      exact (plain word inParts).2
  have filled : parts.filter (· ≠ "") = parts :=
    List.filter_eq_self.mpr fun word mem => by simpa using (plain word mem).1
  rw [words, toList_spell, List.splitOn_intercalate ' ' apart (List.cons_ne_nil _ _)]
  simpa [Function.comp_def] using filled

theorem toList_repr (n : Nat) : n.repr.toList = Nat.toDigits 10 n := by
  rw [← Nat.toString_eq_repr, Nat.toString_eq_ofList_toDigits, String.toList_ofList]

theorem isDigit_of_mem_repr {n : Nat} {c : Char} (mem : c ∈ n.repr.toList) : c.isDigit = true :=
  Nat.isDigit_of_mem_toDigits (by decide) (by decide) (toList_repr n ▸ mem)

/-- A number is written as a word. -/
@[simp]
theorem isWord_repr (n : Nat) : IsWord n.repr := by
  constructor
  · intro empty
    exact Nat.toDigits_ne_nil (toList_repr n ▸ congrArg String.toList empty)
  · intro blank
    exact absurd (isDigit_of_mem_repr blank) (by decide)

/-- A number is read as it is written. -/
@[simp]
theorem readNat?_repr (n : Nat) : readNat? n.repr = some n := by
  have digits : n.repr.toList.all Char.isDigit = true :=
    List.all_eq_true.mpr fun c mem => isDigit_of_mem_repr mem
  rw [readNat?, if_pos ⟨(isWord_repr n).1, digits⟩, toList_repr, Nat.ofDigitChars_ten_toDigits]

end Text

open SqlBuilder.Text

/-! ## Pages as words -/

namespace Grammar

/-- Read a limit and an offset at the end; one word may stand for no limit. -/
def readLimitOffset? (unlimited : Option String) :
    List String → Option (Option Nat × Option Nat)
  | [] => some (none, none)
  | ["LIMIT", n] => do return (some (← readNat? n), none)
  | ["OFFSET", m] => do return (none, some (← readNat? m))
  | ["LIMIT", n, "OFFSET", m] => do
    let limit ← if some n = unlimited then some none else some <$> readNat? n
    return (limit, some (← readNat? m))
  | _ => none

/-- Read `OFFSET` with or without `FETCH`. -/
def readOffsetFetch? : List String → Option (Option Nat × Option Nat)
  | [] => some (none, none)
  | ["OFFSET", m, "ROWS"] => do return (none, some (← readNat? m))
  | ["OFFSET", m, "ROWS", "FETCH", "NEXT", n, "ROWS", "ONLY"] => do
    return (some (← readNat? n), some (← readNat? m))
  | _ => none

/-- Read `TOP` in front, or `OFFSET` at the end, behind an order of its own if it has one. -/
def readTopOrOffset? : List String → List String → Option (Option Nat × Option Nat)
  | ["TOP", n], [] => do return (some (← readNat? n), none)
  | [], "ORDER" :: "BY" :: "(SELECT" :: "0)" :: page => readOffsetFetch? page
  | [], page => readOffsetFetch? page
  | _, _ => none

end Grammar

/-- Read the limit and the offset from what stands in front of the columns and at the end. -/
def Dialect.readPage? (d : Dialect) (front back : String) : Option (Option Nat × Option Nat) :=
  match d with
  | .sqlServer => Grammar.readTopOrOffset? (words front) (words back)
  | .postgres => if front = "" then Grammar.readLimitOffset? none (words back) else none
  | .mysql =>
    if front = "" then
      Grammar.readLimitOffset? (some "18446744073709551615") (words back)
    else none
  | .sqlite => if front = "" then Grammar.readLimitOffset? (some "-1") (words back) else none

namespace Grammar

theorem isWord_keyword {word : String}
    (mem : word ∈ ["LIMIT", "OFFSET", "-1", "18446744073709551615", "TOP", "ROWS", "FETCH", "NEXT",
      "ONLY", "ORDER", "BY", "(SELECT", "0)"]) : IsWord word := by
  revert word
  unfold IsWord
  decide

/-- Keywords and numbers that are spelled are read. -/
theorem words_page {text : String} {parts : List String} (spelled : text = spell parts)
    (plain : ∀ word ∈ parts, IsWord word) : words text = parts :=
  spelled ▸ words_spell plain

theorem words_limitOffset (limit offset : Option Nat) :
    words (Scope.spaced (limitOffset limit offset)) =
      (limit.elim [] fun n => ["LIMIT", n.repr]) ++
        offset.elim [] fun m => ["OFFSET", m.repr] := by
  refine words_page ?_ ?_
  · cases limit <;> cases offset <;>
      simp [limitOffset, Scope.spaced, spell, String.ext_iff]
  · cases limit <;> cases offset <;> simp [isWord_keyword]

theorem readLimitOffset?_limitOffset {unlimited : Option String} (limit offset : Option Nat)
    (apart : ∀ n, limit = some n → some n.repr ≠ unlimited) :
    readLimitOffset? unlimited (words (Scope.spaced (limitOffset limit offset))) =
      some (limit, offset) := by
  rw [words_limitOffset]
  cases limit with
  | none => cases offset <;> simp [readLimitOffset?]
  | some n =>
      cases offset with
      | none => simp [readLimitOffset?]
      | some m => simp [readLimitOffset?, apart n rfl]

/-- A word that stands for no limit is none that a limit is written with. -/
theorem readLimitOffset?_limitBeforeOffset {unlimited : String} (word : IsWord unlimited)
    (limit offset : Option Nat) (apart : ∀ n, limit = some n → n.repr ≠ unlimited) :
    readLimitOffset? (some unlimited)
        (words (Scope.spaced (limitBeforeOffset unlimited limit offset))) =
      some (limit, offset) := by
  have apart' (n : Nat) (given : limit = some n) : some n.repr ≠ some unlimited :=
    fun same => apart n given (Option.some_inj.mp same)
  cases limit with
  | some n =>
      have plain : limitBeforeOffset unlimited (some n) offset = limitOffset (some n) offset := by
        cases offset <;> rfl
      rw [plain, readLimitOffset?_limitOffset (some n) offset apart']
  | none =>
      cases offset with
      | none => rfl
      | some m =>
          have page : words (Scope.spaced (limitBeforeOffset unlimited none (some m))) =
              ["LIMIT", unlimited, "OFFSET", m.repr] := by
            refine words_page ?_ ?_
            · simp [limitBeforeOffset, Scope.spaced, spell, String.ext_iff]
            · simp [isWord_keyword, word]
          simp [page, readLimitOffset?]

theorem words_top (n : Nat) : words (Scope.spaced (top (some n) none)) = ["TOP", n.repr] := by
  refine words_page ?_ ?_
  · simp [top, Scope.spaced, spell, String.ext_iff]
  · simp [isWord_keyword]

/-- Behind an offset there is no `TOP`. -/
theorem selectTop_skipping (limit : Option Nat) (m : Nat) :
    sqlServer.selectTop limit (some m) = none := by
  cases limit <;> rfl

theorem words_offsetFetch (limit : Option Nat) (m : Nat) (ordered : Bool) :
    words (Scope.spaced (offsetFetch limit (some m) ordered)) =
      (if ordered then [] else ["ORDER", "BY", "(SELECT", "0)"]) ++ ["OFFSET", m.repr, "ROWS"] ++
        limit.elim [] fun n => ["FETCH", "NEXT", n.repr, "ROWS", "ONLY"] := by
  refine words_page ?_ ?_
  · cases ordered <;> cases limit <;>
      simp [offsetFetch, Scope.spaced, spell, String.ext_iff]
  · cases ordered <;> cases limit <;> simp [isWord_keyword]

end Grammar

/-- The largest limit that can be given. -/
def largestLimit : Nat :=
  Int64.maxValue.toInt.toNat

namespace Dialect

/-- In every dialect a page is read as it is written, if the limit is one that can be given. -/
theorem readPage?_page (d : Dialect) {scope : Scope} (dialect : scope.grammar = d.grammar)
    {limit : Option Nat} (offset : Option Nat) (small : ∀ n, limit = some n → n ≤ largestLimit)
    (ordered : Bool) :
    d.readPage? (Scope.spaced (scope.grammar.selectTop limit offset))
      (scope.pagination limit offset ordered) = some (limit, offset) := by
  rw [Scope.pagination, dialect]
  cases d with
  | postgres =>
      exact Grammar.readLimitOffset?_limitOffset limit offset fun _ _ => Option.some_ne_none _
  | mysql =>
      refine Grammar.readLimitOffset?_limitBeforeOffset (Grammar.isWord_keyword (by decide)) limit
        offset fun n given same => ?_
      have read : readNat? "18446744073709551615" = some n := same ▸ readNat?_repr n
      have large : readNat? "18446744073709551615" = some 18446744073709551615 := by decide
      have := Option.some_inj.mp (large.symm.trans read)
      have : n ≤ 9223372036854775807 := small n given
      omega
  | sqlite =>
      refine Grammar.readLimitOffset?_limitBeforeOffset (Grammar.isWord_keyword (by decide)) limit
        offset fun n _ same => ?_
      have read : readNat? "-1" = some n := same ▸ readNat?_repr n
      have unread : readNat? "-1" = none := by decide
      exact absurd (unread.symm.trans read) (Option.some_ne_none n).symm
  | sqlServer =>
      change Grammar.readTopOrOffset? (words (Scope.spaced (Grammar.sqlServer.selectTop _ _)))
        (words (Scope.spaced (Grammar.offsetFetch
          (if (Grammar.sqlServer.selectTop _ _).isSome then none else limit) _ _))) = _
      cases offset with
      | none =>
          have back (limit : Option Nat) :
              words (Scope.spaced (Grammar.offsetFetch limit none ordered)) = [] := rfl
          cases limit with
          | none => rfl
          | some n =>
              have front : words (Scope.spaced (Grammar.sqlServer.selectTop (some n) none)) =
                  ["TOP", n.repr] := Grammar.words_top n
              simp [back, front, Grammar.readTopOrOffset?]
      | some m =>
          have front : words (Scope.spaced none) = [] := rfl
          rw [Grammar.selectTop_skipping, front, Option.isSome_none, if_neg Bool.false_ne_true,
            Grammar.words_offsetFetch]
          cases ordered <;> cases limit <;>
            simp [Grammar.readTopOrOffset?, Grammar.readOffsetFetch?]

end Dialect

/-! ## Valid counts -/

theorem Count.check_run (count : Count) {n : Option Int64} (valid : NonNegative n) (trace : Trace) :
    count.check n trace = .ok (n.map fun k => k.toInt.toNat) trace := by
  cases n with
  | none => rfl
  | some k =>
      rw [check, if_neg (Int.not_lt.mpr (valid k rfl))]
      rfl

namespace Header

variable {h : Header}

/-- The counts of a statement that selects can be written; a random one needs no limit. -/
structure Counted (h : Header) : Prop where
  limit : h.isRandom = false → NonNegative h.limit
  offset : NonNegative h.offset

theorem Counted.selectLimit_run (counted : h.Counted) (trace : Trace) :
    h.selectLimit trace = .ok h.rowLimit? trace := by
  unfold selectLimit rowLimit?
  cases random : h.isRandom with
  | true => rfl
  | false =>
      rw [if_neg Bool.false_ne_true, if_neg Bool.false_ne_true,
        Count.check_run .limit (counted.limit random)]
      cases given : h.limit with
      | none => rfl
      | some n => simp [Int.not_lt.mpr (counted.limit random n given)]

/-- No limit is larger than the largest that can be given. -/
theorem rowLimit?_le {n : Nat} (limited : h.rowLimit? = some n) : n ≤ largestLimit := by
  unfold rowLimit? at limited
  split at limited
  · cases limited
    decide
  · obtain ⟨k, -, limited⟩ := Option.bind_eq_some_iff.mp limited
    have small : k.toInt ≤ Int64.maxValue.toInt := Int64.toInt_le k
    split at limited
    · cases limited
    · cases limited
      exact Int.toNat_le_toNat small

end Header

/-! ## Orders and pages -/

namespace Scope

variable {scope : Scope} {h : Header}

/-- What rows are sorted by: the columns of the order, and behind them a random order. -/
def sortKeys (scope : Scope) (h : Header) (sorted : List String) : List String :=
  sorted ++ if h.isRandom then [scope.grammar.randomOrder] else []

/-- An order by the given keys, or nothing without keys. -/
def orderBy (keys : List String) : String :=
  if keys.isEmpty then "" else " ORDER BY " ++ ", ".intercalate keys

theorem isEmpty_of_yields_orderTexts {items : List SortColumn} {texts : List String}
    (yields : Yields (scope.orderTexts items) texts) : texts.isEmpty = items.isEmpty := by
  cases items with
  | nil =>
      rw [← yields_pure yields]
      rfl
  | cons item items =>
      obtain ⟨text, -, yields⟩ := yields_bind yields
      obtain ⟨texts, -, yields⟩ := yields_bind yields
      rw [← yields_pure yields]
      rfl

/-- A statement is ordered exactly if its rows are sorted by something. -/
theorem isOrdered_eq {sorted : List String} (yields : Yields (scope.orderTexts h.orders) sorted) :
    h.isOrdered = !(scope.sortKeys h sorted).isEmpty := by
  rw [Header.isOrdered, sortKeys, ← isEmpty_of_yields_orderTexts yields]
  cases h.isRandom <;> cases sorted <;> rfl

theorem yields_order {order : String} (yields : Yields (scope.order h) order) :
    ∃ sorted, Yields (scope.orderTexts h.orders) sorted ∧
      order = orderBy (scope.sortKeys h sorted) := by
  unfold Scope.order at yields
  cases ordered : h.isOrdered with
  | false =>
      have unsorted : h.isRandom = false ∧ h.orders = [] := by
        simpa [Header.isOrdered] using ordered
      rw [ordered] at yields
      refine ⟨[], ⟨[], [], by rw [unsorted.2]; rfl⟩, ?_⟩
      rw [← yields_pure yields, sortKeys, unsorted.1]
      rfl
  | true =>
      rw [ordered] at yields
      obtain ⟨body, written, yields⟩ := yields_bind yields
      obtain ⟨sorted, texts, written⟩ := yields_bind written
      have filled := isOrdered_eq texts
      rw [ordered, Bool.true_eq, Bool.not_eq_true'] at filled
      refine ⟨sorted, texts, ?_⟩
      rw [← yields_pure yields, ← yields_pure written, orderBy, filled]
      rfl

/-- The keys in front of an `OFFSET` for SQL Server, where it cannot do without. -/
def pageKeys (keys : List String) : List String :=
  if keys.isEmpty then ["(SELECT 0)"] else keys

/-- For SQL Server one order is in front of every `OFFSET`, its own or else an arbitrary one. -/
theorem orderBy_pagination (server : scope.grammar = .sqlServer) (keys : List String)
    (limit : Option Nat) (m : Nat) :
    orderBy keys ++ scope.pagination limit (some m) (!keys.isEmpty) =
      orderBy (pageKeys keys) ++ " OFFSET " ++ m.repr ++ " ROWS" ++
        limit.elim "" fun n => " FETCH NEXT " ++ n.repr ++ " ROWS ONLY" := by
  have page : scope.pagination limit (some m) (!keys.isEmpty) =
      spaced (Grammar.offsetFetch limit (some m) (!keys.isEmpty)) := by
    rw [pagination, server, Grammar.selectTop_skipping]
    rfl
  rw [page, pageKeys]
  cases keys with
  | nil => cases limit <;> simp [orderBy, spaced, Grammar.offsetFetch, String.ext_iff]
  | cons key keys => cases limit <;> simp [orderBy, spaced, Grammar.offsetFetch, String.ext_iff]

end Scope

/-! ## Statements and their pages -/

namespace Header

/-- The header with another limit and another offset. -/
def paged (h : Header) (limit offset : Option Int64) : Header :=
  { h with limit, offset }

/--
What stands in front of the columns and at the end: they are read as the limit
and the offset, and nothing is given in both places.  For SQL Server an offset
comes right behind one order.
-/
structure Page (d : Dialect) (h : Header) (keys : List String) (front back : String) : Prop where
  read : d.readPage? front back = some (h.rowLimit?, h.rowOffset)
  once : front = "" ∨ back = ""
  ordered : d = .sqlServer → ∀ m, h.rowOffset = some m →
    Scope.orderBy keys ++ back = Scope.orderBy (Scope.pageKeys keys) ++ " OFFSET " ++ m.repr ++
      " ROWS" ++ h.rowLimit?.elim "" fun n => " FETCH NEXT " ++ n.repr ++ " ROWS ONLY"
  unpaged : d = .sqlServer → h.rowOffset = none → back = ""

end Header

/-- The parts of a statement that selects that the limit and the offset do not reach. -/
structure SelectParts where
  columns : String
  body : String
  members : String
  sorted : List String

namespace SelectParts

/-- The parts are what a statement with this header writes. -/
structure Written (scope : Scope) (h : Header) (joins wheres members : Render String)
    (parts : SelectParts) : Prop where
  columns : Yields (scope.columns h) parts.columns
  body : Yields (scope.body h joins wheres) parts.body
  members : Yields members parts.members
  sorted : Yields (scope.orderTexts h.orders) parts.sorted

/-- The text of a statement with these parts, around what stands for its limit and its offset. -/
def text (scope : Scope) (h : Header) (parts : SelectParts) (front back : String) : String :=
  "SELECT" ++ (if h.distinct then " DISTINCT" else "") ++ front ++ " " ++ parts.columns ++
    parts.body ++ parts.members ++ Scope.orderBy (scope.sortKeys h parts.sorted) ++ back ++
    scope.lockSuffix h

end SelectParts

namespace Scope

variable {scope : Scope} {h : Header} {joins wheres members : Render String}

/-- If a statement that selects is rendered, so it is with any limit and any offset. -/
theorem select_paged {trace left : Trace} {sql : String}
    (run : scope.select h joins wheres members trace = .ok sql left) :
    ∃ parts : SelectParts, parts.Written scope h joins wheres members ∧
      ∀ limit offset, (h.paged limit offset).Counted →
        scope.select (h.paged limit offset) joins wheres members trace =
          .ok (parts.text scope h
            (spaced (scope.grammar.selectTop (h.paged limit offset).rowLimit?
              (h.paged limit offset).rowOffset))
            (scope.pagination (h.paged limit offset).rowLimit? (h.paged limit offset).rowOffset
              h.isOrdered)) left := by
  obtain ⟨limit, start, limited, run⟩ := Outcome.bind_ok run
  obtain ⟨offset, between, skipped, run⟩ := Outcome.bind_ok run
  obtain ⟨columns, named, selects, run⟩ := Outcome.bind_ok run
  obtain ⟨body, filled, fills, run⟩ := Outcome.bind_ok run
  obtain ⟨others, joined, combines, run⟩ := Outcome.bind_ok run
  obtain ⟨order, sorts, orders, run⟩ := Outcome.bind_ok run
  have done := (Outcome.pure_ok run).2
  have kept := (Count.check_ok skipped).2
  have fresh := Header.selectLimit_ok limited
  subst done kept fresh
  obtain ⟨sorted, texts, same⟩ := yields_order ⟨_, _, orders⟩
  refine ⟨⟨columns, body, others, sorted⟩,
    ⟨⟨_, _, selects⟩, ⟨_, _, fills⟩, ⟨_, _, combines⟩, texts⟩, fun limit offset counted => ?_⟩
  refine (Outcome.bind_of_ok (counted.selectLimit_run _)).trans ?_
  refine (Outcome.bind_of_ok (Count.check_run .offset counted.offset _)).trans ?_
  refine (Outcome.bind_of_ok selects).trans ?_
  refine (Outcome.bind_of_ok fills).trans ?_
  refine (Outcome.bind_of_ok combines).trans ?_
  refine (Outcome.bind_of_ok orders).trans ?_
  subst same
  rfl

end Scope

/-- In every dialect, what stands in front and at the end is the page of the statement. -/
theorem Header.page (d : Dialect) {scope : Scope} (dialect : scope.grammar = d.grammar) (h : Header)
    (keys : List String) :
    h.Page d keys (Scope.spaced (scope.grammar.selectTop h.rowLimit? h.rowOffset))
      (scope.pagination h.rowLimit? h.rowOffset (!keys.isEmpty)) where
  read := d.readPage?_page dialect h.rowOffset (fun _ => Header.rowLimit?_le) _
  once := by
    rw [Scope.pagination, dialect]
    cases d with
    | mysql | postgres | sqlite => exact .inl rfl
    | sqlServer =>
        cases h.rowOffset with
        | none => exact .inr rfl
        | some m =>
            left
            change Scope.spaced (Grammar.sqlServer.selectTop _ _) = ""
            rw [Grammar.selectTop_skipping]
            rfl
  ordered := by
    rintro rfl m skipped
    rw [skipped]
    exact Scope.orderBy_pagination dialect keys h.rowLimit? m
  unpaged := by
    rintro rfl first
    rw [first, Scope.pagination, dialect]
    rfl

namespace Statement

/-- The statement with another limit and another offset. -/
def paged (s : Statement) (limit offset : Option Int64) : Statement :=
  { s with limit, offset }

theorem paged_self (s : Statement) : s.paged s.limit s.offset = s := by
  cases s
  rfl

/--
If a statement that selects is rendered for a built-in dialect, so it is with
any limit and offset that are not negative, from one set of parts.  What stands
in front of the columns and behind the order is read as the limit and the
offset that were given, and no part but these depends on them.
-/
theorem page_reads_back (d : Dialect) {scope : Scope} (dialect : scope.grammar = d.grammar)
    {s : Statement} (kind : s.kind ∈ [.select, .random]) {trace left : Trace} {sql : String}
    (rendered : scope.statement s trace = .ok sql left) :
    s.Counted ∧ ∃ parts : SelectParts,
      parts.Written scope s.toHeader (scope.joins s.joins) (scope.wheres s)
        (scope.members s.members) ∧
      (∃ front back, sql = parts.text scope s.toHeader front back ∧
        s.Page d (scope.sortKeys s.toHeader parts.sorted) front back) ∧
      ∀ limit offset, (s.paged limit offset).Counted →
        ∃ front back, scope.statement (s.paged limit offset) trace =
            .ok (parts.text scope s.toHeader front back) left ∧
          (s.paged limit offset).Page d (scope.sortKeys s.toHeader parts.sorted) front back := by
  have run := rendered
  rw [Scope.statement_of_selects kind] at run
  obtain ⟨limit, offset, -⟩ := Scope.yields_select ⟨_, _, run⟩
  obtain ⟨parts, written, pages⟩ := Scope.select_paged run
  have any (limit offset : Option Int64) (counted : (s.paged limit offset).Counted) :
      ∃ front back, scope.statement (s.paged limit offset) trace =
          .ok (parts.text scope s.toHeader front back) left ∧
        (s.paged limit offset).Page d (scope.sortKeys s.toHeader parts.sorted) front back := by
    refine ⟨_, _, ?_, Header.page d dialect _ _⟩
    have kind' : (s.paged limit offset).kind ∈ [.select, .random] := kind
    rw [Scope.statement_of_selects kind', ← Scope.isOrdered_eq written.sorted]
    exact pages limit offset counted
  refine ⟨⟨limit, offset⟩, parts, written, ?_, any⟩
  have own := any s.limit s.offset
  rw [paged_self] at own
  obtain ⟨front, back, same, page⟩ := own ⟨limit, offset⟩
  rw [rendered] at same
  cases same
  exact ⟨front, back, rfl, page⟩

/-- The second page of a union is read back, and so is all that follows its first. -/
theorem page_reads_back_secondPage :
    secondPage.kind ∈ [.select, .random] ∧ (secondPage.paged none (some 5)).Counted ∧
      ∃ sql, secondPage.sqlIn .sqlServer [] = .ok sql [] ∧ ∃ parts : SelectParts,
        (∃ front back,
          sql = parts.text (secondPage.scope .sqlServer) secondPage.toHeader front back ∧
          Dialect.sqlServer.readPage? front back = some (some 5, some 5)) ∧
        ∃ front back, (secondPage.scope .sqlServer).statement (secondPage.paged none (some 5)) [] =
            .ok (parts.text (secondPage.scope .sqlServer) secondPage.toHeader front back) [] ∧
          Dialect.sqlServer.readPage? front back = some (none, some 5) := by
  have kind : secondPage.kind ∈ [.select, .random] := by decide
  have dialect : (secondPage.scope .sqlServer).grammar = Dialect.sqlServer.grammar := rfl
  have rendered : (secondPage.scope .sqlServer).statement secondPage [] =
      .ok ("SELECT * FROM [a] UNION ALL SELECT * FROM [b]" ++
        " ORDER BY (SELECT 0) OFFSET 5 ROWS FETCH NEXT 5 ROWS ONLY") [] := rfl
  obtain ⟨counted, parts, -, ⟨front, back, same, page⟩, pages⟩ :=
    page_reads_back .sqlServer dialect kind rendered
  have later : (secondPage.paged none (some 5)).Counted :=
    ⟨fun _ _ given => (nomatch given), counted.offset⟩
  obtain ⟨front', back', text, page'⟩ := pages none (some 5) later
  exact ⟨kind, later, _, rendered, parts, ⟨front, back, same, page.read⟩,
    front', back', text, page'.read⟩

-- A random statement takes one row, whatever limit it was given.
example : (({ secondPage with kind := .random } : Statement).paged (some (-1)) none).sqlIn
    .sqlServer [] =
      .ok "SELECT TOP 1 * FROM [a] UNION ALL SELECT * FROM [b] ORDER BY NEWID()" [] := rfl

end Statement

end SqlBuilder
