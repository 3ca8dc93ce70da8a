import SqlBuilder.Dialect
import SqlBuilder.Proofs.Written

/-!
# String literals end where they should

A string literal holds its text with quotes doubled, in MySQL with backslashes
doubled too.  A reader of literals that starts behind the opening quote gets
the text back and stops at the closing quote, whatever the text is.
-/

namespace SqlBuilder

open Factor

/-! ## Reading literals -/

namespace Literal

/-- Put a character in front of what was read. -/
def keep (c : Char) : Option (List Char × List Char) → Option (List Char × List Char) :=
  Option.map fun read => (c :: read.1, read.2)

/--
Read a literal from behind its opening quote: its text, and what follows its
closing quote.  Two quotes stand for one quote.  If backslashes escape, the
character behind a backslash stands for itself.
-/
def scan (escapes : Bool) : List Char → Option (List Char × List Char)
  | [] => none
  | [c] => if c = '\'' then some ([], []) else none
  | c :: d :: rest =>
    if c = '\'' then
      if d = '\'' then keep '\'' (scan escapes rest) else some ([], d :: rest)
    else if escapes = true ∧ c = '\\' then keep d (scan escapes rest)
    else keep c (scan escapes (d :: rest))

theorem scan_closing {escapes : Bool} {rest : List Char} (ends : rest.head? ≠ some '\'') :
    scan escapes ('\'' :: rest) = some ([], rest) := by
  cases rest with
  | nil => simp [scan]
  | cons d rest =>
      have other : d ≠ '\'' := by simpa using ends
      simp [scan, other]

theorem scan_plain {escapes : Bool} {c : Char} (rest : List Char) (notQuote : c ≠ '\'')
    (notEscape : ¬(escapes = true ∧ c = '\\')) :
    scan escapes (c :: rest) = keep c (scan escapes rest) := by
  cases rest with
  | nil => simp [scan, keep, notQuote]
  | cons d rest => rw [scan, if_neg notQuote, if_neg notEscape]

theorem scan_quote (escapes : Bool) (rest : List Char) :
    scan escapes ('\'' :: '\'' :: rest) = keep '\'' (scan escapes rest) := by
  simp [scan]

theorem scan_backslash (c : Char) (rest : List Char) :
    scan true ('\\' :: c :: rest) = keep c (scan true rest) := by
  simp [scan]

/-- A text with its quotes doubled is read back. -/
theorem scan_doubling (text : List Char) {rest : List Char} (ends : rest.head? ≠ some '\'') :
    scan false (Grammar.doubling '\'' text ++ '\'' :: rest) = some (text, rest) := by
  induction text with
  | nil => exact scan_closing ends
  | cons c text ih =>
      by_cases quote : c = '\''
      · subst quote
        simp only [Grammar.doubling, if_true, List.cons_append, scan_quote, ih]
        rfl
      · have plain := scan_plain (Grammar.doubling '\'' text ++ '\'' :: rest) quote
          (fun escaped : false = true ∧ c = '\\' => Bool.noConfusion escaped.1)
        simp only [Grammar.doubling, quote, if_false, List.cons_append, plain, ih]
        rfl

/-- A text with its backslashes doubled, and then its quotes, is read back. -/
theorem scan_doubling_backslash (text : List Char) {rest : List Char}
    (ends : rest.head? ≠ some '\'') :
    scan true (Grammar.doubling '\'' (Grammar.doubling '\\' text) ++ '\'' :: rest) =
      some (text, rest) := by
  induction text with
  | nil => exact scan_closing ends
  | cons c text ih =>
      by_cases backslash : c = '\\'
      · subst backslash
        have other : ('\\' : Char) ≠ '\'' := by decide
        simp only [Grammar.doubling, if_true, other, if_false, List.cons_append,
          scan_backslash, ih]
        rfl
      · by_cases quote : c = '\''
        · subst quote
          simp only [Grammar.doubling, backslash, if_false, if_true, List.cons_append,
            scan_quote, ih]
          rfl
        · have plain := scan_plain
            (Grammar.doubling '\'' (Grammar.doubling '\\' text) ++ '\'' :: rest) quote
            (fun escaped : true = true ∧ c = '\\' => backslash escaped.2)
          simp only [Grammar.doubling, backslash, quote, if_false, List.cons_append, plain, ih]
          rfl

end Literal

/-! ## Grammars -/

namespace Grammar

/--
The built-in grammars: those of the dialects, and those that say no more than
they must.  A backslash escapes in literals of MySQL only.
-/
inductive BuiltIn : Grammar → Bool → Prop where
  | dialect (d : Dialect) : BuiltIn d.grammar (d = .mysql)
  | plain (name : String) (quote : Quote) (randomOrder : String) :
      BuiltIn { name, quote, randomOrder } false

/-- Literals are read back, and an aggregate holds the literal of its separator. -/
structure Closes (g : Grammar) (escapes : Bool) : Prop where
  read : ∀ text rest : String, EndsLiteral rest →
    Literal.scan escapes (g.escape text ++ "'" ++ rest).toList = some (text.toList, rest.toList)
  aggregate : ∀ columns, Around fun literal => g.concatAggregate columns literal

theorem read_doubleQuotes (text rest : String) (ends : EndsLiteral rest) :
    Literal.scan false (doubleQuotes text ++ "'" ++ rest).toList =
      some (text.toList, rest.toList) := by
  have chars : (doubleQuotes text ++ "'" ++ rest).toList =
      doubling '\'' text.toList ++ '\'' :: rest.toList := by
    simp [doubleQuotes, String.toList_append]
  rw [chars]
  exact Literal.scan_doubling text.toList ends

theorem read_doubleBackslashes (text rest : String) (ends : EndsLiteral rest) :
    Literal.scan true (doubleBackslashes text ++ "'" ++ rest).toList =
      some (text.toList, rest.toList) := by
  have chars : (doubleBackslashes text ++ "'" ++ rest).toList =
      doubling '\'' (doubling '\\' text.toList) ++ '\'' :: rest.toList := by
    simp [doubleBackslashes, doubleQuotes, String.toList_append]
  rw [chars]
  exact Literal.scan_doubling_backslash text.toList ends

/-- The separator stands last in an aggregate, in front of the closing parenthesis. -/
theorem around_aggregate (front : String) : Around fun literal => front ++ literal ++ ")" :=
  around_append_right (around_append_left front around_self) endsLiteral_parenthesis

theorem BuiltIn.closes {g : Grammar} {escapes : Bool} (builtIn : BuiltIn g escapes) :
    g.Closes escapes := by
  cases builtIn with
  | plain => exact ⟨read_doubleQuotes, fun columns => around_aggregate _⟩
  | dialect d =>
      cases d with
      | mysql => exact ⟨read_doubleBackslashes, fun columns => around_aggregate _⟩
      | postgres => exact ⟨read_doubleQuotes, fun columns => around_aggregate _⟩
      | sqlite => exact ⟨read_doubleQuotes, fun columns => around_aggregate _⟩
      | sqlServer => exact ⟨read_doubleQuotes, fun columns => around_aggregate _⟩

end Grammar

/-! ## Literals in statements -/

/-- The places where the text of a literal may stand. -/
inductive Spot where
  /-- A value of a statement. -/
  | value (path : Path .value .statement)
  /-- A value in a condition of a group concatenation. -/
  | concatValue (c : GroupConcat) (outer : Frame .condition .statement)
      (path : Path .value .condition)
  /-- The separator of a group concatenation. -/
  | separator (c : GroupConcat)

namespace Spot

/-- Every clause on the way outward is written. -/
def isShown : Spot → Bool
  | .value path => path.isShown
  | .concatValue _ _ path => path.isShown
  | .separator _ => true

/-- The statement in a given grammar, with a text in the spot. -/
def sqlIn (spot : Spot) (g : Grammar) (text : String) : Render String :=
  match spot with
  | .value path => (path.fill (.text text)).sqlIn g
  | .concatValue c outer path =>
    { c with statement := outer.fill (path.fill (.text text)) }.sqlIn g
  | .separator c => { c with separator := text }.sqlIn g

end Spot

section Concat

variable {α : Type} {scope : Scope} {text : α → String}

theorem frame_scope (frame : Frame .condition .statement) (g : Grammar) (left right : Predicate) :
    (frame.fill left).scope g = (frame.fill right).scope g := by
  cases frame <;> rfl

theorem factors_concat {p : α → Predicate} (inner : ShowsCondition scope text p) {g : Grammar}
    (c : GroupConcat) {frame : Frame .condition .statement}
    (same : ∀ a, (frame.fill (p a)).scope g = scope) :
    Factors Around text fun a =>
      ({ c with statement := frame.fill (p a) } : GroupConcat).sqlIn g := by
  dsimp only [GroupConcat.sqlIn]
  simp only [same]
  dsimp only [Scope.concat]
  refine Factors.unless (c.columns.isEmpty = true) ?_
  apply Factors.after
  intro columns _
  refine Factors.bind (factors_body inner frame) fun context around => ?_
  exact Factors.done (around_append_left _ around)

theorem factors_separator {g : Grammar} {escapes : Bool} (closes : g.Closes escapes)
    (c : GroupConcat) :
    Factors Around (c.statement.scope g).literal fun s =>
      ({ c with separator := s } : GroupConcat).sqlIn g := by
  dsimp only [GroupConcat.sqlIn, Scope.concat]
  refine Factors.unless (c.columns.isEmpty = true) ?_
  apply Factors.after
  intro columns _
  apply Factors.after
  intro body _
  simp only [String.append_assoc]
  exact Factors.place (around_append_left "SELECT " (around_append_right (closes.aggregate columns)
    (endsLiteral_of_head " AS " _ rfl (by decide))))

end Concat

namespace Spot

theorem factors_sqlIn {g : Grammar} {escapes : Bool} (closes : g.Closes escapes) (spot : Spot)
    (shown : spot.isShown = true) :
    Factors Around (fun text => "'" ++ g.escape text ++ "'") (spot.sqlIn g) := by
  cases spot with
  | value path =>
      have same (s : String) := path.scope_fill g (.text s) .null
      exact path.factors_sqlIn shown same showsValue_text
  | concatValue c outer path =>
      have same (s : String) := frame_scope outer g (path.fill (.text s)) (path.fill .null)
      exact factors_concat (path.shows shown showsValue_text) c same
  | separator c => exact factors_separator closes c

/--
A text in a shown spot is written between single quotes, escaped, and what
stands around it does not depend on it.  What stands behind it does not start
with a quote, and a reader of literals finds the text and its closing quote.
-/
theorem literal_closes {g : Grammar} {escapes : Bool} (builtIn : g.BuiltIn escapes) (spot : Spot)
    (shown : spot.isShown = true) {text sql : String} {trace left : Trace}
    (rendered : spot.sqlIn g text trace = .ok sql left) :
    ∃ before after : String, after.toList.head? ≠ some '\'' ∧ ∀ s : String,
      spot.sqlIn g s trace = .ok (before ++ "'" ++ g.escape s ++ "'" ++ after) left ∧
        Literal.scan escapes (g.escape s ++ "'" ++ after).toList =
          some (s.toList, after.toList) := by
  have closes := builtIn.closes
  obtain ⟨context, ⟨before, after, ends, eq⟩, all⟩ :=
    factors_sqlIn closes spot shown text trace sql left rendered
  refine ⟨before, after, ends, fun s => ⟨?_, closes.read s after ends⟩⟩
  rw [all s, eq]
  simp only [String.append_assoc]

/-- The first entry of a list in a sub-query of a condition, in a statement that selects. -/
def inSubQuery : Spot :=
  let outer : Statement := { ({} : Config).selection with tables := [.text "users"] }
  let inner : Statement := { ({} : Config).selection with tables := [.text "roles"] }
  .value (.step (.filter outer [] []) (.step (.operand "role" (.name "role") .isIn .and)
    (.step (.subquery 0) (.step (.filter inner [] [])
      (.step (.operand "name" (.name "name") .isIn .and) (.step (.item [] [.int 1]) .here))))))

theorem literal_closes_in_sub_query :
    ∃ before after : String, after.toList.head? ≠ some '\'' ∧ ∀ s : String,
      inSubQuery.sqlIn .mysql s [] =
          .ok (before ++ "'" ++ Grammar.mysql.escape s ++ "'" ++ after) [] ∧
        Literal.scan true (Grammar.mysql.escape s ++ "'" ++ after).toList =
          some (s.toList, after.toList) :=
  literal_closes (.dialect .mysql) inSubQuery rfl
    (show inSubQuery.sqlIn .mysql "it's" [] = .ok _ [] from rfl)

end Spot

end SqlBuilder
