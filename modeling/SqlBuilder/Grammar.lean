import SqlBuilder.Ident.Basic
import SqlBuilder.Operator

/-!
# Grammars

A grammar holds what one database writes in its own way: quotes, markers of
parameters, literals, pagination, locking, random order and the aggregate that
joins strings.  Only the name, the quotes and the random order are required;
the rest follows the standard unless a dialect says otherwise.
-/

namespace SqlBuilder

namespace Grammar

/-- A text in which every occurrence of one character is doubled. -/
def doubling (mark : Char) : List Char → List Char
  | [] => []
  | c :: cs => if c = mark then c :: c :: doubling mark cs else c :: doubling mark cs

/-- The body of a string literal in which quotes are doubled. -/
def doubleQuotes (text : String) : String :=
  String.ofList (doubling '\'' text.toList)

/-- A trailing `LIMIT` and `OFFSET`, each if given. -/
def limitOffset : Option Nat → Option Nat → Option String
  | none, none => none
  | some n, none => some ("LIMIT " ++ toString n)
  | none, some m => some ("OFFSET " ++ toString m)
  | some n, some m => some ("LIMIT " ++ toString n ++ " OFFSET " ++ toString m)

/-- `STRING_AGG` of one column, or of several columns joined first. -/
def stringAgg (columns : List String) (separator : String) : String :=
  let joined :=
    match columns with
    | [single] => single
    | several => "CONCAT(" ++ ", ".intercalate several ++ ")"
  "STRING_AGG(" ++ joined ++ ", " ++ separator ++ ")"

end Grammar

/-- What one database writes in its own way. -/
structure Grammar where
  name : String
  /-- Quotes of identifiers. -/
  quote : Quote
  /-- The expression that orders rows at random. -/
  randomOrder : String
  /-- The marker of a named parameter, whose binding may have a position counted from one. -/
  marker : String → Option Nat → String := fun name _ => ":" ++ name
  /-- Truth values. -/
  boolLiteral : Bool → String := fun value => if value then "TRUE" else "FALSE"
  /-- The body of a string literal. -/
  escape : String → String := Grammar.doubleQuotes
  /-- The token of an operator. -/
  operator : Operator → String := Operator.sql
  /-- Pagination in front of the columns, from the limit and the offset. -/
  selectTop : Option Nat → Option Nat → Option String := fun _ _ => none
  /-- Pagination at the end, from limit, offset and whether an order precedes it. -/
  pagination : Option Nat → Option Nat → Bool → Option String :=
    fun limit offset _ => Grammar.limitOffset limit offset
  /-- What ends a statement that locks rows. -/
  lockSuffix : Option String := some "FOR UPDATE"
  /-- What follows each table of a statement that locks rows. -/
  tableLockHint : Option String := none
  /-- `UPDATE` and `DELETE` may have an order and a limit. -/
  boundsWrites : Bool := false
  /-- A union member may stand in parentheses. -/
  parenthesizesMembers : Bool := true
  /-- The aggregate that joins columns, from their texts and the separator literal. -/
  concatAggregate : List String → String → String := Grammar.stringAgg

end SqlBuilder
