import SqlBuilder.Ident.Basic
import SqlBuilder.Text.Ascii

/-!
# Reading identifiers

Parts are separated by single dots.  A plain name starts with a letter or the
low line and goes on with letters, digits, low lines and dollar signs.  A name
between double quotes holds any text but the empty one, its quotes doubled.
A star may only come last.  The first fault from the left is reported.
-/

namespace SqlBuilder

namespace Ident

/-- Why a text is no identifier. -/
inductive Fault where
  | empty
  | nul
  | partAfterStar
  | trailingDot
  | missingDot (found : Char)
  | unclosedQuote
  | emptyQuotes
  | badCharacter (found : Char)
  | emptyPart
  deriving DecidableEq

/-- What is said about a fault. -/
def Fault.text : Fault → String
  | .empty => "Identifier cannot be empty"
  | .nul => "Identifier cannot contain NUL character"
  | .partAfterStar => "'*' must be the last part"
  | .trailingDot => "Trailing '.' in identifier"
  | .missingDot found => "Expected '.' between identifier parts, got '" ++ found.toString ++ "'"
  | .unclosedQuote => "Unclosed quoted identifier"
  | .emptyQuotes => "Empty quoted identifier"
  | .badCharacter found => "Invalid character in identifier: '" ++ found.toString ++ "'"
  | .emptyPart => "Empty identifier segment"

/-- Characters that go on a plain name. -/
def isPlainChar (c : Char) : Bool :=
  Text.isNameChar c || c == '$'

/-- The text behind an opening quote closes it at once. -/
def closesAtOnce : List Char → Bool
  | '"' :: '"' :: _ => false
  | '"' :: _ => true
  | _ => false

/-- A plain name from its characters. -/
def plainPart : List Char × List Part → List Part
  | (name, parts) => .plain (String.ofList name) :: parts

/-- A quoted name from its characters. -/
def quotedPart : List Char × List Part → List Part
  | (name, parts) => .quoted (String.ofList name) :: parts

/-- Put a character before the name that is being read. -/
def prepend (c : Char) : List Char × List Part → List Char × List Part
  | (name, parts) => (c :: name, parts)

/-- Nothing may follow a star. -/
def afterStar : List Char → Except Fault (List Part)
  | [] => .ok [.star]
  | _ :: _ => .error .partAfterStar

mutual

/-- Read the parts of a text that stands at the start of a part. -/
def atPart : List Char → Except Fault (List Part)
  | [] => .error .emptyPart
  | '*' :: cs => afterStar cs
  | '"' :: cs =>
    if closesAtOnce cs then .error .emptyQuotes else quotedPart <$> inQuotes cs
  | c :: cs =>
    if c = '.' then .error .emptyPart
    else if Text.isNameStart c then (plainPart ∘ prepend c) <$> inName cs
    else .error (.badCharacter c)
termination_by structural cs => cs

/-- Read the rest of a plain name and the parts behind it. -/
def inName : List Char → Except Fault (List Char × List Part)
  | [] => .ok ([], [])
  | '.' :: cs => if cs.isEmpty then .error .trailingDot else (([], ·)) <$> atPart cs
  | c :: cs => if isPlainChar c then prepend c <$> inName cs else .error (.badCharacter c)
termination_by structural cs => cs

/-- Read the rest of a quoted name and the parts behind it. -/
def inQuotes : List Char → Except Fault (List Char × List Part)
  | [] => .error .unclosedQuote
  | '"' :: '"' :: cs => prepend '"' <$> inQuotes cs
  | '"' :: cs => (([], ·)) <$> atDot cs
  | c :: cs => prepend c <$> inQuotes cs
termination_by structural cs => cs

/-- Read what follows a quoted name: nothing, or a dot and further parts. -/
def atDot : List Char → Except Fault (List Part)
  | [] => .ok []
  | '.' :: cs => if cs.isEmpty then .error .trailingDot else atPart cs
  | c :: _ => .error (.missingDot c)
termination_by structural cs => cs

end

/-- Read a text as an identifier. -/
def parse (text : String) : Except Fault Ident :=
  let cs := text.toList
  if cs.isEmpty then .error .empty
  else if cs.contains '\x00' then .error .nul
  else Ident.mk <$> atPart cs

end Ident

end SqlBuilder
