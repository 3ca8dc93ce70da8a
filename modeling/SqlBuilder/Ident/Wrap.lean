import SqlBuilder.Ident.Parse

/-!
# Quoting text that is an identifier

A text that reads as an identifier, or as an identifier with an alias, is
quoted in the dialect's style.  Any other text is passed on as it is, without
the blanks at its ends.
-/

namespace SqlBuilder

namespace Ident

/-- The text between two blanks that introduces an alias, in any case. -/
def isAliasMark : List Char → Bool
  | ' ' :: a :: s :: ' ' :: _ => a.toLower == 'a' && s.toLower == 's'
  | _ => false

/-- Split a text at the last place that introduces an alias. -/
def splitAlias : List Char → Option (List Char × List Char)
  | [] => none
  | c :: cs =>
    match splitAlias cs with
    | some (name, label) => some (c :: name, label)
    | none => if isAliasMark (c :: cs) then some ([], cs.drop 3) else none

/-- An alias is a single name. -/
def isAlias (ident : Ident) : Bool :=
  match ident.parts with
  | [.plain _] => true
  | [.quoted _] => true
  | _ => false

/-- Read a name and its alias. -/
def parseAliased (name label : String) : Option (Ident × Ident) :=
  match parse name, parse label with
  | .ok left, .ok right => if right.isAlias then some (left, right) else none
  | _, _ => none

/-- Quote a text that is an identifier, with or without an alias. -/
def wrap (quote : Quote) (text : String) : String :=
  let trimmed := Text.trim text
  match splitAlias trimmed.toList with
  | some (left, right) =>
    match parseAliased (Text.trim (String.ofList left)) (Text.trim (String.ofList right)) with
    | some (name, label) => name.sql quote ++ " AS " ++ label.sql quote
    | none => trimmed
  | none =>
    match parse trimmed with
    | .ok ident => ident.sql quote
    | .error _ => trimmed

end Ident

end SqlBuilder
