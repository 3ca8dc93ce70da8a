/-!
# Identifiers

An identifier is a list of parts: plain names, quoted names, and the star that
stands for all columns.  It is written with the quote characters of a dialect,
a closing quote within a name being doubled.
-/

namespace SqlBuilder

/-- One part of a dotted identifier. -/
inductive Part where
  | plain (name : String)
  | quoted (name : String)
  | star
  deriving DecidableEq

/-- A dotted identifier. -/
structure Ident where
  parts : List Part
  deriving DecidableEq

/-- The characters that open and close a quoted name. -/
structure Quote where
  opening : Char
  closing : Char
  deriving DecidableEq

namespace Quote

/-- Double quotes, the standard form. -/
def double : Quote := ⟨'"', '"'⟩
/-- Grave accents on both sides. -/
def backtick : Quote := ⟨'\x60', '\x60'⟩
/-- Square brackets. -/
def bracket : Quote := ⟨'[', ']'⟩

/-- A name in which each closing quote is doubled. -/
def doubled (quote : Quote) : List Char → List Char
  | [] => []
  | c :: cs =>
    if c = quote.closing then c :: c :: quote.doubled cs else c :: quote.doubled cs

/-- A name between quotes. -/
def enclose (quote : Quote) (name : String) : String :=
  String.ofList (quote.opening :: quote.doubled name.toList ++ [quote.closing])

end Quote

namespace Part

/-- A part in a dialect's quotes; the star is never quoted. -/
def sql (quote : Quote) : Part → String
  | .plain name => quote.enclose name
  | .quoted name => quote.enclose name
  | .star => "*"

end Part

namespace Ident

/-- The parts in a dialect's quotes, separated by dots. -/
def sql (quote : Quote) (ident : Ident) : String :=
  ".".intercalate (ident.parts.map (Part.sql quote))

end Ident

end SqlBuilder
