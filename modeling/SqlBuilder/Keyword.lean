import SqlBuilder.Text.Ascii

/-!
# Keywords

Small enumerations of SQL: the connectives between conditions, the kinds of
join, the directions of an order, and the kinds of statement.
-/

namespace SqlBuilder

/-- What joins a condition to the ones before it. -/
inductive Connective where
  | and
  | or
  deriving DecidableEq

/-- The kinds of join. -/
inductive JoinKind where
  | plain
  | left
  | leftOuter
  | leftInner
  | right
  | rightOuter
  | rightInner
  | outer
  | inner
  | cross
  | full
  | fullOuter
  deriving DecidableEq

/-- The directions of an order. -/
inductive Direction where
  | ascending
  | descending
  deriving DecidableEq

/-- The kinds of statement; a fresh statement is undecided. -/
inductive StatementKind where
  | select
  | insert
  | update
  | delete
  | random
  | raw
  | undecided
  deriving DecidableEq

/-- The kinds of statement that write. -/
inductive WriteKind where
  | insert
  | update
  | delete
  deriving DecidableEq

namespace Connective

/-- The keyword of a connective. -/
def sql : Connective → String
  | .and => "AND"
  | .or => "OR"

end Connective

namespace JoinKind

/-- The keywords of a kind of join. -/
def sql : JoinKind → String
  | .plain => "JOIN"
  | .left => "LEFT JOIN"
  | .leftOuter => "LEFT OUTER JOIN"
  | .leftInner => "LEFT INNER JOIN"
  | .right => "RIGHT JOIN"
  | .rightOuter => "RIGHT OUTER JOIN"
  | .rightInner => "RIGHT INNER JOIN"
  | .outer => "OUTER JOIN"
  | .inner => "INNER JOIN"
  | .cross => "CROSS JOIN"
  | .full => "FULL JOIN"
  | .fullOuter => "FULL OUTER JOIN"

end JoinKind

namespace Direction

/-- The keyword of a direction. -/
def sql : Direction → String
  | .ascending => "ASC"
  | .descending => "DESC"

/-- Read a direction in any case, blanks at its ends aside. -/
def parse? (text : String) : Option Direction :=
  let trimmed := Text.trim text
  if Text.equalFolded trimmed "asc" then some .ascending
  else if Text.equalFolded trimmed "desc" then some .descending
  else none

end Direction

namespace StatementKind

/-- The name of a kind in messages. -/
def label : StatementKind → String
  | .select => "Select"
  | .insert => "Insert"
  | .update => "Update"
  | .delete => "Delete"
  | .random => "Random"
  | .raw => "Raw"
  | .undecided => "None"

end StatementKind

namespace WriteKind

/-- The keyword that starts a statement of this kind. -/
def keyword : WriteKind → String
  | .insert => "INSERT"
  | .update => "UPDATE"
  | .delete => "DELETE"

end WriteKind

end SqlBuilder
