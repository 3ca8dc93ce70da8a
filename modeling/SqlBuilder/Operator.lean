import SqlBuilder.Text.Ascii

/-!
# Comparison operators

The operators a condition may use form a closed list.  An operator is read
without regard to ASCII case and to blanks at its ends, so no other text ever
reaches a statement as an operator.
-/

namespace SqlBuilder

/-- Comparison and pattern operators. -/
inductive Operator where
  | equal
  | less
  | greater
  | atMost
  | atLeast
  | unequalAnsi
  | unequal
  | like
  | likeBinary
  | notLike
  | between
  | ilike
  | bitAnd
  | bitOr
  | bitXor
  | shiftLeft
  | shiftRight
  | rlike
  | regexp
  | notRegexp
  | tilde
  | tildeFolded
  | notTilde
  | notTildeFolded
  | similarTo
  | notSimilarTo
  | isIn
  deriving DecidableEq

namespace Operator

/-- All operators. -/
def all : List Operator :=
  [.equal, .less, .greater, .atMost, .atLeast, .unequalAnsi, .unequal, .like, .likeBinary,
    .notLike, .between, .ilike, .bitAnd, .bitOr, .bitXor, .shiftLeft, .shiftRight, .rlike,
    .regexp, .notRegexp, .tilde, .tildeFolded, .notTilde, .notTildeFolded, .similarTo,
    .notSimilarTo, .isIn]

/-- The token of an operator. -/
def sql : Operator → String
  | .equal => "="
  | .less => "<"
  | .greater => ">"
  | .atMost => "<="
  | .atLeast => ">="
  | .unequalAnsi => "<>"
  | .unequal => "!="
  | .like => "LIKE"
  | .likeBinary => "LIKE BINARY"
  | .notLike => "NOT LIKE"
  | .between => "BETWEEN"
  | .ilike => "ILIKE"
  | .bitAnd => "&"
  | .bitOr => "|"
  | .bitXor => "^"
  | .shiftLeft => "<<"
  | .shiftRight => ">>"
  | .rlike => "RLIKE"
  | .regexp => "REGEXP"
  | .notRegexp => "NOT REGEXP"
  | .tilde => "~"
  | .tildeFolded => "~*"
  | .notTilde => "!~"
  | .notTildeFolded => "!~*"
  | .similarTo => "SIMILAR TO"
  | .notSimilarTo => "NOT SIMILAR TO"
  | .isIn => "IN"

/-- The operator whose token is the given text. -/
def parse? (text : String) : Option Operator :=
  all.find? fun op => Text.equalFolded op.sql (Text.trim text)

/-- Every operator is read from its token. -/
theorem parse?_sql (op : Operator) : parse? op.sql = some op := by
  cases op <;> decide

theorem trim_sql (op : Operator) : Text.trim op.sql = op.sql := by
  cases op <;> decide

/-- An operator is read from its token, in any case and with blanks around it, and no other text. -/
theorem parse?_eq_some_iff {text : String} {op : Operator} :
    parse? text = some op ↔ Text.equalFolded op.sql (Text.trim text) = true := by
  constructor
  · intro found
    unfold parse? at found
    have met := List.find?_some found
    exact met
  · intro same
    -- the text is compared with each token as the token of the operator is
    have tests : (fun other : Operator => Text.equalFolded other.sql (Text.trim text)) =
        fun other => Text.equalFolded other.sql (Text.trim op.sql) := by
      funext other
      unfold Text.equalFolded at same ⊢
      rw [trim_sql, eq_of_beq same]
    rw [parse?, tests]
    exact parse?_sql op

end Operator

end SqlBuilder
