/-!
# Kinds of value

The kinds of value that a statement can hold, with the names that messages use
for them.
-/

namespace SqlBuilder

/-- The kinds of value. -/
inductive Shape where
  | null
  | bool
  | int
  | float
  | text
  | date
  | dateTime
  | parameter
  | column
  | list
  | query
  | group
  deriving DecidableEq

/-- The name of a kind of value in messages. -/
def Shape.label : Shape → String
  | .null => "null"
  | .bool => "bool"
  | .int => "int"
  | .float => "float"
  | .text => "string"
  | .date => "date"
  | .dateTime => "datetime"
  | .parameter => "parameter"
  | .column => "column"
  | .list => "list"
  | .query => "query"
  | .group => "group"

end SqlBuilder
