import SqlBuilder.Column
import SqlBuilder.Ident.Parse
import SqlBuilder.Number.Decimal
import SqlBuilder.Shape

/-!
# Errors

Every failure is held by its cause.  The causes fall into classes; a message
starts with the headline of its class and goes on with what is said about the
cause.
-/

namespace SqlBuilder

/-- The places where a statement takes an expression. -/
inductive Place where
  | select
  | table
  | join
  | target
  | insertColumn
  | update
  | groupBy
  | concatColumn
  deriving DecidableEq

/-- The name of a place in messages. -/
def Place.label : Place → String
  | .select => "select"
  | .table => "from"
  | .join => "join"
  | .target => "target"
  | .insertColumn => "insert column"
  | .update => "update"
  | .groupBy => "group by"
  | .concatColumn => "concat column"

/-- Arguments that a call cannot take. -/
inductive ArgumentFault where
  | identifier (fault : Ident.Fault)
  | dialect (name : String)
  | blankExpression (place : Place)
  | blankLabel
  | parameterName (name : String)
  | conflictingBinding (name : String)
  | inOperand (shape : Shape)
  | betweenOperand
  | unequalLengths (columns operators values : Nat)
  | direction (text : String)
  | directionsForOneColumn
  | directionCount (columns directions : Nat)
  | noRowToExtend
  | grammarCannotExecute (grammar : String)
  deriving DecidableEq

/-- What is said about an argument. -/
def ArgumentFault.text : ArgumentFault → String
  | .identifier fault => fault.text
  | .dialect name => "unknown SQL dialect '" ++ name ++ "'"
  | .blankExpression place => place.label ++ " expression cannot be empty"
  | .blankLabel => "concat alias cannot be empty"
  | .parameterName name => "invalid parameter name '" ++ name ++ "'"
  | .conflictingBinding name =>
    "parameter '" ++ name ++ "' is bound to different values in merged queries"
  | .inOperand shape => "IN expects a list or sub-query, got " ++ shape.label
  | .betweenOperand => "BETWEEN expects a list of exactly two bounds"
  | .unequalLengths columns operators values =>
    "where lists must have the same length (columns: " ++ toString columns ++ ", operators: " ++
      toString operators ++ ", values: " ++ toString values ++ ")"
  | .direction text => "order direction must be ASC or DESC, got '" ++ text ++ "'"
  | .directionsForOneColumn => "a single order column takes a single direction"
  | .directionCount columns directions =>
    "got " ++ toString columns ++ " order columns but " ++ toString directions ++ " directions"
  | .noRowToExtend => "value() needs a row to extend; call values() first"
  | .grammarCannotExecute grammar =>
    "execution goes through tokio-postgres and needs the postgres grammar, not " ++ grammar

/-- Why a read-only statement refuses a call. -/
inductive Refusal where
  | writes (kind : WriteKind)
  | keyword (word : String)
  deriving DecidableEq

/-- What is said about a refusal. -/
def Refusal.text : Refusal → String
  | .writes kind => kind.keyword ++ " is not allowed on a read-only builder"
  | .keyword word => "raw SQL containing '" ++ word ++ "' is not allowed on a read-only builder"

/-- The two counts of a pagination. -/
inductive Count where
  | limit
  | offset
  deriving DecidableEq

/-- The name of a count in messages. -/
def Count.label : Count → String
  | .limit => "limit"
  | .offset => "offset"

/-- Why a statement has no text. -/
inductive RenderFault where
  | undecided
  | noRawText
  | negative (count : Count) (n : Int64)
  | notFinite (x : Double)
  | betweenBounds
  | lockedMember
  | boundedMember (grammar : String)
  | noConcatColumn
  | noInsertTarget
  | noRows
  | rowWidth (row values columns : Nat)
  | joined (kind : WriteKind)
  | noUpdateTable
  | noAssignment
  | noDeleteTable
  | boundedWrite (grammar : String) (kind : WriteKind)
  | offsetWrite (kind : WriteKind)
  deriving DecidableEq

/-- What is said about a statement without text. -/
def RenderFault.text : RenderFault → String
  | .undecided =>
    "builder has no statement kind; call select, insert, update, delete or raw first"
  | .noRawText => "raw statement has no text"
  | .negative count n => count.label ++ " cannot be negative (got " ++ toString n.toInt ++ ")"
  | .notFinite x => "cannot render float " ++ x.text
  | .betweenBounds => "BETWEEN needs exactly two bounds"
  | .lockedMember => "a UNION member cannot lock rows"
  | .boundedMember grammar =>
    grammar ++ " cannot apply ORDER BY or LIMIT to a single UNION member"
  | .noConcatColumn => "group concat needs at least one column"
  | .noInsertTarget => "INSERT needs a target table; call into()"
  | .noRows => "INSERT needs at least one row of values"
  | .rowWidth row values columns =>
    "INSERT row " ++ toString row ++ " has " ++ toString values ++ " values for " ++
      toString columns ++ " columns"
  | .joined kind => kind.keyword ++ " cannot render joins"
  | .noUpdateTable => "UPDATE needs a table"
  | .noAssignment => "UPDATE needs at least one assignment; call set()"
  | .noDeleteTable => "DELETE needs a table; call into() or from()"
  | .boundedWrite grammar kind =>
    grammar ++ " does not support ORDER BY or LIMIT on " ++ kind.keyword
  | .offsetWrite kind => kind.keyword ++ " cannot have an OFFSET"

/-- Failures of building, rendering and running a statement. -/
inductive Error where
  | argument (fault : ArgumentFault)
  | operator (text : String)
  | readOnly (refusal : Refusal)
  | unresolvable (column : Column)
  | unbindable (shape : Shape)
  | kindConflict (current requested : StatementKind)
  | render (fault : RenderFault)
  | notFound (text : String)

/-- The classes of failures. -/
inductive ErrorClass where
  | invalidArgument
  | invalidOperator
  | readOnlyViolation
  | unresolvableColumn
  | unsupportedBindType
  | kindConflict
  | compile
  | notFound
  deriving DecidableEq

/-- The headline of a class; a conflict of kinds has none. -/
def ErrorClass.headline : ErrorClass → String
  | .invalidArgument => "Invalid argument: "
  | .invalidOperator => "Invalid operator: "
  | .readOnlyViolation => "Read-only violation: "
  | .unresolvableColumn => "Unresolvable column reference: "
  | .unsupportedBindType => "Unsupported bind type: "
  | .kindConflict => ""
  | .compile => "Compile error: "
  | .notFound => "Not found: "

namespace Error

/-- The class of a failure. -/
def toClass : Error → ErrorClass
  | .argument _ => .invalidArgument
  | .operator _ => .invalidOperator
  | .readOnly _ => .readOnlyViolation
  | .unresolvable _ => .unresolvableColumn
  | .unbindable _ => .unsupportedBindType
  | .kindConflict _ _ => .kindConflict
  | .render _ => .compile
  | .notFound _ => .notFound

/-- What is said about the cause. -/
def detail : Error → String
  | .argument fault => fault.text
  | .operator text => text
  | .readOnly refusal => refusal.text
  | .unresolvable column => column.describe ++ " resolves to an empty name"
  | .unbindable shape => "cannot bind a " ++ shape.label ++ " value"
  | .kindConflict current requested =>
    "Builder is already a " ++ current.label ++ " query; cannot turn it into " ++ requested.label
  | .render fault => fault.text
  | .notFound text => text

/-- The message of a failure. -/
def message (error : Error) : String :=
  error.toClass.headline ++ error.detail

end Error

end SqlBuilder
