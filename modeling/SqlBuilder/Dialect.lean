import SqlBuilder.Grammar
import SqlBuilder.Error

/-!
# Dialects

The four built-in dialects, each with its grammar and the names it is known
by.
-/

namespace SqlBuilder

/-- The built-in dialects. -/
inductive Dialect where
  | mysql
  | postgres
  | sqlite
  | sqlServer
  deriving DecidableEq

namespace Grammar

/-- The operator that matches without regard to case is plain `LIKE`. -/
def plainLike : Operator → String
  | .ilike => "LIKE"
  | op => op.sql

/-- Truth values as numbers. -/
def numericBool (value : Bool) : String :=
  if value then "1" else "0"

/-- Backslashes are doubled as well as quotes. -/
def doubleBackslashes (text : String) : String :=
  doubleQuotes (String.ofList (doubling '\\' text.toList))

/-- A pagination that needs a limit in front of every offset. -/
def limitBeforeOffset (unlimited : String) : Option Nat → Option Nat → Option String
  | none, some m => some ("LIMIT " ++ unlimited ++ " OFFSET " ++ toString m)
  | limit, offset => limitOffset limit offset

/-- MySQL and MariaDB. -/
def mysql : Grammar where
  name := "mysql"
  quote := .backtick
  randomOrder := "RAND()"
  escape := doubleBackslashes
  operator := plainLike
  pagination := fun limit offset _ => limitBeforeOffset "18446744073709551615" limit offset
  boundsWrites := true
  concatAggregate := fun columns separator =>
    "GROUP_CONCAT(" ++ ", ".intercalate columns ++ " SEPARATOR " ++ separator ++ ")"

/-- PostgreSQL: a parameter is marked by the position of its binding, if it has one. -/
def postgres : Grammar where
  name := "postgres"
  quote := .double
  randomOrder := "RANDOM()"
  marker := fun name position =>
    match position with
    | some n => "$" ++ toString n
    | none => ":" ++ name

/-- SQLite. -/
def sqlite : Grammar where
  name := "sqlite"
  quote := .double
  randomOrder := "RANDOM()"
  boolLiteral := numericBool
  operator := plainLike
  pagination := fun limit offset _ => limitBeforeOffset "-1" limit offset
  lockSuffix := none
  parenthesizesMembers := false
  concatAggregate := fun columns separator =>
    "GROUP_CONCAT(" ++ " || ".intercalate columns ++ ", " ++ separator ++ ")"

/-- `OFFSET` and `FETCH`, which need an order in front of them. -/
def offsetFetch (limit offset : Option Nat) (ordered : Bool) : Option String :=
  offset.map fun m =>
    (if ordered then "" else "ORDER BY (SELECT 0) ") ++ "OFFSET " ++ toString m ++ " ROWS" ++
      match limit with
      | some n => " FETCH NEXT " ++ toString n ++ " ROWS ONLY"
      | none => ""

/-- `TOP` serves for a limit without an offset. -/
def top : Option Nat → Option Nat → Option String
  | some n, none => some ("TOP " ++ toString n)
  | _, _ => none

/-- Microsoft SQL Server. -/
def sqlServer : Grammar where
  name := "sqlserver"
  quote := .bracket
  randomOrder := "NEWID()"
  marker := fun name _ => "@" ++ name
  boolLiteral := numericBool
  operator := plainLike
  selectTop := top
  pagination := offsetFetch
  lockSuffix := none
  tableLockHint := some "WITH (UPDLOCK, ROWLOCK)"

end Grammar

namespace Dialect

/-- The grammar of a dialect. -/
def grammar : Dialect → Grammar
  | .mysql => .mysql
  | .postgres => .postgres
  | .sqlite => .sqlite
  | .sqlServer => .sqlServer

/-- The name of a dialect. -/
def label (dialect : Dialect) : String :=
  dialect.grammar.name

/-- The names a dialect is known by. -/
def names : Dialect → List String
  | .mysql => ["mysql", "mariadb"]
  | .postgres => ["postgres", "postgresql", "pgsql"]
  | .sqlite => ["sqlite", "sqlite3"]
  | .sqlServer => ["sqlserver", "mssql", "sqlsrv"]

/-- Read the name of a dialect in any case, blanks at its ends aside. -/
def parse (text : String) : Except Error Dialect :=
  let name := Text.lower (Text.trim text)
  match [mysql, postgres, sqlite, sqlServer].find? (fun d => d.names.contains name) with
  | some dialect => .ok dialect
  | none => .error (.argument (.dialect name))

end Dialect

end SqlBuilder
