import SqlCompose.Text.Case
import SqlCompose.Text.Quoted

/-! # SQL dialects — what sets each of them apart

    A `Dialect` is one of six. Everything that depends on it and concerns one piece of text or one
    yes-or-no question is here:

    * names and default quotes;
    * literals: truth values, escapes inside strings and JSON documents, placeholders, intervals;
    * statement layout and the features that only some dialects have.

    How a dialect composes whole clauses is in `Dialect/Clause`. -/

namespace SqlCompose

/-- A dialect of SQL. -/
inductive Dialect
  | generic
  | mysql
  | postgres
  | oracle
  | mssql
  | sqlite
deriving DecidableEq, Inhabited

/-- Where an UPDATE statement has its sources and its limit. -/
inductive UpdateLayout
  /-- Joins, SET, FROM, WHERE. -/
  | standard
  /-- As `standard`, then ORDER BY and LIMIT. -/
  | trailingOrderLimit
  /-- SET, FROM with the target once more under another name, joins, WHERE, ORDER BY, LIMIT. -/
  | fromAfterSet
deriving DecidableEq

/-- How an INSERT says what to do about rows that are there already. -/
inductive ConflictStyle
  | onConflict
  | onDuplicateKey
deriving DecidableEq

namespace Dialect

/-! ## Names -/

/-- The name of the dialect. -/
def name : Dialect → String
  | generic => "generic"
  | mysql => "mysql"
  | postgres => "postgres"
  | oracle => "oracle"
  | mssql => "mssql"
  | sqlite => "sqlite"

/-- The dialect a lower-case name or one of its synonyms stands for. -/
def named? : String → Option Dialect
  | "generic" | "default" => some generic
  | "mysql" => some mysql
  | "postgres" | "postgresql" => some postgres
  | "oracle" => some oracle
  | "mssql" | "sqlserver" => some mssql
  | "sqlite" => some sqlite
  | _ => none

/-- Reads a name in any case of letters; the error is the message about an unknown one. -/
def read (text : String) : Except String Dialect :=
  let lowered := Text.lower text
  match named? lowered with
  | some d => .ok d
  | none => .error ("unknown dialect '" ++ lowered ++ "'")

/-- The dialect a name in a configuration stands for; case matters there. -/
def configured? : String → Option Dialect
  | "generic" => some generic
  | "mysql" | "my_sql" => some mysql
  | "postgres" | "postgresql" => some postgres
  | "oracle" => some oracle
  | "mssql" | "ms_sql" => some mssql
  | "sqlite" => some sqlite
  | _ => none

/-! ## Default quotes -/

/-- The quote around identifiers. -/
def identQuote : Dialect → String
  | mysql => "`"
  | _ => "\""

/-- The quote around aliases; empty when it is the one around identifiers. -/
def aliasQuote : Dialect → String
  | postgres | oracle => "\""
  | _ => ""

/-! ## Literals -/

/-- The literal for a truth value. -/
def boolText (d : Dialect) (b : Bool) : String :=
  match d with
  | sqlite => if b then "1" else "0"
  | _ => if b then "true" else "false"

/-- Protects the inside of a string literal: quotes are doubled, then, for MySQL, backslashes. -/
def escapeString (d : Dialect) (text quote : String) : String :=
  match d with
  | mysql => Text.backslashed (Text.doubled text quote)
  | _ => Text.doubled text quote

/-- Protects a JSON literal that is already between its quotes. -/
def escapeJson (d : Dialect) (text : String) : String :=
  match d with
  | mysql => Text.backslashed text
  | _ => text

/-- The placeholder for the bind value with this index, counted from one. -/
def placeholder (d : Dialect) (index : Nat) : String :=
  match d with
  | mysql => "%s"
  | postgres => "$" ++ toString index
  | _ => "?"

/-- An interval literal; the unit stands inside the quotes or behind them. -/
def intervalText (d : Dialect) (amount unit : String) : String :=
  match d with
  | mysql | oracle => "INTERVAL '" ++ amount ++ "' " ++ unit
  | _ => "INTERVAL '" ++ amount ++ " " ++ unit ++ "'"

/-- The name a function has in this dialect, if it is not its own. -/
def functionName? (d : Dialect) (name : String) : Option String :=
  match d with
  | mssql => if Text.upper name = "POW" then some "POWER" else none
  | _ => none

/-! ## Statement layout -/

/-- Whether the operands of a set operation stand in parentheses. -/
def wrapsOperands : Dialect → Bool
  | mysql => false
  | _ => true

/-- Whether the offset comes before the limit. -/
def offsetFirst : Dialect → Bool
  | oracle | mssql => true
  | _ => false

/-- The layout of UPDATE statements. -/
def updateLayout : Dialect → UpdateLayout
  | mysql => .trailingOrderLimit
  | postgres | sqlite => .fromAfterSet
  | _ => .standard

/-- The style of conflict clauses. -/
def conflictStyle : Dialect → ConflictStyle
  | mysql => .onDuplicateKey
  | _ => .onConflict

/-! ## Features -/

/-- Whether GROUP BY may name an alias of the select list. -/
def groupsByAlias : Dialect → Bool
  | oracle | mssql => false
  | _ => true

/-- Whether statements may return rows with RETURNING. -/
def hasReturning (d : Dialect) : Bool := d == postgres

/-- Whether there is `SELECT DISTINCT ON`. -/
def hasDistinctOn (d : Dialect) : Bool := d == postgres

/-- Whether there is `SELECT TOP`. -/
def hasTop (d : Dialect) : Bool := d == mssql

/-- Whether SELECT takes modifiers. -/
def hasModifiers (d : Dialect) : Bool := d == mysql

/-- Whether there is `FOR NO KEY UPDATE`. -/
def hasNoKeyUpdate (d : Dialect) : Bool := d == postgres

end Dialect

end SqlCompose
