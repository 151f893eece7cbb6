import SqlCompose.Dialect.Clause
import SqlCompose.Term.Interval
import SqlCompose.Term.Operator

/-! # The tree — terms, sources and statements

    A statement holds terms and sources, a term may hold statements, and a source may be one; so the
    types of the tree are defined together.

    * `Term` — an expression with an optional alias; `Expr` lists the kinds of expressions.
    * `Table`, `FromItem`, `Source` — what is read from, what stands in FROM or JOIN, and what a
      column belongs to.
    * `Query` — one SELECT, INSERT, UPDATE or DELETE under construction.
    * `SetOperation` — statements combined by UNION and the like. -/

namespace SqlCompose

/-! ## Parts without terms -/

/-- A schema, inside other schemas or by itself. -/
structure Schema where
  /-- The schemas around it, the outermost first. -/
  parents : List String := []
  name    : String
deriving DecidableEq

/-- How a source is joined to the others. -/
inductive JoinKind
  | inner | left | leftOuter | right | rightOuter | outer | fullOuter | cross | hash
deriving DecidableEq

/-- The words before `JOIN`; an inner join has none. -/
def JoinKind.text : JoinKind → String
  | inner => ""
  | left => "LEFT"
  | leftOuter => "LEFT OUTER"
  | right => "RIGHT"
  | rightOuter => "RIGHT OUTER"
  | outer | fullOuter => "FULL OUTER"
  | cross => "CROSS"
  | hash => "HASH"

/-- What combines the rows of two statements. -/
inductive SetOperator
  | union | unionAll | intersect | except | minus
deriving DecidableEq

/-- The words of a set operator. -/
def SetOperator.text : SetOperator → String
  | union => "UNION"
  | unionAll => "UNION ALL"
  | intersect => "INTERSECT"
  | except => "EXCEPT"
  | minus => "MINUS"

/-- A lock on the rows that are read. -/
structure Lock where
  noWait     : Bool := false
  skipLocked : Bool := false
  /-- The tables whose rows are locked; all of them if none is named. -/
  tables     : List String := []
  noKey      : Bool := false
deriving DecidableEq

/-- Adds tables to those whose rows are locked, each only once. -/
def Lock.of (lock : Lock) (names : List String) : Lock :=
  { lock with
    tables := names.foldl (fun ts t => if ts.contains t then ts else ts ++ [t]) lock.tables }

/-! ## The tree itself -/

mutual

/-- The kinds of expressions. -/
inductive Expr
  /-- Text that is written as it stands. -/
  | literal (sql : String)
  /-- A constant; one that may not be bound is always written. -/
  | value (v : Value) (mayBind : Bool)
  /-- A column, of a source or of none. -/
  | field (name : String) (source : Option Source)
  /-- All columns, of a source or of all. -/
  | star (source : Option Source)
  | tuple (items : List Term)
  | array (items : List Term)
  | call (c : Call)
  | case (branches : List Branch) (otherwise : Option Term)
  | interval (i : Interval)
  /-- A JSON document as a string literal. -/
  | document (d : Json)
  | arithmetic (op : ArithmeticOp) (left right : Term)
  | negative (operand : Term)
  | parameter (p : Parameter)
  | comparison (op : Comparator) (left right : Term)
  | combination (op : Combinator) (left right : Term)
  /-- Two comparisons in a row, the first one's right side being the second one's left. -/
  | chain (first second : Comparator) (left middle right : Term)
  | membership (operand container : Term) (negated : Bool)
  | between (operand lower upper : Term)
  /-- A stretch of time: `operand FROM start TO stop`. -/
  | period (operand start stop : Term)
  | bitAnd (operand : Term) (mask : Int64)
  | isNull (operand : Term)
  | not (operand : Term)
  | all (operand : Term)
  | jsonPath (column : Term) (path : List PathStep)
  | subquery (q : Query)
  | setOperation (s : SetOperation)
  /-- The value that an INSERT had for a column. -/
  | insertedValue (field : Term)
  | index (name : String)
  | pseudoColumn (name : String)
  | atTimeZone (operand : Term) (zone : String) (isInterval : Bool)
  /-- The criterion that asks for nothing. -/
  | empty

/-- An expression with an optional alias. -/
structure Term where
  expr      : Expr
  aliasName : Option String := none

/-- A branch of a CASE expression. -/
structure Branch where
  condition : Term
  result    : Term

/-- What stands between the arguments of a call and its closing parenthesis. -/
inductive CallSuffix
  | words (text : String)
  | ignoreNulls
  | source (t : Term)

/-- A term to sort by. -/
structure Ordering where
  term      : Term
  direction : Option Direction

/-- What a window function ranges over. -/
structure Window where
  partition : List Term := []
  orderings : List Ordering := []

/-- The call of a function. -/
structure Call where
  name      : String
  arguments : List Term := []
  schema    : Option Schema := none
  suffix    : Option CallSuffix := none
  /-- Whether the name stands without parentheses. -/
  bare      : Bool := false
  aggregate : Bool := false
  distinct  : Bool := false
  filter    : Option Term := none
  window    : Option Window := none
  frame     : Option Frame := none

/-- The stretch of time that a table is read or changed for. -/
inductive Temporal
  | period (t : Term)
  | portion (t : Term)

/-- A table by name. -/
structure Table where
  name     : String
  schema   : Option Schema := none
  slot     : Slot
  temporal : Option Temporal := none

/-- What a column belongs to. -/
inductive Source
  | table (t : Table)
  /-- A statement that is read from, known by its slot. -/
  | derived (slot : Slot)
  | cte (name : String)

/-- What can stand in FROM or JOIN. -/
inductive FromItem
  | table (t : Table)
  | query (q : Query)
  | setOperation (s : SetOperation)
  /-- A WITH clause by name. -/
  | cte (name : String)

/-- A WITH clause. -/
structure Cte where
  name    : String
  body    : FromItem
  columns : List Term := []

/-- What decides which rows are joined. -/
inductive JoinCondition
  | none
  | on (criterion : Term) (collation : Option String)
  | using (fields : List Term)

/-- A joined source. -/
structure Join where
  item      : FromItem
  kind      : JoinKind
  condition : JoinCondition

/-- A column and its new value. -/
structure Assignment where
  field : Term
  value : Term

/-- A column and its new value when the row is there already; without one, the value that the
    INSERT had for it. -/
structure Resolution where
  field : Term
  value : Option Term

/-- What an INSERT does about rows that are there already. -/
structure Conflict where
  /-- Whether a conflict clause is open. -/
  isOpen       : Bool := false
  fields       : List Term := []
  doNothing    : Bool := false
  resolutions  : List Resolution := []
  /-- Which of the rows that are there count as conflicting. -/
  targetFilter : Term
  /-- Which of them are updated. -/
  updateFilter : Term

/-- A SELECT, INSERT, UPDATE or DELETE under construction. -/
structure Query where
  dialect       : Dialect
  slot          : Slot
  sources       : List FromItem := []
  ctes          : List Cte := []
  selects       : List Term := []
  /-- Whether all columns of all sources are selected. -/
  selectsAll    : Bool := false
  /-- The sources all of whose columns are selected. -/
  starred       : List (Option Source) := []
  distinct      : Bool := false
  distinctOn    : List Term := []
  top           : Option Int64 := none
  modifiers     : List String := []
  insertTable   : Option Table := none
  updateTable   : Option Table := none
  deletes       : Bool := false
  /-- Whether the rows replace those that are there. -/
  replaces      : Bool := false
  /-- Whether the insert table is the target of SELECT … INTO. -/
  selectsInto   : Bool := false
  columns       : List Term := []
  rows          : List (List Term) := []
  assignments   : List Assignment := []
  forcedIndexes : List String := []
  usedIndexes   : List String := []
  joins         : List Join := []
  prefilter     : Term
  filter        : Term
  groups        : List Term := []
  withTotals    : Bool := false
  withRollup    : Bool := false
  groupFilter   : Term
  orderings     : List Ordering := []
  limit         : Option Int64 := none
  offset        : Option Int64 := none
  lock          : Option Lock := none
  conflict      : Conflict
  returns       : List Term := []
  /-- Whether all columns are returned. -/
  returnsAll    : Bool := false
  /-- The number that the next unnamed subquery is named by. -/
  subqueryCount : Nat := 0
  /-- The aliases given to unnamed subqueries and to tables that are joined twice. -/
  scope         : Scope := []
  /-- Whether a criterion names a source that the statement does not have. -/
  foreignSource : Bool := false

/-- A statement behind a set operator. -/
structure Operand where
  operator : SetOperator
  query    : Query

/-- Statements combined by set operators. -/
structure SetOperation where
  base      : Query
  operands  : List Operand
  orderings : List Ordering := []
  limit     : Option Int64 := none
  offset    : Option Int64 := none
  slot      : Slot

end

/-- A column argument: a bare name, to be bound to a source, or a term. -/
inductive Column
  | name (name : String)
  | term (t : Term)

end SqlCompose
