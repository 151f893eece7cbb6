import SqlCompose.Tree.Basic

/-! # Building terms — constants, columns, criteria and arithmetic

    `Term.and`, `Term.or` and `Term.xor` take the empty criterion for their identity, so that
    `Term.conjunction` and `Term.disjunction` of no criteria ask for nothing. -/

namespace SqlCompose

namespace Term

/-! ## Leaves -/

/-- Text that is written as it stands. -/
def literal (sql : String) : Term := ⟨.literal sql, none⟩

/-- The word `NULL`. -/
def null : Term := literal "NULL"

/-- The word `SYSTEM_TIME`. -/
def systemTime : Term := literal "SYSTEM_TIME"

/-- A constant, bound where constants are. -/
def value (v : Value) : Term := ⟨.value v true, none⟩

/-- A constant that is always written. -/
def inline (v : Value) : Term := ⟨.value v false, none⟩

/-- A column of a source, or of none. -/
def column (name : String) (source : Option Source) : Term := ⟨.field name source, none⟩

/-- A column that belongs to no source. -/
def field (name : String) : Term := column name none

/-- All columns. -/
def star : Term := ⟨.star none, none⟩

/-- All columns of a source. -/
def starOf (source : Source) : Term := ⟨.star (some source), none⟩

/-- Terms between parentheses. -/
def tuple (items : List Term) : Term := ⟨.tuple items, none⟩

/-- One term between parentheses. -/
def bracket (item : Term) : Term := tuple [item]

/-- An array. -/
def array (items : List Term) : Term := ⟨.array items, none⟩

/-- A JSON document as a string literal. -/
def document (d : Json) : Term := ⟨.document d, none⟩

/-- A placeholder. -/
def parameter (p : Parameter) : Term := ⟨.parameter p, none⟩

/-- The name of an index. -/
def index (name : String) : Term := ⟨.index name, none⟩

/-- A name that is written without quotes. -/
def pseudoColumn (name : String) : Term := ⟨.pseudoColumn name, none⟩

/-- An interval. -/
def interval (i : Interval) : Term := ⟨.interval i, none⟩

/-- A statement as a term. -/
def ofQuery (q : Query) : Term := ⟨.subquery q, none⟩

/-- A set operation as a term. -/
def ofSetOperation (s : SetOperation) : Term := ⟨.setOperation s, none⟩

/-- The value that an INSERT had for a column. -/
def insertedValue (column : Term) : Term := ⟨.insertedValue column, none⟩

/-- A term in another time zone. -/
def atTimeZone (zone : String) (isInterval : Bool) (t : Term) : Term :=
  ⟨.atTimeZone t zone isInterval, none⟩

end Term

/-- The term a column argument stands for; a bare name is a column of the given source. -/
def Column.boundTo (source : Option Source) : Column → Term
  | .name bare => Term.column bare source
  | .term t => t

/-- A column of an item. -/
def FromItem.column (name : String) (item : FromItem) : Term := .column name (some item.source)

/-- All columns of an item. -/
def FromItem.star (item : FromItem) : Term := .starOf item.source

namespace Term

/-! ## Aliases -/

/-- The term under an alias or without one. A statement takes the alias for its own and is no
    longer a copy of what it was. -/
def withAlias (identity : Identity) (aliasName : Option String) (t : Term) : Term :=
  match t.expr with
  | .subquery q => { t with expr := .subquery { q with slot := ⟨identity, aliasName⟩ } }
  | .setOperation s => { t with expr := .setOperation { s with slot := ⟨identity, aliasName⟩ } }
  | _ => { t with aliasName := aliasName }

/-! ## Criteria -/

/-- A comparison. -/
def compare (op : Comparator) (left right : Term) : Term := ⟨.comparison op left right, none⟩

/-- Two comparisons in a row. -/
def chain (first second : Comparator) (left middle right : Term) : Term :=
  ⟨.chain first second left middle right, none⟩

/-- Whether a term lies between two others. -/
def between (t lower upper : Term) : Term := ⟨.between t lower upper, none⟩

/-- A stretch of time from one term to another. -/
def fromTo (t start stop : Term) : Term := ⟨.period t start stop, none⟩

/-- A term followed by `ALL`. -/
def all (t : Term) : Term := ⟨.all t, none⟩

/-- Whether a term is in a container. -/
def inContainer (t container : Term) : Term := ⟨.membership t container false, none⟩

/-- Whether a term is one of several. -/
def isIn (t : Term) (items : List Term) : Term := t.inContainer (tuple items)

/-- Whether a term is null. -/
def isNull (t : Term) : Term := ⟨.isNull t, none⟩

/-- The bits of a term that a mask keeps. -/
def bitAnd (t : Term) (mask : Int64) : Term := ⟨.bitAnd t mask, none⟩

/-- A term behind `NOT`. -/
def not (t : Term) : Term := ⟨.not t, none⟩

/-- The opposite of a criterion: a test of membership is turned around, anything else stands
    behind `NOT`. -/
def negate (t : Term) : Term :=
  match t.expr with
  | .membership operand container negated =>
    { t with expr := .membership operand container (!negated) }
  | _ => t.not

/-- Whether a term is none of several. -/
def notIn (t : Term) (items : List Term) : Term := (t.isIn items).negate

/-- Whether a term is not in a container. -/
def notInContainer (t container : Term) : Term := (t.inContainer container).negate

/-- Whether a term is not null. -/
def notNull (t : Term) : Term := t.isNull.negate

/-- Two criteria combined; one that asks for nothing leaves the other alone. -/
def combine (op : Combinator) (left right : Term) : Term :=
  if left.isEmpty then right
  else if right.isEmpty then left
  else ⟨.combination op left right, none⟩

/-- A criterion that asks for nothing is no operand, on the left … -/
theorem empty_combine (op : Combinator) (t : Term) : combine op empty t = t := rfl

/-- … nor on the right. -/
theorem combine_empty (op : Combinator) {t : Term} (h : t.isEmpty = false) :
    combine op t empty = t := by
  show (if t.isEmpty then empty else t) = t
  rw [h]
  rfl

/-- Both criteria. -/
def and (left right : Term) : Term := combine .and left right

/-- One criterion or the other. -/
def or (left right : Term) : Term := combine .or left right

/-- One criterion but not the other. -/
def xor (left right : Term) : Term := combine .xor left right

/-- All of the criteria. -/
def conjunction (criteria : List Term) : Term := criteria.foldl and empty

/-- Any of the criteria. -/
def disjunction (criteria : List Term) : Term := criteria.foldl or empty

/-! ## Arithmetic -/

/-- An operation of arithmetic. -/
def arithmetic (op : ArithmeticOp) (left right : Term) : Term :=
  ⟨.arithmetic op left right, none⟩

/-- A term behind a minus sign. -/
def negative (t : Term) : Term := ⟨.negative t, none⟩

/-- The call of a plain function. -/
def call (name : String) (arguments : List Term) : Term :=
  ⟨.call { name := name, arguments := arguments }, none⟩

/-- A power. -/
def pow (base exponent : Term) : Term := call "POW" [base, exponent]

/-- A remainder. -/
def mod (left right : Term) : Term := call "MOD" [left, right]

/-! ## JSON -/

/-- A JSON document as the operand of a comparison: a scalar is a plain constant. A whole number
    that is no signed word becomes a floating-point one. -/
def ofJson : Json → Term
  | .null => null
  | .bool b => value (.bool b)
  | .string s => value (.str s)
  | .whole n =>
    match n.toInt64? with
    | some n => value (.int n)
    | none => value (.float (.ofInt n.val))
  | .float x => value (.float x)
  | d => document d

/-- The value at a path inside a JSON column. -/
def jsonPath (t : Term) (path : List PathStep) : Term := ⟨.jsonPath t path, none⟩

end Term

/-! ## CASE -/

/-- A CASE expression under construction. -/
structure Case where
  branches  : List Branch := []
  otherwise : Option Term := none
  aliasName : Option String := none

namespace Case

/-- Adds a branch. -/
def when (condition result : Term) (c : Case) : Case :=
  { c with branches := c.branches ++ [⟨condition, result⟩] }

/-- The expression as a term. -/
def toTerm (c : Case) : Term := ⟨.case c.branches c.otherwise, c.aliasName⟩

end Case

/-! ## Negation -/

/-- A negated term whose inside can still be built on. -/
structure Negation where
  inner     : Term
  aliasName : Option String := none

namespace Negation

/-- Builds on the inside. -/
def map (f : Term → Term) (n : Negation) : Negation := { n with inner := f n.inner }

/-- The negation as a term. -/
def toTerm (n : Negation) : Term := ⟨.not n.inner, n.aliasName⟩

end Negation

end SqlCompose
