import SqlCompose.Tree

/-! # Names and sources in the tree — what goes by which name, and what belongs to what

    Nothing here looks further into the tree than at one node and its neighbours.

    * Two tables are the same when name, schema and own alias agree; two statements that are read
      from are the same when their slots have one identity.
    * A source's name inside a statement is the alias it has there, or else, for a table or a WITH
      clause, its own name. -/

namespace SqlCompose

open Draft

/-! ## Schemas and tables -/

namespace Schema

/-- The schema with the given names, the outermost first. -/
def chain? : List String → Option Schema
  | [] => none
  | first :: rest => some ⟨(first :: rest).dropLast, (first :: rest).getLast (by simp)⟩

/-- A schema inside this one. -/
def schema (s : Schema) (name : String) : Schema := ⟨s.parents ++ [s.name], name⟩

/-- The tokens of a schema. -/
def tokens (s : Schema) : List Token :=
  Token.joined .dot ((s.parents ++ [s.name]).map fun name => [.ident name])

/-- A schema in front of what it contains. -/
def qualifier : Option Schema → Draft
  | some s => Draft.tokens s.tokens ++ token .dot
  | none => empty

end Schema

namespace Table

/-- A table by name. -/
def named (identity : Identity) (name : String) : Table :=
  ⟨name, none, ⟨identity, none⟩, none⟩

/-- The table under an alias, no longer a copy of what it was. -/
def as (identity : Identity) (aliasName : String) (t : Table) : Table :=
  { t with slot := ⟨identity, some aliasName⟩ }

/-- The table in a schema. -/
def inSchema (s : Schema) (t : Table) : Table := { t with schema := some s }

/-- Whether name, schema and own alias agree. -/
def same (a b : Table) : Bool :=
  a.name == b.name && a.schema == b.schema && a.slot.aliasName == b.slot.aliasName

/-- The alias of a table, or else its name. -/
def knownAs (t : Table) : String := t.slot.aliasName.getD t.name

/-- The alias that a table has where it is written, or else its name. -/
def nameIn (ctx : Context) (t : Table) : String := (ctx.aliasOf t.slot).getD t.name

/-- Reads the table for a period. A table is read or changed for one stretch of time only. -/
def forPeriod (criterion : Term) (t : Table) : Except BuildError Table :=
  match t.temporal with
  | some (.period _) => .error (.alreadySet "for_")
  | some (.portion _) => .error (.alreadySet "for_portion")
  | none => .ok { t with temporal := some (.period criterion) }

/-- Changes the table for a portion of a period. -/
def forPortion (period : Term) (t : Table) : Except BuildError Table :=
  match t.temporal with
  | some (.period _) => .error (.alreadySet "for_")
  | some (.portion _) => .error (.alreadySet "for_portion")
  | none => .ok { t with temporal := some (.portion period) }

end Table

/-! ## Sources -/

namespace Source

/-- Whether two columns with these sources belong together. -/
def same : Source → Source → Bool
  | table a, table b => a.same b
  | derived a, derived b => a.same b
  | cte a, cte b => a == b
  | _, _ => false

/-- The source's own alias. -/
def aliasName : Source → Option String
  | table t => t.slot.aliasName
  | derived slot => slot.aliasName
  | cte name => some name

/-- The name that qualifies the source's columns, as far as the source itself knows. -/
def name : Source → Option String
  | table t => some t.knownAs
  | derived slot => slot.aliasName
  | cte name => some name

/-- The source's alias where it is written. -/
def aliasIn (ctx : Context) : Source → Option String
  | table t => ctx.aliasOf t.slot
  | derived slot => ctx.aliasOf slot
  | cte name => some name

/-- The name that qualifies the source's columns where they are written. -/
def nameIn (ctx : Context) : Source → Option String
  | table t => some (t.nameIn ctx)
  | derived slot => ctx.aliasOf slot
  | cte name => some name

/-- Whether two sources are missing or belong together. -/
def sameOption : Option Source → Option Source → Bool
  | none, none => true
  | some a, some b => a.same b
  | _, _ => false

/-- What stands in front of a column: the name of its source, if columns are qualified or if the
    source has an alias. -/
def qualifier? (ctx : Context) : Option Source → Option String
  | none => none
  | some s => if ctx.qualified || (s.aliasIn ctx).isSome then s.nameIn ctx else none

/-- What stands in front of a column, as written. -/
def qualifier (ctx : Context) (s : Option Source) : Draft :=
  match qualifier? ctx s with
  | some name => token (.ident name) ++ token .dot
  | none => empty

end Source

namespace FromItem

/-- What columns of the item belong to. -/
def source : FromItem → Source
  | table t => .table t
  | query q => .derived q.slot
  | setOperation s => .derived s.slot
  | cte name => .cte name

/-- The place of the item's alias; a WITH clause has none. -/
def slot? : FromItem → Option Slot
  | table t => some t.slot
  | query q => some q.slot
  | setOperation s => some s.slot
  | cte _ => none

/-- The table that the item is, if it is one. -/
def table? : FromItem → Option Table
  | table t => some t
  | _ => none

/-- Whether the item is a SELECT or another single statement. -/
def isQuery : FromItem → Bool
  | query _ => true
  | _ => false

/-- Whether columns of this source belong to the item. -/
def owns (item : FromItem) (s : Source) : Bool :=
  match item, s with
  | table a, .table b => a.same b
  | query q, .derived slot => q.slot.same slot
  | setOperation o, .derived slot => o.slot.same slot
  | cte a, .cte b => a == b
  | _, _ => false

/-- Whether the item is the WITH clause of this name, or would be read as it. -/
def reads (name : String) : FromItem → Bool
  | cte other => other == name
  | table t => t.schema.isNone && t.name == name
  | _ => false

end FromItem

/-! ## Terms -/

namespace Term

/-- The criterion that asks for nothing. -/
def empty : Term := ⟨.empty, none⟩

/-- Whether the term is the criterion that asks for nothing. -/
def isEmpty (t : Term) : Bool :=
  match t.expr with
  | .empty => true
  | _ => false

/-- The name that the term goes by; that of a statement is the statement's own. -/
def knownAs (t : Term) : Option String :=
  match t.expr with
  | .subquery q => q.slot.aliasName
  | .setOperation s => s.slot.aliasName
  | _ => t.aliasName

/-- The constant that the term is, if it is one. -/
def constant? (t : Term) : Option Value :=
  match t.expr with
  | .value v _ => some v
  | _ => none

/-- The arithmetic operator at the top of the term. -/
def arithmeticOp? (t : Term) : Option ArithmeticOp :=
  match t.expr with
  | .arithmetic op _ _ => some op
  | _ => none

/-- Whether the term, as an operand of a combinator, has another combinator at its top. -/
def differsFrom (op : Combinator) (t : Term) : Bool :=
  match t.expr with
  | .combination other _ _ => other != op
  | _ => false

/-- The source of a column, or of all columns of one. -/
def source? (t : Term) : Option Source :=
  match t.expr with
  | .field _ source => source
  | .star source => source
  | _ => none

/-- Whether the term stands for all columns of something. -/
def isStar (t : Term) : Bool :=
  match t.expr with
  | .star _ => true
  | _ => false

/-- Whether the term is a column or stands for all columns of something. -/
def isColumn (t : Term) : Bool :=
  match t.expr with
  | .field _ _ => true
  | .star _ => true
  | _ => false

theorem isColumn_of_isStar {t : Term} (h : t.isStar = true) : t.isColumn = true := by
  obtain ⟨expr, aliasName⟩ := t
  cases expr with
  | star source => rfl
  | _ => exact absurd h Bool.false_ne_true

end Term

/-! ## Statements -/

namespace Conflict

/-- No conflict clause. -/
def none : Conflict := ⟨false, [], false, [], Term.empty, Term.empty⟩

end Conflict

namespace Query

/-- A statement in which nothing is set yet. -/
def start (identity : Identity) (dialect : Dialect) : Query where
  dialect := dialect
  slot := ⟨identity, Option.none⟩
  prefilter := Term.empty
  filter := Term.empty
  groupFilter := Term.empty
  conflict := Conflict.none

/-- Whether the statement has not enough in it to be written. -/
def isBlank (q : Query) : Bool :=
  let hasVerb := !q.selects.isEmpty || q.insertTable.isSome || q.deletes || q.updateTable.isSome
  !hasVerb || (q.insertTable.isSome && q.selects.isEmpty && q.rows.isEmpty) ||
    (q.updateTable.isSome && q.assignments.isEmpty)

/-- Whether the statement's columns have to say which source they are from. -/
def isQualified (q : Query) : Bool :=
  !q.joins.isEmpty || 1 < q.sources.length || (q.sources.head?.any FromItem.isQuery) ||
    q.foreignSource || (q.updateTable.isSome && !q.sources.isEmpty)

/-- The context of the statement's clauses. What the surroundings ask of the statement as a whole
    they do not ask of its clauses. -/
def clauseContext (q : Query) (outer : Context) : Context :=
  { outer with
    nested := false
    declares := false
    qualified := q.isQualified
    groupByAlias := q.dialect.groupsByAlias && outer.groupByAlias }

/-- Whether the statement inserts, be it rows or what it selects. -/
def inserts (q : Query) : Bool := q.insertTable.isSome && !q.selectsInto && !q.deletes

/-- The aliases of the select list. -/
def selectedAliases (q : Query) : List String := q.selects.filterMap Term.knownAs

/-- Whether FROM or a join reads the WITH clause of this name. -/
def reads (name : String) (q : Query) : Bool :=
  q.sources.any (FromItem.reads name) || q.joins.any fun j => j.item.reads name

/-- Whether the statement's upserts are those of MySQL. -/
def usesDuplicateKey (q : Query) : Bool := q.dialect.conflictStyle == .onDuplicateKey

end Query

namespace SetOperation

/-- Whether one of the statements reads the WITH clause of this name. -/
def reads (name : String) (s : SetOperation) : Bool :=
  s.base.reads name || s.operands.any fun o => o.query.reads name

end SetOperation

/-- Whether the WITH clause reads itself. -/
def Cte.isRecursive (c : Cte) : Bool :=
  match c.body with
  | .query q => q.reads c.name
  | .setOperation s => s.reads c.name
  | _ => false

end SqlCompose
