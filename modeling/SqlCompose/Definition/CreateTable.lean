import SqlCompose.Render

/-! # CREATE TABLE — a table defined by its columns or by a statement

    The definition is written once there is a table and something that says what is in it. Columns
    and a statement exclude each other. -/

namespace SqlCompose

open Draft

/-! ## Columns -/

/-- The definition of a column. -/
structure ColumnDefinition where
  name     : String
  type     : Option String := none
  /-- Whether nulls are allowed, if anything is said about it. -/
  nullable : Option Bool := none
  default  : Option Term := none

namespace ColumnDefinition

/-- The column's name. -/
def nameDraft (c : ColumnDefinition) : Draft := token (.ident c.name)

/-- What is said about nulls. -/
def nullableDraft : Option Bool → Draft
  | none => empty
  | some true => space ++ word .null
  | some false => space ++ words [.not, .null]

/-- The definition as written. -/
def draft (ctx : Context) (c : ColumnDefinition) : Draft :=
  let type := match c.type with
    | some text => space ++ raw text
    | none => empty
  let default := match c.default with
    | some t => clause [.default] (t.draft ctx)
    | none => empty
  c.nameDraft ++ type ++ nullableDraft c.nullable ++ default

/-- The names of columns between parentheses. -/
def listDraft (cs : List ColumnDefinition) : Draft := parens (commas (cs.map nameDraft))

end ColumnDefinition

/-- A named period between two columns. -/
structure PeriodDefinition where
  name  : String
  start : ColumnDefinition
  stop  : ColumnDefinition

/-- The definition of a period as written. -/
def PeriodDefinition.draft (p : PeriodDefinition) : Draft :=
  words [.period, .for_] ++ space ++ token (.ident p.name) ++ space ++
    ColumnDefinition.listDraft [p.start, p.stop]

/-! ## Tables -/

/-- A CREATE TABLE under construction. -/
structure CreateTable where
  dialect     : Dialect
  table       : Option Table := none
  temporary   : Bool := false
  unlogged    : Bool := false
  ifNotExists : Bool := false
  versioned   : Bool := false
  columns     : List ColumnDefinition := []
  periods     : List PeriodDefinition := []
  uniques     : List (List ColumnDefinition) := []
  primaryKey  : List ColumnDefinition := []
  /-- The statement whose rows the table starts with. -/
  statement   : Option Query := none

namespace CreateTable

/-- Says which table is created, which can be said once. -/
def named (t : Table) (c : CreateTable) : Except BuildError CreateTable :=
  if c.table.isSome then .error (.alreadySet "create_table") else .ok { c with table := some t }

/-- Adds columns. -/
def addColumns (columns : List ColumnDefinition) (c : CreateTable) :
    Except BuildError CreateTable :=
  if c.statement.isSome then .error (.alreadySet "as_select")
  else .ok { c with columns := c.columns ++ columns }

/-- Adds a period. -/
def addPeriod (p : PeriodDefinition) (c : CreateTable) : CreateTable :=
  { c with periods := c.periods ++ [p] }

/-- Adds columns that no two rows agree in. -/
def addUnique (columns : List ColumnDefinition) (c : CreateTable) : CreateTable :=
  { c with uniques := c.uniques ++ [columns] }

/-- Says which columns identify a row, which can be said once. -/
def withPrimaryKey (columns : List ColumnDefinition) (c : CreateTable) :
    Except BuildError CreateTable :=
  if c.primaryKey.isEmpty then .ok { c with primaryKey := columns }
  else .error (.alreadySet "primary_key")

/-- Fills the table from a statement. -/
def fromStatement (q : Query) (c : CreateTable) : Except BuildError CreateTable :=
  if c.columns.isEmpty then .ok { c with statement := some q } else .error (.alreadySet "columns")

/-- The parts between the parentheses. -/
def parts (ctx : Context) (c : CreateTable) : List Draft :=
  let key :=
    if c.primaryKey.isEmpty then []
    else [words [.primary, .key] ++ space ++ ColumnDefinition.listDraft c.primaryKey]
  c.columns.map (ColumnDefinition.draft ctx) ++ c.periods.map PeriodDefinition.draft ++
    c.uniques.map (fun cs => word .unique ++ space ++ ColumnDefinition.listDraft cs) ++ key

/-- The definition as written. -/
def draft (ctx : Context) (c : CreateTable) : Draft :=
  match c.table with
  | none => empty
  | some table =>
    let head :=
      word .create ++ space ++
        (if c.temporary then word .temporary ++ space
          else when c.unlogged (word .unlogged ++ space)) ++
        word .table ++ space ++ when c.ifNotExists (words [.if_, .not, .exists_] ++ space) ++
        table.draft ctx
    match c.statement with
    | some q =>
      head ++ clause [.as] (parens (q.draft { ctx with nested := false, declares := false }))
    | none =>
      if c.columns.isEmpty then empty
      else
        head ++ space ++ parens (commas (c.parts ctx)) ++
          when c.versioned (space ++ words [.with_, .systemVersioning])

/-- The text of the definition in its dialect. -/
def sql (c : CreateTable) : Except BuildError String :=
  let ctx := Context.ofDialect c.dialect
  (c.draft ctx).text ctx

end CreateTable

end SqlCompose
