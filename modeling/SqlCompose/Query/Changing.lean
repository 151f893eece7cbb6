import SqlCompose.Query.Selecting

/-! # What a statement changes — INSERT, UPDATE, DELETE and conflicts

    * A statement has at most one of an insert table, an updated table and a deletion.
    * Rows without terms are not inserted.
    * A conflict clause is open from the first mention of conflicts on; it has one handler, which
      either does nothing or updates. -/

namespace SqlCompose

namespace Query

/-! ## The verb -/

/-- Inserts into a table or, when terms are selected already, selects into it. -/
def into (t : Table) (q : Query) : Except BuildError Query :=
  if q.insertTable.isSome || q.updateTable.isSome || q.deletes then .error (.lacksPart "into")
  else .ok { q with insertTable := some t, selectsInto := q.selectsInto || !q.selects.isEmpty }

/-- Selects into a table. -/
def selectInto (t : Table) (q : Query) : Except BuildError Query :=
  (q.into t).map fun q => { q with selectsInto := true }

/-- Whether it is settled already what the statement does. -/
def hasVerb (q : Query) : Bool :=
  q.updateTable.isSome || !q.selects.isEmpty || q.deletes || q.insertTable.isSome

/-- Updates a table. -/
def update (t : Table) (q : Query) : Except BuildError Query :=
  if q.hasVerb then .error (.lacksPart "update") else .ok { q with updateTable := some t }

/-- Deletes from the first item of FROM. -/
def delete (q : Query) : Except BuildError Query :=
  if q.hasVerb then .error (.lacksPart "delete") else .ok { q with deletes := true }

/-- The insert table as what columns belong to. -/
def insertSource? (q : Query) : Option Source := q.insertTable.map Source.table

/-- What bare names in RETURNING belong to: the table that is changed. -/
def targetSource? (q : Query) : Option Source :=
  match q.insertSource?, q.updateTable with
  | some source, _ => some source
  | none, some t => some (.table t)
  | none, none => if q.deletes then q.firstSource? else none

/-! ## New rows and values -/

/-- Adds columns to those that are inserted. Bare names belong to the insert table. -/
def insertColumns (columns : List Column) (q : Query) : Except BuildError Query :=
  match q.insertSource? with
  | none => .error (.lacksPart "insert")
  | some source =>
    .ok { q with columns := q.columns ++ columns.map (Column.boundTo (some source)) }

/-- Adds rows, which are new or else replace those that are there. -/
def addRows (replaces : Bool) (rows : List (List Term)) (q : Query) : Except BuildError Query :=
  if q.insertTable.isNone then .error (.lacksPart "insert")
  else .ok { q with rows := q.rows ++ rows.filter (!·.isEmpty), replaces := replaces }

/-- Inserts rows. -/
def insertRows (rows : List (List Term)) (q : Query) : Except BuildError Query :=
  q.addRows false rows

/-- Replaces rows. -/
def replaceRows (rows : List (List Term)) (q : Query) : Except BuildError Query :=
  q.addRows true rows

/-- Gives a column a new value. A bare name belongs to no source. -/
def set (column : Column) (value : Term) (q : Query) : Query :=
  { q with assignments := q.assignments ++ [⟨column.boundTo none, value⟩] }

/-! ## Conflicts -/

/-- Opens a conflict clause, with more columns that conflict. Bare names belong to the insert
    table. -/
def onConflict (columns : List Column) (q : Query) : Except BuildError Query :=
  match q.insertSource? with
  | none => .error .conflictWithoutInsert
  | some source =>
    let fields := q.conflict.fields ++ columns.map (Column.boundTo (some source))
    .ok { q with conflict := { q.conflict with isOpen := true, fields := fields } }

/-- Leaves conflicting rows as they are. -/
def doNothing (q : Query) : Except BuildError Query :=
  if q.conflict.resolutions.isEmpty then
    .ok { q with conflict := { q.conflict with doNothing := true } }
  else .error .conflictHandledTwice

/-- Gives a column of conflicting rows a new value; without one, that of the row to be
    inserted. -/
def doUpdate (column : Column) (value : Option Term) (q : Query) : Except BuildError Query :=
  if q.conflict.doNothing then .error .conflictHandledTwice
  else
    let resolution := ⟨column.boundTo q.insertSource?, value⟩
    .ok { q with
      conflict := { q.conflict with resolutions := q.conflict.resolutions ++ [resolution] } }

/-- Opens a conflict clause for duplicate keys and gives a column a new value. -/
def onDuplicateKeyUpdate (column : Column) (value : Option Term) (q : Query) :
    Except BuildError Query :=
  if !q.usesDuplicateKey then .error (.unsupported .onDuplicateKey q.dialect)
  else if q.insertTable.isNone then .error .conflictWithoutInsert
  else { q with conflict := { q.conflict with isOpen := true } }.doUpdate column value

/-- Leaves rows with duplicate keys as they are. -/
def onDuplicateKeyIgnore (q : Query) : Except BuildError Query :=
  if q.usesDuplicateKey then q.doNothing else .error (.unsupported .insertIgnore q.dialect)

end Query

end SqlCompose
