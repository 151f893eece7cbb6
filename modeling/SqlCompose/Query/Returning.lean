import SqlCompose.Query.Changing

/-! # Returned terms — RETURNING and what it may name

    What is returned has to come from the statement: from the changed table, FROM, a joined item, or
    a source that a join criterion names. A star takes the place of all columns returned so far, and
    no column is added after it. -/

namespace SqlCompose

namespace Term

/-- Whether the term is the call of an aggregate. -/
def isAggregate (t : Term) : Bool :=
  match t.expr with
  | .call c => c.aggregate
  | _ => false

end Term

namespace Query

/-- Whether a returned column may belong to this source. -/
def canReturn (source : Source) (q : Query) : Bool :=
  let isTarget :=
    match source with
    | .table t => q.insertTable.any t.same || q.updateTable.any t.same
    | .derived _ | .cte _ => false
  isTarget || q.sources.any (·.owns source) ||
    q.joins.any fun j =>
      j.item.owns source || j.criterionSources.reduceOption.any (·.same source)

/-- Checks that a returned term names only what it may. A term without columns is fine in any
    statement, others need one that changes something. -/
def checkReturned (t : Term) (q : Query) : Except BuildError Unit :=
  let sources := t.fieldSources
  if sources.isEmpty then .ok ()
  else if q.insertTable.isNone && q.updateTable.isNone && !q.deletes then
    .error .returningWithoutTarget
  else if sources.reduceOption.all fun s => q.canReturn s then .ok ()
  else .error .returningOtherTable

/-- Makes room for a star among the returned terms. -/
def returnAll (q : Query) : Query :=
  { q with returns := q.returns.filter (!·.isColumn), returnsAll := true }

/-- Returns a column or a star, unless all columns are returned already. -/
def returnColumn (t : Term) (q : Query) : Except BuildError Query :=
  if q.returnsAll then .ok q
  else do
    q.checkReturned t
    let q := if t.isStar then q.returnAll else q
    .ok { q with returns := q.returns ++ [t] }

/-- Returns what a bare name stands for; `*` is all columns. -/
def returnName (name : String) (q : Query) : Except BuildError Query :=
  if name = "*" then
    let q := q.returnAll
    .ok { q with returns := q.returns ++ [.star] }
  else
    match q.targetSource? with
    | none => .error .returningWithoutTarget
    | some source => q.returnColumn (.column name source)

/-- Returns one argument. -/
def returnOne (q : Query) : Column → Except BuildError Query
  | .name bare => q.returnName bare
  | .term t =>
    if t.isColumn then q.returnColumn t
    else if t.isAggregate then .error .returningAggregate
    else do
      q.checkReturned t
      .ok { q with returns := q.returns ++ [t] }

/-- Returns arguments from the changed rows. -/
def returning (columns : List Column) (q : Query) : Except BuildError Query :=
  if q.dialect.hasReturning then columns.foldlM returnOne q
  else .error (.unsupported .returning q.dialect)

end Query

end SqlCompose
