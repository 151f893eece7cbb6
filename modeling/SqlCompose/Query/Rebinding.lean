import SqlCompose.Term.Sources

/-! # Rebinding a statement — one table in place of another

    `Query.replaceTable` puts a table in the place of another everywhere in a statement: as a
    source, as a target, and as what columns and stars belong to. Nested statements and WITH clauses
    keep their own tables. -/

namespace SqlCompose

/-- The new table in place of the current one. -/
def Table.replaceTable (current new t : Table) : Table := if t.same current then new else t

/-- The new table in place of the current one, as an item of FROM or JOIN. -/
def FromItem.replaceTable (current new : Table) : FromItem → FromItem
  | .table t => .table (Table.replaceTable current new t)
  | item => item

/-- The condition of a join with its columns bound to the new table. -/
def JoinCondition.replaceTable (current new : Table) : JoinCondition → JoinCondition
  | .none => .none
  | .on criterion collation => .on (criterion.replaceTable current new) collation
  | .using fields => .using (fields.map (Term.replaceTable current new))

/-- A join with item and condition bound to the new table. -/
def Join.replaceTable (current new : Table) (j : Join) : Join where
  item := j.item.replaceTable current new
  kind := j.kind
  condition := j.condition.replaceTable current new

/-- A conflict clause with its columns bound to the new table. -/
def Conflict.replaceTable (current new : Table) (c : Conflict) : Conflict :=
  let rebind := Term.replaceTable current new
  { c with
    fields := c.fields.map rebind
    resolutions := c.resolutions.map fun r => ⟨rebind r.field, r.value.map rebind⟩
    targetFilter := rebind c.targetFilter
    updateFilter := rebind c.updateFilter }

/-- A statement with the new table in place of the current one. -/
def Query.replaceTable (current new : Table) (q : Query) : Query :=
  let rebind := Term.replaceTable current new
  { q with
    sources := q.sources.map (FromItem.replaceTable current new)
    selects := q.selects.map rebind
    starred := q.starred.map (Option.map (Source.replaceTable current new))
    distinctOn := q.distinctOn.map rebind
    insertTable := q.insertTable.map (Table.replaceTable current new)
    updateTable := q.updateTable.map (Table.replaceTable current new)
    columns := q.columns.map rebind
    rows := q.rows.map (List.map rebind)
    assignments := q.assignments.map fun a => ⟨rebind a.field, rebind a.value⟩
    joins := q.joins.map (Join.replaceTable current new)
    prefilter := rebind q.prefilter
    filter := rebind q.filter
    groups := q.groups.map rebind
    groupFilter := rebind q.groupFilter
    orderings := q.orderings.map fun o => ⟨rebind o.term, o.direction⟩
    conflict := q.conflict.replaceTable current new
    returns := q.returns.map rebind }

end SqlCompose
