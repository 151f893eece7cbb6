import SqlCompose.Query.Changing

/-! # Filters — which rows a statement is about

    Criteria add up: each one is combined with the earlier ones by AND, and the empty one asks for
    nothing. While a conflict clause is open, WHERE filters conflicts instead of rows. -/

namespace SqlCompose

namespace Conflict

/-- Adds a criterion to the filter that is being built: first which rows count as conflicting,
    and once there are updates, which rows are updated. -/
def filterBy (criterion : Term) (c : Conflict) : Except BuildError Conflict :=
  if c.doNothing then .error .doNothingFiltered
  else if c.fields.isEmpty then .error .conflictFilterWithoutFields
  else if c.resolutions.isEmpty then
    .ok { c with targetFilter := c.targetFilter.and criterion }
  else .ok { c with updateFilter := c.updateFilter.and criterion }

end Conflict

namespace Query

/-- Whether FROM, the updated table or a join owns columns of this source. -/
def owns (source : Source) (q : Query) : Bool :=
  let isUpdated :=
    match source with
    | .table t => q.updateTable.any t.same
    | .derived _ | .cte _ => false
  q.sources.any (·.owns source) || isUpdated || q.joins.any (·.item.owns source)

/-- Notes whether a criterion names a source that the statement does not have; columns have to
    say which source they are from then. -/
def noteSources (criterion : Term) (q : Query) : Query :=
  let isForeign := criterion.fieldSources.reduceOption.any fun s => !q.owns s
  { q with foreignSource := q.foreignSource || isForeign }

/-- Adds a criterion for rows, or for conflicts while a conflict clause is open. -/
def filterBy (criterion : Term) (q : Query) : Except BuildError Query :=
  if criterion.isEmpty then .ok q
  else if q.conflict.isOpen then
    (q.conflict.filterBy criterion).map fun c => { q with conflict := c }
  else
    let noted := q.noteSources criterion
    .ok { noted with filter := noted.filter.and criterion }

/-- Adds a criterion for rows that is checked before the others. -/
def prefilterBy (criterion : Term) (q : Query) : Query :=
  let noted := q.noteSources criterion
  { noted with prefilter := noted.prefilter.and criterion }

/-- Adds a criterion for groups. -/
def filterGroupsBy (criterion : Term) (q : Query) : Query :=
  { q with groupFilter := q.groupFilter.and criterion }

end Query

end SqlCompose
