import SqlCompose.Function.Basic
import SqlCompose.Query.Filtering

/-! # Arranging rows — groups, order, pages, locks and index hints

    Bare names belong to the first item of FROM, in ORDER BY of an update to the updated table. -/

namespace SqlCompose

/-- An end of a range of rows. -/
inductive Bound
  | included (n : Int64)
  | excluded (n : Int64)
  | unbounded
deriving DecidableEq

/-- The next number; the greatest one has none and stays. -/
def nextNumber (n : Int64) : Int64 := if n = Int64.maxValue then n else n + 1

namespace Term

/-- A call of `ROLLUP` with more arguments, if the term is one. -/
def extendRollup? (terms : List Term) (t : Term) : Option Term :=
  match t.expr with
  | .call c =>
    if c.name = "ROLLUP" then
      some { t with expr := .call { c with arguments := c.arguments ++ terms } }
    else none
  | _ => none

end Term

namespace Query

/-! ## Groups -/

/-- Adds one argument to the groups. -/
def groupByOne (q : Query) : Column → Except BuildError Query
  | .term t => .ok { q with groups := q.groups ++ [t] }
  | .name bare =>
    match q.firstSource? with
    | none => .error (.groupWithoutFrom bare)
    | some source => .ok { q with groups := q.groups ++ [.column bare source] }

/-- Adds arguments to the groups. -/
def groupBy (columns : List Column) (q : Query) : Except BuildError Query :=
  columns.foldlM groupByOne q

/-- Adds a row of totals. -/
def groupTotals (q : Query) : Query := { q with withTotals := true }

/-- The groups with a call of `ROLLUP` at the end, which takes the terms in. -/
def rolledUp (terms groups : List Term) : List Term :=
  match groups.getLast?.bind (Term.extendRollup? terms) with
  | some t => groups.dropLast ++ [t]
  | none => groups ++ [(Function.plain "ROLLUP" terms).toTerm]

/-- Adds subtotals over terms. MySQL has them over all groups, of which there has to be one, and
    only once. -/
def rollup (terms : List Term) (q : Query) : Except BuildError Query :=
  match q.dialect with
  | .mysql =>
    if q.withRollup then .error (.lacksPart "rollup")
    else if terms.isEmpty && q.groups.isEmpty then .error .rollupWithoutGroup
    else .ok { q with withRollup := true, groups := q.groups ++ terms }
  | _ => .ok { q with groups := rolledUp terms q.groups }

/-! ## Order -/

/-- Adds terms to sort by. -/
def orderBy (columns : List Column) (direction : Option Direction) (q : Query) : Query :=
  let source := q.firstSource? <|> q.updateTable.map Source.table
  let added := columns.map fun c => Ordering.mk (c.boundTo source) direction
  { q with orderings := q.orderings ++ added }

/-! ## Pages -/

/-- Takes so many rows. -/
def take (n : Int64) (q : Query) : Query := { q with limit := some n }

/-- Leaves out so many rows first. -/
def skip (n : Int64) (q : Query) : Query := { q with offset := some n }

/-- Leaves out rows up to where a range starts, and takes as many as its end says. -/
def slice (start stop : Bound) (q : Query) : Query :=
  let started :=
    match start with
    | .included n => q.skip n
    | .excluded n => q.skip (nextNumber n)
    | .unbounded => q
  match stop with
  | .excluded n => started.take n
  | .included n => started.take (nextNumber n)
  | .unbounded => started

/-! ## Locks and index hints -/

/-- Locks the rows that are read. -/
def lockRows (lock : Lock) (q : Query) : Except BuildError Query :=
  if lock.noKey && !q.dialect.hasNoKeyUpdate then .error (.unsupported .noKeyUpdate q.dialect)
  else .ok { q with lock := some lock }

/-- Adds indexes that have to be used. -/
def forceIndexes (names : List String) (q : Query) : Query :=
  { q with forcedIndexes := q.forcedIndexes ++ names }

/-- Adds indexes that should be used. -/
def useIndexes (names : List String) (q : Query) : Query :=
  { q with usedIndexes := q.usedIndexes ++ names }

end Query

end SqlCompose
