import SqlCompose.Tree.Basic

/-! # Clauses — a statement put together from the drafts of its parts

    Nothing here goes down the tree. What a statement consists of arrives drafted, and each function
    says what stands around and between it.

    * `Parts` — the parts of a statement, each ready to be drafted in the context of its clause.
    * `Clause.statement` — the whole statement: an UPDATE, an INSERT of rows, or a SELECT, DELETE or
      INSERT of selected rows.
    * A clause says what it asks of its parts (nested statements, aliases, qualified columns) by the
      context that it drafts them in. -/

namespace SqlCompose

open Draft

/-! ## Parts -/

/-- The parts of a conflict clause. -/
structure ConflictParts where
  fields       : Context → List Draft
  /-- Assignments: the context of the columns, that of the values, and what makes the value that
      the INSERT had for a column. -/
  resolutions  : Context → Context → (Draft → Draft) → List Draft
  targetFilter : Context → Draft
  updateFilter : Context → Draft

/-- The parts of a statement. A table is drafted under an alias; of the terms to group and to sort
    by, those that go by a name for which there is a shorter draft are written that way. -/
structure Parts where
  ctes        : Context → List Draft
  sources     : Context → List Draft
  joins       : Context → List Draft
  distinctOn  : Context → List Draft
  selects     : Context → List Draft
  /-- The first selected term that goes by a name. -/
  selected    : Context → String → Option Draft
  insertTable : Context → Option String → Draft
  updateTable : Context → Option String → Draft
  columns     : Context → List Draft
  rows        : Context → List Draft
  assignments : Context → List Draft
  prefilter   : Context → Draft
  filter      : Context → Draft
  groups      : Context → (String → Option Draft) → List Draft
  groupFilter : Context → Draft
  orderings   : Context → (String → Option Draft) → List Draft
  conflict    : ConflictParts
  returns     : Context → List Draft

namespace Clause

/-! ## Lists -/

/-- A clause that is there only if it has parts. -/
def unlessNone (ks : List Keyword) (parts : List Draft) : Draft :=
  if parts.isEmpty then empty else clause ks (commas parts)

/-- The parts of an OVER clause, a blank between each two. -/
def window (partition orderings : List Draft) (frame : Option Frame) : Draft :=
  let part (k : Keyword) (ds : List Draft) :=
    if ds.isEmpty then [] else [word k ++ space ++ commas ds]
  let frame := match frame with
    | some f => [tokens f.tokens]
    | none => []
  space ++ word .over ++
    parens (join space (part .partitionBy partition ++ part .orderBy orderings ++ frame))

/-! ## Clauses whose parts are not terms -/

/-- The names of indexes behind a hint. -/
def indexHint (verb : Keyword) (names : List String) : Draft :=
  when (!names.isEmpty)
    (space ++ words [verb, .index] ++ space ++
      parens (commas (names.map fun name => token (.ident name))))

/-- The limit of a statement, written as a constant. -/
def limit (ctx : Context) (n : Option Int64) : Draft :=
  match n with
  | some n => clause [.limit] (Value.draft ctx (.int n) true)
  | none => empty

/-- The pagination of a statement. -/
def pagination (ctx : Context) (q : Query) : Draft :=
  q.dialect.pagination (q.limit.map fun n => Value.draft ctx (.int n) true)
    (q.offset.map fun n => Value.draft ctx (.int n) true) (!q.orderings.isEmpty)

/-- The lock of a statement. -/
def locking (lock : Option Lock) : Draft :=
  match lock with
  | none => empty
  | some lock =>
    let tables :=
      if lock.tables.isEmpty then empty
      else
        clause [.of]
          (join (raw ", ") (lock.tables.map fun name => token (.ident name)))
    let patience :=
      if lock.noWait then space ++ word .nowait
      else when lock.skipLocked (space ++ word .skipLocked)
    space ++ word .for_ ++ space ++ when lock.noKey (word .noKey ++ space) ++ word .update ++
      tables ++ patience

/-- The words before a joined source. -/
def joinHead (kind : JoinKind) : Draft :=
  when (!kind.text.isEmpty) (raw kind.text ++ space) ++ word .join ++ space

/-! ## Conflict clauses -/

/-- A clause with a criterion, if it asks for anything. -/
def criterion (ctx : Context) (k : Keyword) (t : Term) (part : Context → Draft) : Draft :=
  when (!t.isEmpty) (clause [k] (part { ctx with nested := true }))

/-- An ON CONFLICT clause. What is to be done must be said, and updates need fields. -/
def onConflict (ctx : Context) (c : Conflict) (p : ConflictParts) : Draft :=
  if !c.doNothing && c.resolutions.isEmpty then
    if c.fields.isEmpty then empty else fail .conflictUnhandled
  else if !c.resolutions.isEmpty && c.fields.isEmpty then fail .conflictUpdateWithoutFields
  else
    let target := p.fields { ctx with declares := true }
    let valueCtx := { ctx with qualified := true }
    let inserted (column : Draft) := word .excluded ++ token .dot ++ column
    let action :=
      if c.doNothing then space ++ words [.do_, .nothing]
      else
        clause [.do_, .update, .set]
            (commas (p.resolutions { ctx with qualified := false } valueCtx inserted)) ++
          criterion valueCtx .where_ c.updateFilter p.updateFilter
    space ++ words [.on, .conflict] ++
      when (!target.isEmpty) (space ++ parens (join (tokens [.comma, .space]) target)) ++
      criterion ctx .where_ c.targetFilter p.targetFilter ++ action

/-- An ON DUPLICATE KEY UPDATE clause, with the name for the new row in front if there is one. -/
def onDuplicateKey (ctx : Context) (row : Option String) (p : ConflictParts) : Draft :=
  let columnCtx := { ctx with qualified := false }
  let inserted (column : Draft) :=
    match row with
    | some name => token (.ident name) ++ token .dot ++ column
    | none => word .values ++ parens column
  { ctx with asKeyword := true }.aliasDraft row ++
    unlessNone [.on, .duplicateKey, .update] (p.resolutions columnCtx columnCtx inserted)

/-! ## Clauses of a statement

Each is drafted in the context of the statement's clauses. -/

/-- WITH. -/
def withs (ctx : Context) (q : Query) (p : Parts) : Draft :=
  let clauses := p.ctes ctx
  if clauses.isEmpty then empty
  else
    word .with_ ++ space ++
      when (q.ctes.any Cte.isRecursive) (word .recursive ++ space) ++ commas clauses

/-- FROM, with further sources behind the statement's own. -/
def from_ (ctx : Context) (p : Parts) (further : List Draft) : Draft :=
  unlessNone [.from_] (p.sources { ctx with nested := true, declares := true } ++ further)

/-- The joins. -/
def joined (ctx : Context) (p : Parts) : Draft :=
  let joins := p.joins ctx
  when (!joins.isEmpty) (space ++ join space joins)

/-- WHERE. -/
def filtered (ctx : Context) (q : Query) (p : Parts) : Draft :=
  criterion ctx .where_ q.filter p.filter

/-- The alias of a selected term, if the name is one. -/
def aliasOf? (q : Query) (name : String) : Option Draft :=
  if q.selectedAliases.contains name then some (token (.aliasName name)) else none

/-- GROUP BY. A term that is selected too is named by its alias, or, where that may not be, is
    written as it is in the select list. -/
def grouped (ctx : Context) (q : Query) (p : Parts) : Draft :=
  let short (name : String) : Option Draft :=
    if ctx.groupByAlias then aliasOf? q name else p.selected ctx name
  let groups := p.groups ctx short
  if groups.isEmpty then empty
  else
    clause [.groupBy] (commas groups) ++ when q.withTotals (space ++ words [.with_, .totals]) ++
      when q.withRollup (space ++ words [.with_, .rollup])

/-- ORDER BY. A term that is selected too is named by its alias, where that may be. -/
def ordered (ctx : Context) (q : Query) (p : Parts) : Draft :=
  unlessNone [.orderBy] <| p.orderings ctx fun name =>
    if ctx.orderByAlias then aliasOf? q name else none

/-- The conflict clause, if it is open. -/
def resolved (ctx : Context) (q : Query) (p : Parts) : Draft :=
  if !q.conflict.isOpen then empty
  else if q.usesDuplicateKey then onDuplicateKey ctx q.slot.aliasName p.conflict
  else onConflict ctx q.conflict p.conflict

/-- RETURNING. -/
def returned (ctx : Context) (q : Query) (p : Parts) : Draft :=
  unlessNone [.returning]
    (p.returns { ctx with declares := true, qualified := q.updateTable.isSome })

/-! ## Statements -/

/-- An UPDATE of a table. -/
def update (ctx : Context) (q : Query) (table : Table) (p : Parts) : Draft :=
  let set := clause [.set] (commas (p.assignments ctx))
  let changes :=
    match q.dialect.updateLayout with
    | .standard => joined ctx p ++ set ++ from_ ctx p [] ++ filtered ctx q p
    | .trailingOrderLimit =>
      joined ctx p ++ set ++ from_ ctx p [] ++ filtered ctx q p ++ ordered ctx q p ++
        limit ctx q.limit
    | .fromAfterSet =>
      let again :=
        if q.joins.isEmpty then []
        else
          [p.updateTable { ctx with nested := true, declares := true }
            (some (table.nameIn ctx ++ "_"))]
      set ++ from_ ctx p again ++ joined ctx p ++ filtered ctx q p ++ ordered ctx q p ++
        limit ctx q.limit
  withs ctx q p ++ word .update ++ space ++
    p.updateTable ctx (ctx.aliasOf table.slot) ++ changes ++ returned ctx q p

/-- The table that rows go to. -/
def target (ctx : Context) (q : Query) (p : Parts) : Draft :=
  p.insertTable ctx (q.insertTable.bind fun t => ctx.aliasOf t.slot)

/-- INSERT or REPLACE, up to where the rows come from. -/
def inserting (ctx : Context) (q : Query) (p : Parts) : Draft :=
  let columns := p.columns { ctx with qualified := false }
  let verb :=
    if q.replaces then word .replace
    else
      word .insert ++
        when (q.usesDuplicateKey && q.conflict.doNothing) (space ++ word .ignore)
  verb ++ space ++ word .into ++ space ++ target ctx q p ++
    when (!columns.isEmpty) (space ++ parens (commas columns))

/-- An INSERT or REPLACE of rows. -/
def insertion (ctx : Context) (q : Query) (p : Parts) : Draft :=
  withs ctx q p ++ inserting ctx q p ++
    clause [.values] (commas (p.rows { ctx with nested := true, declares := true })) ++
    resolved ctx q p ++ returned ctx q p

/-- What stands between `SELECT` and the select list. -/
def selectHead (ctx : Context) (q : Query) (p : Parts) : Draft :=
  let distinctOn := p.distinctOn { ctx with declares := true }
  let distinct :=
    if !distinctOn.isEmpty then
      words [.distinct, .on] ++ parens (commas distinctOn) ++ space
    else when q.distinct (word .distinct ++ space)
  let top := match q.top with
    | some n =>
      when (n != 0) (word .top ++ space ++ parens (token (.int n)) ++ space)
    | none => empty
  distinct ++ top ++ when (!q.modifiers.isEmpty) (raw (" ".intercalate q.modifiers) ++ space)

/-- SELECT, the select list and the table that the rows go to. -/
def selecting (ctx : Context) (q : Query) (p : Parts) : Draft :=
  word .select ++ space ++ selectHead ctx q p ++
    commas (p.selects { ctx with nested := true, declares := true }) ++
    when (q.selectsInto && q.insertTable.isSome) (clause [.into] (target ctx q p))

/-- A SELECT, DELETE or INSERT of selected rows, without what stands behind its parentheses. -/
def selection (ctx : Context) (q : Query) (p : Parts) : Draft :=
  let verb :=
    if q.deletes then word .delete
    else when q.inserts (inserting ctx q p ++ space) ++ selecting ctx q p
  withs ctx q p ++ verb ++ from_ ctx p [] ++ indexHint .force q.forcedIndexes ++
    indexHint .use q.usedIndexes ++ joined ctx p ++
    criterion ctx .prewhere q.prefilter p.prefilter ++ filtered ctx q p ++ grouped ctx q p ++
    criterion ctx .having q.groupFilter p.groupFilter ++ ordered ctx q p ++ pagination ctx q ++
    locking q.lock

/-- A statement inside a context; one that has not enough in it is not written. -/
def statement (outer : Context) (q : Query) (p : Parts) : Draft :=
  let outer := { outer with scope := outer.scope.enter q.scope }
  let ctx := q.clauseContext outer
  if q.isBlank then empty
  else
    match q.updateTable with
    | some table => update ctx q table p
    | none =>
      if q.inserts && !q.rows.isEmpty then insertion ctx q p
      else
        parensIf outer.nested (selection ctx q p) ++ resolved ctx q p ++
          outer.declaration (outer.aliasOf q.slot) ++ returned ctx q p

end Clause

end SqlCompose
