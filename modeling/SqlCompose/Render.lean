import SqlCompose.Clause

/-! # Writing the tree — the draft of every term, source and statement

    Each function goes down the tree once and from left to right: what is written first is drafted
    first, so the bind values of a draft stand in the order of their placeholders.

    * A term that is a column, a call, a comparison or arithmetic declares its alias only where the
      context asks for it; constants, tuples, tests of membership and the like always do.
    * A statement is taken apart into `Parts`, and `Clause.statement` puts it together: the clauses
      decide in which contexts the parts are drafted.
    * The functions on lists draft every member by itself; what stands between the members is up to
      the clause. -/

namespace SqlCompose

open Draft

/-- The constants that the terms are, if all of them are constants. -/
def constants? (items : List Term) : Option (List Value) := items.mapM Term.constant?

mutual

-- ── Terms ──

/-- The draft of a term. -/
def Term.draft (ctx : Context) : Term → Draft
  | { expr, aliasName } => expr.draft ctx aliasName

/-- The draft of an expression and, if it is to be declared, its alias. -/
def Expr.draft (ctx : Context) (aliasName : Option String) : Expr → Draft
  | .literal sql => raw sql ++ ctx.aliasDraft aliasName
  | .value v mayBind => v.draft ctx mayBind ++ ctx.aliasDraft aliasName
  | .field name source =>
    Source.qualifier ctx source ++ token (.ident name) ++ ctx.declaration aliasName
  | .star source => Source.qualifier ctx source ++ token .star
  | .tuple items => parens (commas (termDrafts ctx items)) ++ ctx.aliasDraft aliasName
  | .array items =>
    match if ctx.binding then constants? items else none with
    | some values => hole (.list values) ctx.dialect
    | none => ctx.dialect.array (termDrafts ctx items) ++ ctx.aliasDraft aliasName
  | .call c => c.draft ctx ++ ctx.declaration aliasName
  | .case branches otherwise =>
    let inner := { ctx with declares := false }
    if branches.isEmpty then fail .caseWithoutBranch
    else
      word .case ++ branchesDraft inner branches ++ elseDraft inner otherwise ++ space ++
        word .end_ ++ ctx.declaration aliasName
  | .interval i =>
    let (amount, unit) := i.amountAndUnit
    raw (ctx.dialect.intervalText amount unit)
  | .document d =>
    raw (Text.wrapped (Json.write Json.bare d) ctx.textQuote) ++ ctx.aliasDraft aliasName
  | .arithmetic op left right =>
    parensIf (op.bracketsLeft left.arithmeticOp?) (left.draft ctx) ++
      token (.operator op.text) ++
      parensIf (op.bracketsRight right.arithmeticOp?) (right.draft ctx) ++ ctx.declaration aliasName
  | .negative operand => token (.operator "-") ++ operand.draft ctx
  | .parameter p => raw (p.text ctx.dialect)
  | .comparison op left right =>
    left.draft ctx ++ token (.operator op.text) ++ right.draft ctx ++ ctx.declaration aliasName
  | .combination op left right =>
    parensIf ctx.bracketed
      (left.draft { ctx with bracketed := left.differsFrom op } ++ space ++ word op.keyword ++
        space ++ right.draft { ctx with bracketed := right.differsFrom op })
  | .chain first second left middle right =>
    left.draft ctx ++ token (.operator first.text) ++ middle.draft ctx ++
      token (.operator second.text) ++ right.draft ctx ++ ctx.declaration aliasName
  | .membership operand container negated =>
    operand.draft ctx ++ space ++ when negated (word .not ++ space) ++ word .in_ ++ space ++
      container.draft { ctx with nested := true } ++ ctx.aliasDraft aliasName
  | .between operand lower upper =>
    operand.draft ctx ++ clause [.between] (lower.draft ctx) ++ clause [.and] (upper.draft ctx) ++
      ctx.aliasDraft aliasName
  | .period operand start stop =>
    operand.draft ctx ++ clause [.from_] (start.draft ctx) ++ space ++ raw "TO" ++ space ++
      stop.draft ctx ++ ctx.aliasDraft aliasName
  | .bitAnd operand mask =>
    parens (operand.draft ctx ++ token (.operator " & ") ++ token (.int mask)) ++
      ctx.aliasDraft aliasName
  | .isNull operand => operand.draft ctx ++ space ++ word .isNull ++ ctx.aliasDraft aliasName
  | .not operand =>
    word .not ++ space ++ operand.draft { ctx with bracketed := true } ++ ctx.aliasDraft aliasName
  | .all operand => operand.draft ctx ++ space ++ word .all ++ ctx.aliasDraft aliasName
  | .jsonPath column path =>
    ctx.dialect.jsonPath (column.draft ctx) path ++ ctx.declaration aliasName
  | .subquery q => Clause.statement ctx q q.parts
  | .setOperation s => s.draft ctx
  | .insertedValue field => word .values ++ parens (field.draft ctx)
  | .index name => token (.ident name)
  | .pseudoColumn name => raw name
  | .atTimeZone operand zone isInterval =>
    operand.draft ctx ++ space ++ word .atTimeZone ++ space ++
      when isInterval (word .interval ++ space) ++ raw ("'" ++ zone ++ "'") ++
      ctx.aliasDraft aliasName
  | .empty => empty

/-- The drafts of terms. -/
def termDrafts (ctx : Context) : List Term → List Draft
  | [] => []
  | t :: rest => t.draft ctx :: termDrafts ctx rest

/-- The drafts of rows of terms. -/
def rowDrafts (ctx : Context) : List (List Term) → List Draft
  | [] => []
  | row :: rest => parens (commas (termDrafts ctx row)) :: rowDrafts ctx rest

/-- The draft of the first term that goes by this name. -/
def namedDraft? (ctx : Context) (name : String) : List Term → Option Draft
  | [] => none
  | t :: rest => if t.knownAs == some name then some (t.draft ctx) else namedDraft? ctx name rest

/-- The drafts of terms, those that go by a name for which there is a shorter draft excepted. -/
def groupDrafts (ctx : Context) (short : String → Option Draft) : List Term → List Draft
  | [] => []
  | t :: rest => (t.knownAs.bind short).getD (t.draft ctx) :: groupDrafts ctx short rest

/-- The branches of a CASE expression. -/
def branchesDraft (ctx : Context) : List Branch → Draft
  | [] => empty
  | { condition, result } :: rest =>
    clause [.when] (condition.draft ctx) ++ clause [.then_] (result.draft ctx) ++
      branchesDraft ctx rest

/-- The last branch of a CASE expression. -/
def elseDraft (ctx : Context) : Option Term → Draft
  | none => empty
  | some t => clause [.else_] (t.draft ctx)

-- ── Calls ──

/-- The draft of a call. -/
def Call.draft (ctx : Context) : Call → Draft
  | { name, arguments, schema, suffix, bare, distinct, filter, window, frame, .. } =>
    let head := Schema.qualifier schema ++ token (.function name)
    if bare then head
    else
      head ++
        parens (when distinct (word .distinct ++ space) ++
          commas (termDrafts { ctx with declares := false } arguments) ++
          suffixDraft ctx suffix) ++
        filterDraft ctx filter ++ windowDraft ctx frame window

/-- What stands behind the arguments of a call. -/
def suffixDraft (ctx : Context) : Option CallSuffix → Draft
  | none => empty
  | some (.words text) => space ++ raw text
  | some .ignoreNulls => space ++ word .ignoreNulls
  | some (.source t) => clause [.from_] (t.draft ctx)

/-- The filter of an aggregate. -/
def filterDraft (ctx : Context) : Option Term → Draft
  | none => empty
  | some t => space ++ word .filter ++ parens (word .where_ ++ space ++ t.draft ctx)

/-- The OVER clause of a call. -/
def windowDraft (ctx : Context) (frame : Option Frame) : Option Window → Draft
  | none => empty
  | some { partition, orderings } =>
    Clause.window (termDrafts ctx partition) (orderingDrafts ctx (fun _ => none) orderings) frame

/-- The drafts of terms to sort by, those that go by a name for which there is a shorter draft
    excepted. -/
def orderingDrafts (ctx : Context) (short : String → Option Draft) : List Ordering → List Draft
  | [] => []
  | { term, direction } :: rest =>
    ((term.knownAs.bind short).getD (term.draft ctx) ++ Direction.suffix direction) ::
      orderingDrafts ctx short rest

-- ── Sources ──

/-- The draft of a table under an alias. -/
def Table.draftAs (ctx : Context) (aliasName : Option String) : Table → Draft
  | { name, schema, temporal, .. } =>
    Schema.qualifier schema ++ token (.ident name) ++ temporalDraft ctx temporal ++
      ctx.aliasDraft aliasName

/-- The draft of a table that may be missing. -/
def targetDraft (ctx : Context) (aliasName : Option String) : Option Table → Draft
  | none => empty
  | some t => t.draftAs ctx aliasName

/-- The stretch of time behind a table. -/
def temporalDraft (ctx : Context) : Option Temporal → Draft
  | none => empty
  | some (.period t) => clause [.for_] (t.draft ctx)
  | some (.portion t) => clause [.for_, .portion, .of] (t.draft ctx)

/-- The draft of an item of FROM or JOIN. -/
def FromItem.draft (ctx : Context) : FromItem → Draft
  | .table t => t.draftAs ctx (ctx.aliasOf t.slot)
  | .query q => Clause.statement ctx q q.parts
  | .setOperation s => s.draft ctx
  | .cte name => raw name

/-- The drafts of items of FROM. -/
def itemDrafts (ctx : Context) : List FromItem → List Draft
  | [] => []
  | item :: rest => item.draft ctx :: itemDrafts ctx rest

/-- The drafts of WITH clauses. -/
def cteDrafts (ctx : Context) : List Cte → List Draft
  | [] => []
  | { name, body, columns } :: rest =>
    let columns := termDrafts { ctx with qualified := false } columns
    (raw name ++ when (!columns.isEmpty) (parens (commas columns)) ++
      clause [.as] (parens (body.draft { ctx with nested := false, declares := false })) ++
      space) :: cteDrafts ctx rest

/-- What decides which rows are joined. -/
def JoinCondition.draft (ctx : Context) : JoinCondition → Draft
  | .none => empty
  | .on criterion collation =>
    clause [.on] (criterion.draft { ctx with nested := true }) ++
      match collation with
      | some collation => clause [.collate] (raw collation)
      | none => empty
  | .using fields => clause [.using_] (parens (commas (termDrafts ctx fields)))

/-- The drafts of joined sources. -/
def joinDrafts (ctx : Context) : List Join → List Draft
  | [] => []
  | { item, kind, condition } :: rest =>
    (Clause.joinHead kind ++ item.draft { ctx with nested := true, declares := true } ++
      condition.draft ctx) :: joinDrafts ctx rest

-- ── Changes ──

/-- The drafts of columns and their new values. -/
def assignmentDrafts (ctx : Context) : List Assignment → List Draft
  | [] => []
  | { field, value } :: rest =>
    (field.draft { ctx with qualified := false } ++ token .equals ++
      value.draft { ctx with nested := true }) :: assignmentDrafts ctx rest

/-- The drafts of columns and their new values in a conflict clause; `inserted` makes the value
    that the INSERT had for a column. -/
def resolutionDrafts (fieldCtx valueCtx : Context) (inserted : Draft → Draft) :
    List Resolution → List Draft
  | [] => []
  | { field, value } :: rest =>
    let column := field.draft fieldCtx
    (column ++ token .equals ++ (valueDraft? valueCtx value).getD (inserted column)) ::
      resolutionDrafts fieldCtx valueCtx inserted rest

/-- The draft of a value that may be missing. -/
def valueDraft? (ctx : Context) : Option Term → Option Draft
  | none => none
  | some t => some (t.draft ctx)

/-- The parts of a conflict clause. -/
def Conflict.parts : Conflict → ConflictParts
  | { fields, resolutions, targetFilter, updateFilter, .. } =>
    { fields := fun ctx => termDrafts ctx fields
      resolutions := fun columnCtx valueCtx inserted =>
        resolutionDrafts columnCtx valueCtx inserted resolutions
      targetFilter := fun ctx => targetFilter.draft ctx
      updateFilter := fun ctx => updateFilter.draft ctx }

-- ── Statements ──

/-- The parts of a statement. -/
def Query.parts : Query → Parts
  | { sources, ctes, selects, distinctOn, insertTable, updateTable, columns, rows, assignments,
      joins, prefilter, filter, groups, groupFilter, orderings, conflict, returns, .. } =>
    { ctes := fun ctx => cteDrafts ctx ctes
      sources := fun ctx => itemDrafts ctx sources
      joins := fun ctx => joinDrafts ctx joins
      distinctOn := fun ctx => termDrafts ctx distinctOn
      selects := fun ctx => termDrafts ctx selects
      selected := fun ctx name => namedDraft? ctx name selects
      insertTable := fun ctx aliasName => targetDraft ctx aliasName insertTable
      updateTable := fun ctx aliasName => targetDraft ctx aliasName updateTable
      columns := fun ctx => termDrafts ctx columns
      rows := fun ctx => rowDrafts ctx rows
      assignments := fun ctx => assignmentDrafts ctx assignments
      prefilter := fun ctx => prefilter.draft ctx
      filter := fun ctx => filter.draft ctx
      groups := fun ctx short => groupDrafts ctx short groups
      groupFilter := fun ctx => groupFilter.draft ctx
      orderings := fun ctx short => orderingDrafts ctx short orderings
      conflict := conflict.parts
      returns := fun ctx => termDrafts ctx returns }

/-- The statements behind the first one of a set operation, each of which has to select as many
    terms as the first. -/
def operandsDraft (ctx : Context) (count : Nat) (main : Draft) : List Operand → Draft
  | [] => empty
  | { operator, query } :: rest =>
    let other := Clause.statement ctx query query.parts
    if query.selects.length != count then unequal ctx main other
    else space ++ raw operator.text ++ space ++ other ++ operandsDraft ctx count main rest

/-- The draft of a set operation, in the dialect of its first statement. -/
def SetOperation.draft (outer : Context) : SetOperation → Draft
  | { base, operands, orderings, limit, offset, slot } =>
    let dialect := base.dialect
    let ctx := { outer with dialect := dialect, identQuote := dialect.identQuote }
    let operandCtx := { ctx with nested := dialect.wrapsOperands }
    let main := Clause.statement operandCtx base base.parts
    let selected := base.selectedAliases
    let byAlias (name : String) : Option Draft :=
      if selected.contains name then some (token (.ident name)) else none
    parensIf ctx.nested
        (main ++ operandsDraft operandCtx base.selects.length main operands ++
          Clause.unlessNone [.orderBy] (orderingDrafts ctx byAlias orderings) ++
          dialect.pagination (limit.map fun n => token (.int n))
            (offset.map fun n => token (.int n)) (!orderings.isEmpty)) ++
      ctx.declaration (ctx.aliasOf slot)

end

/-- The draft of a statement. -/
def Query.draft (outer : Context) (q : Query) : Draft := Clause.statement outer q q.parts

/-- The draft of a table. -/
def Table.draft (ctx : Context) (t : Table) : Draft := t.draftAs ctx (ctx.aliasOf t.slot)

end SqlCompose
