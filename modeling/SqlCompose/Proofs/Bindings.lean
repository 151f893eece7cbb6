import SqlCompose.Render

/-! # Bindings — the constants that a tree binds, one after the other

    Which constants are bound, and in which order, can be read off the tree without writing it:
    parts are visited in the order in which they are written, and nothing is looked at but where
    constants are.

    * A constant is bound where it may be; a list of nothing but constants is bound as a whole.
    * A term that is named by its alias binds nothing at that place. Where that may happen is all
      that the surroundings decide, see `Naming`.
    * `PartBindings.inOrder` puts the parts of a statement in the order in which its clauses are
      written, whatever the kind of statement and its dialect. -/

namespace SqlCompose

/-- Where an alias of the select list may stand for the selected term. -/
structure Naming where
  groups : Bool
  orders : Bool

/-- What a context allows in this respect. -/
def Context.naming (ctx : Context) : Naming := ⟨ctx.groupByAlias, ctx.orderByAlias⟩

/-- What is allowed inside a statement of a dialect. -/
def Naming.inside (n : Naming) (d : Dialect) : Naming :=
  { n with groups := d.groupsByAlias && n.groups }

/-! ## The parts of a statement -/

/-- The constants bound in each part of a conflict clause. -/
structure ConflictBindings where
  fields       : List Value
  resolutions  : List Value
  targetFilter : List Value
  updateFilter : List Value

/-- The constants bound in each part of a statement. -/
structure PartBindings where
  ctes        : List Value
  sources     : List Value
  joins       : List Value
  distinctOn  : List Value
  selects     : List Value
  insertTable : List Value
  updateTable : List Value
  columns     : List Value
  rows        : List Value
  assignments : List Value
  prefilter   : List Value
  filter      : List Value
  groups      : List Value
  groupFilter : List Value
  orderings   : List Value
  conflict    : ConflictBindings
  returns     : List Value

/-- A limit or an offset is bound like a constant. -/
def countBindings : Option Int64 → List Value
  | none => []
  | some n => [.int n]

namespace PartBindings

/-- The conflict clause, if it is open: target, then what is done. -/
def resolved (q : Query) (b : PartBindings) : List Value :=
  if !q.conflict.isOpen then []
  else if q.usesDuplicateKey then b.conflict.resolutions
  else if !q.conflict.doNothing && q.conflict.resolutions.isEmpty then []
  else
    b.conflict.fields ++ b.conflict.targetFilter ++
      if q.conflict.doNothing then [] else b.conflict.resolutions ++ b.conflict.updateFilter

/-- Limit and offset, in the order of the dialect. -/
def page (q : Query) : List Value :=
  if q.dialect.offsetFirst then countBindings q.offset ++ countBindings q.limit
  else countBindings q.limit ++ countBindings q.offset

/-- An UPDATE. -/
def update (q : Query) (b : PartBindings) : List Value :=
  let changes :=
    match q.dialect.updateLayout with
    | .standard => b.joins ++ b.assignments ++ b.sources ++ b.filter
    | .trailingOrderLimit =>
      b.joins ++ b.assignments ++ b.sources ++ b.filter ++ b.orderings ++ countBindings q.limit
    | .fromAfterSet =>
      b.assignments ++ (b.sources ++ if q.joins.isEmpty then [] else b.updateTable) ++ b.joins ++
        b.filter ++ b.orderings ++ countBindings q.limit
  b.ctes ++ b.updateTable ++ changes ++ b.returns

/-- An INSERT of rows. -/
def insertion (q : Query) (b : PartBindings) : List Value :=
  b.ctes ++ (b.insertTable ++ b.columns) ++ b.rows ++ b.resolved q ++ b.returns

/-- A SELECT, a DELETE or an INSERT of selected rows. -/
def selection (q : Query) (b : PartBindings) : List Value :=
  let verb :=
    if q.deletes then []
    else
      (if q.inserts then b.insertTable ++ b.columns else []) ++
        (b.distinctOn ++ b.selects ++ if q.selectsInto then b.insertTable else [])
  b.ctes ++ verb ++ b.sources ++ b.joins ++ b.prefilter ++ b.filter ++ b.groups ++ b.groupFilter ++
    b.orderings ++ page q

/-- The whole statement, clause by clause. -/
def inOrder (q : Query) (b : PartBindings) : List Value :=
  if q.isBlank then []
  else
    match q.updateTable with
    | some _ => b.update q
    | none =>
      if q.inserts && !q.rows.isEmpty then b.insertion q
      else b.selection q ++ b.resolved q ++ b.returns

end PartBindings

/-- What is bound where a selected term is named by its alias, if the name is one. -/
def Query.aliasBindings? (q : Query) (name : String) : Option (List Value) :=
  if q.selectedAliases.contains name then some [] else none

/-! ## The tree -/

mutual

/-- The constants bound in a term. -/
def Term.bindings (n : Naming) : Term → List Value
  | { expr, .. } => expr.bindings n

/-- The constants bound in an expression. -/
def Expr.bindings (n : Naming) : Expr → List Value
  | .value v mayBind => if mayBind && v.isBindable then [v] else []
  | .tuple items => termBindings n items
  | .array items =>
    match constants? items with
    | some values => [.list values]
    | none => termBindings n items
  | .call c => c.bindings n
  | .case branches otherwise => branchBindings n branches ++ optionBindings n otherwise
  | .arithmetic _ left right => left.bindings n ++ right.bindings n
  | .negative operand => operand.bindings n
  | .comparison _ left right => left.bindings n ++ right.bindings n
  | .combination _ left right => left.bindings n ++ right.bindings n
  | .chain _ _ left middle right => left.bindings n ++ middle.bindings n ++ right.bindings n
  | .membership operand container _ => operand.bindings n ++ container.bindings n
  | .between operand lower upper => operand.bindings n ++ lower.bindings n ++ upper.bindings n
  | .period operand start stop => operand.bindings n ++ start.bindings n ++ stop.bindings n
  | .bitAnd operand _ => operand.bindings n
  | .isNull operand => operand.bindings n
  | .not operand => operand.bindings n
  | .all operand => operand.bindings n
  | .jsonPath column _ => column.bindings n
  | .subquery q => (q.partBindings (n.inside q.dialect)).inOrder q
  | .setOperation s => s.bindings n
  | .insertedValue field => field.bindings n
  | .atTimeZone operand _ _ => operand.bindings n
  | _ => []

/-- The constants bound in terms. -/
def termBindings (n : Naming) : List Term → List Value
  | [] => []
  | t :: rest => t.bindings n ++ termBindings n rest

/-- The constants bound in rows of terms. -/
def rowBindings (n : Naming) : List (List Term) → List Value
  | [] => []
  | row :: rest => termBindings n row ++ rowBindings n rest

/-- The constants bound in a term that may be missing. -/
def optionBindings (n : Naming) : Option Term → List Value
  | none => []
  | some t => t.bindings n

/-- The constants bound in the first term that goes by this name. -/
def namedBindings? (n : Naming) (name : String) : List Term → Option (List Value)
  | [] => none
  | t :: rest =>
    if t.knownAs == some name then some (t.bindings n) else namedBindings? n name rest

/-- The constants bound in terms, those that are written in a shorter way excepted. -/
def groupBindings (n : Naming) (short : String → Option (List Value)) : List Term → List Value
  | [] => []
  | t :: rest => (t.knownAs.bind short).getD (t.bindings n) ++ groupBindings n short rest

/-- The constants bound in the branches of a CASE expression. -/
def branchBindings (n : Naming) : List Branch → List Value
  | [] => []
  | { condition, result } :: rest =>
    condition.bindings n ++ result.bindings n ++ branchBindings n rest

/-- The constants bound in a call. -/
def Call.bindings (n : Naming) : Call → List Value
  | { arguments, suffix, bare, filter, window, .. } =>
    if bare then []
    else
      termBindings n arguments ++ suffixBindings n suffix ++ optionBindings n filter ++
        windowBindings n window

/-- The constants bound behind the arguments of a call. -/
def suffixBindings (n : Naming) : Option CallSuffix → List Value
  | some (.source t) => t.bindings n
  | _ => []

/-- The constants bound in an OVER clause. -/
def windowBindings (n : Naming) : Option Window → List Value
  | none => []
  | some { partition, orderings } =>
    termBindings n partition ++ orderingBindings n (fun _ => none) orderings

/-- The constants bound in terms to sort by, those that are written in a shorter way excepted. -/
def orderingBindings (n : Naming) (short : String → Option (List Value)) :
    List Ordering → List Value
  | [] => []
  | { term, .. } :: rest =>
    (term.knownAs.bind short).getD (term.bindings n) ++ orderingBindings n short rest

/-- The constants bound in a table's stretch of time. -/
def Table.bindings (n : Naming) : Table → List Value
  | { temporal, .. } => temporalBindings n temporal

/-- The constants bound in a stretch of time. -/
def temporalBindings (n : Naming) : Option Temporal → List Value
  | none => []
  | some (.period t) => t.bindings n
  | some (.portion t) => t.bindings n

/-- The constants bound in a table that may be missing. -/
def targetBindings (n : Naming) : Option Table → List Value
  | none => []
  | some t => t.bindings n

/-- The constants bound in an item of FROM or JOIN. -/
def FromItem.bindings (n : Naming) : FromItem → List Value
  | .table t => t.bindings n
  | .query q => (q.partBindings (n.inside q.dialect)).inOrder q
  | .setOperation s => s.bindings n
  | .cte _ => []

/-- The constants bound in items of FROM. -/
def itemBindings (n : Naming) : List FromItem → List Value
  | [] => []
  | item :: rest => item.bindings n ++ itemBindings n rest

/-- The constants bound in WITH clauses. -/
def cteBindings (n : Naming) : List Cte → List Value
  | [] => []
  | { body, columns, .. } :: rest =>
    termBindings n columns ++ body.bindings n ++ cteBindings n rest

/-- The constants bound in what decides which rows are joined. -/
def JoinCondition.bindings (n : Naming) : JoinCondition → List Value
  | .none => []
  | .on criterion _ => criterion.bindings n
  | .using fields => termBindings n fields

/-- The constants bound in joined sources. -/
def joinBindings (n : Naming) : List Join → List Value
  | [] => []
  | { item, condition, .. } :: rest =>
    item.bindings n ++ condition.bindings n ++ joinBindings n rest

/-- The constants bound in columns and their new values. -/
def assignmentBindings (n : Naming) : List Assignment → List Value
  | [] => []
  | { field, value } :: rest => field.bindings n ++ value.bindings n ++ assignmentBindings n rest

/-- The constants bound in columns and their new values in a conflict clause; without a value the
    column is written once more. -/
def resolutionBindings (n : Naming) : List Resolution → List Value
  | [] => []
  | { field, value } :: rest =>
    field.bindings n ++ (valueBindings? n value).getD (field.bindings n) ++
      resolutionBindings n rest

/-- The constants bound in a value that may be missing. -/
def valueBindings? (n : Naming) : Option Term → Option (List Value)
  | none => none
  | some t => some (t.bindings n)

/-- The constants bound in each part of a conflict clause. -/
def Conflict.bindings (n : Naming) : Conflict → ConflictBindings
  | { fields, resolutions, targetFilter, updateFilter, .. } =>
    { fields := termBindings n fields
      resolutions := resolutionBindings n resolutions
      targetFilter := targetFilter.bindings n
      updateFilter := updateFilter.bindings n }

/-- The constants bound in each part of a statement; `n` holds inside it. -/
def Query.partBindings (n : Naming) : Query → PartBindings
  | q@{
      sources, ctes, selects, distinctOn, insertTable, updateTable, columns, rows, assignments,
      joins, prefilter, filter, groups, groupFilter, orderings, conflict, returns, .. } =>
    { ctes := cteBindings n ctes
      sources := itemBindings n sources
      joins := joinBindings n joins
      distinctOn := termBindings n distinctOn
      selects := termBindings n selects
      insertTable := targetBindings n insertTable
      updateTable := targetBindings n updateTable
      columns := termBindings n columns
      rows := rowBindings n rows
      assignments := assignmentBindings n assignments
      prefilter := prefilter.bindings n
      filter := filter.bindings n
      groups :=
        groupBindings n
          (fun name =>
            if n.groups then q.aliasBindings? name else namedBindings? n name selects) groups
      groupFilter := groupFilter.bindings n
      orderings :=
        orderingBindings n (fun name => if n.orders then q.aliasBindings? name else none) orderings
      conflict := conflict.bindings n
      returns := termBindings n returns }

/-- The constants bound in the statements behind the first one of a set operation. -/
def operandBindings (n : Naming) : List Operand → List Value
  | [] => []
  | { query, .. } :: rest =>
    (query.partBindings (n.inside query.dialect)).inOrder query ++ operandBindings n rest

/-- The constants bound in a set operation. Its own limit and offset are not constants. -/
def SetOperation.bindings (n : Naming) : SetOperation → List Value
  | { base, operands, orderings, .. } =>
    (base.partBindings (n.inside base.dialect)).inOrder base ++ operandBindings n operands ++
      orderingBindings n base.aliasBindings? orderings

end

/-- The constants bound in a statement. -/
def Query.bindings (n : Naming) (q : Query) : List Value :=
  (q.partBindings (n.inside q.dialect)).inOrder q

end SqlCompose
