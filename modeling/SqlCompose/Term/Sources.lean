import SqlCompose.Term.Build

/-! # Sources of a term — which columns it names, and binding them to another table

    Both functions visit a term and the terms inside it in the order in which they stand, the outer
    before the inner, and look neither into nested statements nor into filters and windows.

    * `Term.fieldSources` — the source of every column, in order, `none` for a column without one.
    * `Term.replaceTable` — the term with every column and star of one table bound to another. -/

namespace SqlCompose

mutual

/-- The sources of the columns in a term. -/
def Term.fieldSources : Term → List (Option Source)
  | { expr, .. } => expr.fieldSources

/-- The sources of the columns in an expression. -/
def Expr.fieldSources : Expr → List (Option Source)
  | .field _ source => [source]
  | .tuple items | .array items => listFieldSources items
  | .call c => c.fieldSources
  | .case branches otherwise => branchFieldSources branches ++ optionFieldSources otherwise
  | .arithmetic _ left right | .comparison _ left right | .combination _ left right =>
    left.fieldSources ++ right.fieldSources
  | .chain _ _ left middle right =>
    left.fieldSources ++ middle.fieldSources ++ right.fieldSources
  | .membership operand container _ => operand.fieldSources ++ container.fieldSources
  | .between operand lower upper | .period operand lower upper =>
    operand.fieldSources ++ lower.fieldSources ++ upper.fieldSources
  | .negative operand | .bitAnd operand _ | .isNull operand | .not operand | .all operand
  | .jsonPath operand _ | .insertedValue operand | .atTimeZone operand _ _ =>
    operand.fieldSources
  | .literal _ | .value _ _ | .star _ | .interval _ | .document _ | .parameter _ | .subquery _
  | .setOperation _ | .index _ | .pseudoColumn _ | .empty => []

/-- The sources of the columns in a list of terms. -/
def listFieldSources : List Term → List (Option Source)
  | [] => []
  | t :: rest => t.fieldSources ++ listFieldSources rest

/-- The sources of the columns in the branches of a CASE expression. -/
def branchFieldSources : List Branch → List (Option Source)
  | [] => []
  | { condition, result } :: rest =>
    condition.fieldSources ++ result.fieldSources ++ branchFieldSources rest

/-- The sources of the columns in a term that may be missing. -/
def optionFieldSources : Option Term → List (Option Source)
  | none => []
  | some t => t.fieldSources

/-- The sources of the columns in the arguments of a call. -/
def Call.fieldSources : Call → List (Option Source)
  | { arguments, suffix, .. } => listFieldSources arguments ++ suffixFieldSources suffix

/-- The sources of the columns behind the arguments of a call. -/
def suffixFieldSources : Option CallSuffix → List (Option Source)
  | some (.source t) => t.fieldSources
  | some (.words _) | some .ignoreNulls | none => []

end

/-! ## Replacing a table -/

/-- A source, or the new table if it is the current one. -/
def Source.replaceTable (current new : Table) : Source → Source
  | .table t => if t.same current then .table new else .table t
  | s => s

mutual

/-- Binds the columns of one table to another. -/
def Term.replaceTable (current new : Table) : Term → Term
  | { expr, aliasName } => { expr := expr.replaceTable current new, aliasName := aliasName }

/-- Binds the columns of one table in an expression to another. -/
def Expr.replaceTable (current new : Table) : Expr → Expr
  | .field name source => .field name (source.map (Source.replaceTable current new))
  | .star source => .star (source.map (Source.replaceTable current new))
  | .tuple items => .tuple (listReplaceTable current new items)
  | .array items => .array (listReplaceTable current new items)
  | .call c => .call (c.replaceTable current new)
  | .case branches otherwise =>
    .case (branchesReplaceTable current new branches) (optionReplaceTable current new otherwise)
  | .arithmetic op left right =>
    .arithmetic op (left.replaceTable current new) (right.replaceTable current new)
  | .negative operand => .negative (operand.replaceTable current new)
  | .comparison op left right =>
    .comparison op (left.replaceTable current new) (right.replaceTable current new)
  | .combination op left right =>
    .combination op (left.replaceTable current new) (right.replaceTable current new)
  | .chain first second left middle right =>
    .chain first second (left.replaceTable current new) (middle.replaceTable current new)
      (right.replaceTable current new)
  | .membership operand container negated =>
    .membership (operand.replaceTable current new) (container.replaceTable current new) negated
  | .between operand lower upper =>
    .between (operand.replaceTable current new) (lower.replaceTable current new)
      (upper.replaceTable current new)
  | .period operand start stop =>
    .period (operand.replaceTable current new) (start.replaceTable current new)
      (stop.replaceTable current new)
  | .bitAnd operand mask => .bitAnd (operand.replaceTable current new) mask
  | .isNull operand => .isNull (operand.replaceTable current new)
  | .not operand => .not (operand.replaceTable current new)
  | .all operand => .all (operand.replaceTable current new)
  | .jsonPath column path => .jsonPath (column.replaceTable current new) path
  | .insertedValue field => .insertedValue (field.replaceTable current new)
  | .atTimeZone operand zone isInterval =>
    .atTimeZone (operand.replaceTable current new) zone isInterval
  | .literal sql => .literal sql
  | .value v mayBind => .value v mayBind
  | .interval i => .interval i
  | .document d => .document d
  | .parameter p => .parameter p
  | .subquery q => .subquery q
  | .setOperation s => .setOperation s
  | .index name => .index name
  | .pseudoColumn name => .pseudoColumn name
  | .empty => .empty

/-- Binds the columns of one table in a list of terms to another. -/
def listReplaceTable (current new : Table) : List Term → List Term
  | [] => []
  | t :: rest => t.replaceTable current new :: listReplaceTable current new rest

/-- Binds the columns of one table in branches to another. -/
def branchesReplaceTable (current new : Table) : List Branch → List Branch
  | [] => []
  | { condition, result } :: rest =>
    { condition := condition.replaceTable current new
      result := result.replaceTable current new } :: branchesReplaceTable current new rest

/-- Binds the columns of one table in a term that may be missing to another. -/
def optionReplaceTable (current new : Table) : Option Term → Option Term
  | none => none
  | some t => some (t.replaceTable current new)

/-- Binds the columns of one table in a call to another. -/
def Call.replaceTable (current new : Table) : Call → Call
  | { name, arguments, schema, suffix, bare, aggregate, distinct, filter, window, frame } =>
    { name, arguments := listReplaceTable current new arguments, schema,
      suffix := suffixReplaceTable current new suffix, bare, aggregate, distinct, filter, window,
      frame }

/-- Binds the columns of one table behind the arguments of a call to another. -/
def suffixReplaceTable (current new : Table) : Option CallSuffix → Option CallSuffix
  | some (.source t) => some (.source (t.replaceTable current new))
  | some (.words text) => some (.words text)
  | some .ignoreNulls => some .ignoreNulls
  | none => none

end

namespace Term

theorem isStar_replaceTable (current new : Table) (t : Term) :
    (t.replaceTable current new).isStar = t.isStar := by
  obtain ⟨expr, aliasName⟩ := t
  cases expr <;> rfl

theorem source?_replaceTable (current new : Table) (t : Term) :
    (t.replaceTable current new).source? = t.source?.map (Source.replaceTable current new) := by
  obtain ⟨expr, aliasName⟩ := t
  cases expr <;> rfl

end Term

end SqlCompose
