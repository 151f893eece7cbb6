import SqlCompose.Render

/-! # Everywhere — what holds of every part of a tree

    Some statements about writing a tree need to know something about the parts of it: that no
    arrays are in it, say, or that no source goes by a certain identity. Such a condition is one on
    a `Part`, and `Term.Everywhere` and its like say that all parts of a tree fulfil it, those of
    nested statements included.

    * `Node` — what can be written by itself: a term, a statement or a set operation.
    * `Part` — what conditions can be about. Parts are expressions without their aliases, tables and
      statements.
    * The parts of what is only named (the source that a column is of) are not parts of the tree.
    * `Node.everywhere_of_forall` — what holds of every part holds everywhere. -/

namespace SqlCompose

/-! ## Nodes and parts -/

/-- What can be written by itself. -/
inductive Node
  | term (t : Term)
  | query (q : Query)
  | setOperation (s : SetOperation)

/-- The draft of a node. -/
def Node.draft (ctx : Context) : Node → Draft
  | term t => t.draft ctx
  | query q => q.draft ctx
  | setOperation s => s.draft ctx

/-- A part of a tree. -/
inductive Part
  | expr (e : Expr)
  | table (t : Table)
  | query (q : Query)
  | setOperation (s : SetOperation)

/-- Whether the part is an array. -/
def Part.isArray : Part → Bool
  | expr (.array _) => true
  | _ => false

/-! ## Trees all of whose parts fulfil a condition

`Below` leaves out the part itself. -/

section

variable (P : Part → Prop)

mutual

/-- Everywhere in a term. -/
def Term.Everywhere : Term → Prop
  | { expr, .. } => P (.expr expr) ∧ expr.Below

/-- Everywhere below an expression. -/
def Expr.Below : Expr → Prop
  | .tuple items => termsEverywhere items
  | .array items => termsEverywhere items
  | .call c => c.Everywhere
  | .case branches otherwise => branchesEverywhere branches ∧ optionEverywhere otherwise
  | .arithmetic _ left right => left.Everywhere ∧ right.Everywhere
  | .negative operand => operand.Everywhere
  | .comparison _ left right => left.Everywhere ∧ right.Everywhere
  | .combination _ left right => left.Everywhere ∧ right.Everywhere
  | .chain _ _ left middle right => left.Everywhere ∧ middle.Everywhere ∧ right.Everywhere
  | .membership operand container _ => operand.Everywhere ∧ container.Everywhere
  | .between operand lower upper => operand.Everywhere ∧ lower.Everywhere ∧ upper.Everywhere
  | .period operand start stop => operand.Everywhere ∧ start.Everywhere ∧ stop.Everywhere
  | .bitAnd operand _ => operand.Everywhere
  | .isNull operand => operand.Everywhere
  | .not operand => operand.Everywhere
  | .all operand => operand.Everywhere
  | .jsonPath column _ => column.Everywhere
  | .subquery q => P (.query q) ∧ q.Below
  | .setOperation s => P (.setOperation s) ∧ s.Below
  | .insertedValue field => field.Everywhere
  | .atTimeZone operand _ _ => operand.Everywhere
  | _ => True

/-- Everywhere in terms. -/
def termsEverywhere : List Term → Prop
  | [] => True
  | t :: rest => t.Everywhere ∧ termsEverywhere rest

/-- Everywhere in rows of terms. -/
def rowsEverywhere : List (List Term) → Prop
  | [] => True
  | row :: rest => termsEverywhere row ∧ rowsEverywhere rest

/-- Everywhere in a term that may be missing. -/
def optionEverywhere : Option Term → Prop
  | none => True
  | some t => t.Everywhere

/-- Everywhere in the branches of a CASE expression. -/
def branchesEverywhere : List Branch → Prop
  | [] => True
  | { condition, result } :: rest =>
    condition.Everywhere ∧ result.Everywhere ∧ branchesEverywhere rest

/-- Everywhere in a call. -/
def Call.Everywhere : Call → Prop
  | { arguments, suffix, filter, window, .. } =>
    termsEverywhere arguments ∧ suffixEverywhere suffix ∧ optionEverywhere filter ∧
      windowEverywhere window

/-- Everywhere behind the arguments of a call. -/
def suffixEverywhere : Option CallSuffix → Prop
  | some (.source t) => t.Everywhere
  | _ => True

/-- Everywhere in an OVER clause. -/
def windowEverywhere : Option Window → Prop
  | none => True
  | some { partition, orderings } => termsEverywhere partition ∧ orderingsEverywhere orderings

/-- Everywhere in terms to sort by. -/
def orderingsEverywhere : List Ordering → Prop
  | [] => True
  | { term, .. } :: rest => term.Everywhere ∧ orderingsEverywhere rest

/-- Everywhere below a table. -/
def Table.Below : Table → Prop
  | { temporal, .. } => temporalEverywhere temporal

/-- Everywhere in a stretch of time. -/
def temporalEverywhere : Option Temporal → Prop
  | none => True
  | some (.period t) => t.Everywhere
  | some (.portion t) => t.Everywhere

/-- Everywhere in a table that may be missing. -/
def targetEverywhere : Option Table → Prop
  | none => True
  | some t => P (.table t) ∧ t.Below

/-- Everywhere in an item of FROM or JOIN. -/
def FromItem.Everywhere : FromItem → Prop
  | .table t => P (.table t) ∧ t.Below
  | .query q => P (.query q) ∧ q.Below
  | .setOperation s => P (.setOperation s) ∧ s.Below
  | .cte _ => True

/-- Everywhere in items of FROM. -/
def itemsEverywhere : List FromItem → Prop
  | [] => True
  | item :: rest => item.Everywhere ∧ itemsEverywhere rest

/-- Everywhere in WITH clauses. -/
def ctesEverywhere : List Cte → Prop
  | [] => True
  | { body, columns, .. } :: rest =>
    termsEverywhere columns ∧ body.Everywhere ∧ ctesEverywhere rest

/-- Everywhere in what decides which rows are joined. -/
def JoinCondition.Everywhere : JoinCondition → Prop
  | .none => True
  | .on criterion _ => criterion.Everywhere
  | .using fields => termsEverywhere fields

/-- Everywhere in joined sources. -/
def joinsEverywhere : List Join → Prop
  | [] => True
  | { item, condition, .. } :: rest =>
    item.Everywhere ∧ condition.Everywhere ∧ joinsEverywhere rest

/-- Everywhere in columns and their new values. -/
def assignmentsEverywhere : List Assignment → Prop
  | [] => True
  | { field, value } :: rest => field.Everywhere ∧ value.Everywhere ∧ assignmentsEverywhere rest

/-- Everywhere in columns and their new values in a conflict clause. -/
def resolutionsEverywhere : List Resolution → Prop
  | [] => True
  | { field, value } :: rest =>
    field.Everywhere ∧ optionEverywhere value ∧ resolutionsEverywhere rest

/-- Everywhere in a conflict clause. -/
def Conflict.Everywhere : Conflict → Prop
  | { fields, resolutions, targetFilter, updateFilter, .. } =>
    termsEverywhere fields ∧ resolutionsEverywhere resolutions ∧ targetFilter.Everywhere ∧
      updateFilter.Everywhere

/-- Everywhere below a statement. -/
def Query.Below : Query → Prop
  | { sources, ctes, selects, distinctOn, insertTable, updateTable, columns, rows, assignments,
      joins, prefilter, filter, groups, groupFilter, orderings, conflict, returns, .. } =>
    itemsEverywhere sources ∧ ctesEverywhere ctes ∧ termsEverywhere selects ∧
      termsEverywhere distinctOn ∧ targetEverywhere insertTable ∧ targetEverywhere updateTable ∧
      termsEverywhere columns ∧ rowsEverywhere rows ∧ assignmentsEverywhere assignments ∧
      joinsEverywhere joins ∧ prefilter.Everywhere ∧ filter.Everywhere ∧ termsEverywhere groups ∧
      groupFilter.Everywhere ∧ orderingsEverywhere orderings ∧ conflict.Everywhere ∧
      termsEverywhere returns

/-- Everywhere in the statements behind the first one of a set operation. -/
def operandsEverywhere : List Operand → Prop
  | [] => True
  | { query, .. } :: rest => (P (.query query) ∧ query.Below) ∧ operandsEverywhere rest

/-- Everywhere below a set operation. -/
def SetOperation.Below : SetOperation → Prop
  | { base, operands, orderings, .. } =>
    (P (.query base) ∧ base.Below) ∧ operandsEverywhere operands ∧ orderingsEverywhere orderings

end

/-- Everywhere in a node. -/
def Node.Everywhere : Node → Prop
  | term t => t.Everywhere P
  | query q => P (.query q) ∧ q.Below P
  | setOperation s => P (.setOperation s) ∧ s.Below P

end

/-! ## Conditions that every part fulfils -/

section

variable {P : Part → Prop}

mutual

/-- What holds of all parts holds everywhere in a term. -/
theorem Term.everywhere_of_forall (hP : ∀ p, P p) : (t : Term) → t.Everywhere P
  | ⟨expr, _⟩ => ⟨hP _, expr.below_of_forall hP⟩

/-- And below every expression. -/
theorem Expr.below_of_forall (hP : ∀ p, P p) : (e : Expr) → e.Below P
  | .tuple items => termsEverywhere_of_forall hP items
  | .array items => termsEverywhere_of_forall hP items
  | .call c => c.everywhere_of_forall hP
  | .case branches otherwise =>
    ⟨branchesEverywhere_of_forall hP branches, optionEverywhere_of_forall hP otherwise⟩
  | .arithmetic _ left right => ⟨left.everywhere_of_forall hP, right.everywhere_of_forall hP⟩
  | .negative operand => operand.everywhere_of_forall hP
  | .comparison _ left right => ⟨left.everywhere_of_forall hP, right.everywhere_of_forall hP⟩
  | .combination _ left right => ⟨left.everywhere_of_forall hP, right.everywhere_of_forall hP⟩
  | .chain _ _ left middle right =>
    ⟨left.everywhere_of_forall hP, middle.everywhere_of_forall hP, right.everywhere_of_forall hP⟩
  | .membership operand container _ =>
    ⟨operand.everywhere_of_forall hP, container.everywhere_of_forall hP⟩
  | .between operand lower upper =>
    ⟨operand.everywhere_of_forall hP, lower.everywhere_of_forall hP, upper.everywhere_of_forall hP⟩
  | .period operand start stop =>
    ⟨operand.everywhere_of_forall hP, start.everywhere_of_forall hP, stop.everywhere_of_forall hP⟩
  | .bitAnd operand _ => operand.everywhere_of_forall hP
  | .isNull operand => operand.everywhere_of_forall hP
  | .not operand => operand.everywhere_of_forall hP
  | .all operand => operand.everywhere_of_forall hP
  | .jsonPath column _ => column.everywhere_of_forall hP
  | .subquery q => ⟨hP _, q.below_of_forall hP⟩
  | .setOperation s => ⟨hP _, s.below_of_forall hP⟩
  | .insertedValue field => field.everywhere_of_forall hP
  | .atTimeZone operand _ _ => operand.everywhere_of_forall hP
  | .literal _ | .value _ _ | .field _ _ | .star _ | .interval _ | .document _ | .parameter _
  | .index _ | .pseudoColumn _ | .empty => trivial

theorem termsEverywhere_of_forall (hP : ∀ p, P p) : (ts : List Term) → termsEverywhere P ts
  | [] => trivial
  | t :: rest => ⟨t.everywhere_of_forall hP, termsEverywhere_of_forall hP rest⟩

theorem rowsEverywhere_of_forall (hP : ∀ p, P p) : (rows : List (List Term)) → rowsEverywhere P rows
  | [] => trivial
  | row :: rest => ⟨termsEverywhere_of_forall hP row, rowsEverywhere_of_forall hP rest⟩

theorem optionEverywhere_of_forall (hP : ∀ p, P p) : (t : Option Term) → optionEverywhere P t
  | none => trivial
  | some t => t.everywhere_of_forall hP

theorem branchesEverywhere_of_forall (hP : ∀ p, P p) : (bs : List Branch) → branchesEverywhere P bs
  | [] => trivial
  | ⟨condition, result⟩ :: rest =>
    ⟨condition.everywhere_of_forall hP, result.everywhere_of_forall hP,
      branchesEverywhere_of_forall hP rest⟩

/-- It holds everywhere in a call. -/
theorem Call.everywhere_of_forall (hP : ∀ p, P p) : (c : Call) → c.Everywhere P
  | ⟨_, arguments, _, suffix, _, _, _, filter, window, _⟩ =>
    ⟨termsEverywhere_of_forall hP arguments, suffixEverywhere_of_forall hP suffix,
      optionEverywhere_of_forall hP filter, windowEverywhere_of_forall hP window⟩

theorem suffixEverywhere_of_forall (hP : ∀ p, P p) : (s : Option CallSuffix) → suffixEverywhere P s
  | some (.source t) => t.everywhere_of_forall hP
  | some (.words _) | some .ignoreNulls | none => trivial

theorem windowEverywhere_of_forall (hP : ∀ p, P p) : (w : Option Window) → windowEverywhere P w
  | none => trivial
  | some ⟨partition, orderings⟩ =>
    ⟨termsEverywhere_of_forall hP partition, orderingsEverywhere_of_forall hP orderings⟩

theorem orderingsEverywhere_of_forall (hP : ∀ p, P p) :
    (os : List Ordering) → orderingsEverywhere P os
  | [] => trivial
  | ⟨term, _⟩ :: rest => ⟨term.everywhere_of_forall hP, orderingsEverywhere_of_forall hP rest⟩

/-- It holds below every table. -/
theorem Table.below_of_forall (hP : ∀ p, P p) : (t : Table) → t.Below P
  | ⟨_, _, _, temporal⟩ => temporalEverywhere_of_forall hP temporal

theorem temporalEverywhere_of_forall (hP : ∀ p, P p) :
    (t : Option Temporal) → temporalEverywhere P t
  | none => trivial
  | some (.period t) => t.everywhere_of_forall hP
  | some (.portion t) => t.everywhere_of_forall hP

theorem targetEverywhere_of_forall (hP : ∀ p, P p) : (t : Option Table) → targetEverywhere P t
  | none => trivial
  | some t => ⟨hP _, t.below_of_forall hP⟩

/-- It holds everywhere in an item of FROM. -/
theorem FromItem.everywhere_of_forall (hP : ∀ p, P p) : (item : FromItem) → item.Everywhere P
  | .table t => ⟨hP _, t.below_of_forall hP⟩
  | .query q => ⟨hP _, q.below_of_forall hP⟩
  | .setOperation s => ⟨hP _, s.below_of_forall hP⟩
  | .cte _ => trivial

theorem itemsEverywhere_of_forall (hP : ∀ p, P p) :
    (items : List FromItem) → itemsEverywhere P items
  | [] => trivial
  | item :: rest => ⟨item.everywhere_of_forall hP, itemsEverywhere_of_forall hP rest⟩

theorem ctesEverywhere_of_forall (hP : ∀ p, P p) : (ctes : List Cte) → ctesEverywhere P ctes
  | [] => trivial
  | ⟨_, body, columns⟩ :: rest =>
    ⟨termsEverywhere_of_forall hP columns, body.everywhere_of_forall hP,
      ctesEverywhere_of_forall hP rest⟩

/-- It holds everywhere in the condition of a join. -/
theorem JoinCondition.everywhere_of_forall (hP : ∀ p, P p) : (j : JoinCondition) → j.Everywhere P
  | .none => trivial
  | .on criterion _ => criterion.everywhere_of_forall hP
  | .using fields => termsEverywhere_of_forall hP fields

theorem joinsEverywhere_of_forall (hP : ∀ p, P p) : (joins : List Join) → joinsEverywhere P joins
  | [] => trivial
  | ⟨item, _, condition⟩ :: rest =>
    ⟨item.everywhere_of_forall hP, condition.everywhere_of_forall hP,
      joinsEverywhere_of_forall hP rest⟩

theorem assignmentsEverywhere_of_forall (hP : ∀ p, P p) :
    (as : List Assignment) → assignmentsEverywhere P as
  | [] => trivial
  | ⟨field, value⟩ :: rest =>
    ⟨field.everywhere_of_forall hP, value.everywhere_of_forall hP,
      assignmentsEverywhere_of_forall hP rest⟩

theorem resolutionsEverywhere_of_forall (hP : ∀ p, P p) :
    (rs : List Resolution) → resolutionsEverywhere P rs
  | [] => trivial
  | ⟨field, value⟩ :: rest =>
    ⟨field.everywhere_of_forall hP, optionEverywhere_of_forall hP value,
      resolutionsEverywhere_of_forall hP rest⟩

/-- It holds everywhere in a conflict clause. -/
theorem Conflict.everywhere_of_forall (hP : ∀ p, P p) : (c : Conflict) → c.Everywhere P
  | ⟨_, fields, _, resolutions, targetFilter, updateFilter⟩ =>
    ⟨termsEverywhere_of_forall hP fields, resolutionsEverywhere_of_forall hP resolutions,
      targetFilter.everywhere_of_forall hP, updateFilter.everywhere_of_forall hP⟩

/-- It holds below every statement. -/
theorem Query.below_of_forall (hP : ∀ p, P p) : (q : Query) → q.Below P
  | {
      sources, ctes, selects, distinctOn, insertTable, updateTable, columns, rows, assignments,
      joins, prefilter, filter, groups, groupFilter, orderings, conflict, returns, .. } =>
    ⟨itemsEverywhere_of_forall hP sources, ctesEverywhere_of_forall hP ctes,
      termsEverywhere_of_forall hP selects, termsEverywhere_of_forall hP distinctOn,
      targetEverywhere_of_forall hP insertTable, targetEverywhere_of_forall hP updateTable,
      termsEverywhere_of_forall hP columns, rowsEverywhere_of_forall hP rows,
      assignmentsEverywhere_of_forall hP assignments, joinsEverywhere_of_forall hP joins,
      prefilter.everywhere_of_forall hP, filter.everywhere_of_forall hP,
      termsEverywhere_of_forall hP groups, groupFilter.everywhere_of_forall hP,
      orderingsEverywhere_of_forall hP orderings, conflict.everywhere_of_forall hP,
      termsEverywhere_of_forall hP returns⟩

theorem operandsEverywhere_of_forall (hP : ∀ p, P p) : (os : List Operand) → operandsEverywhere P os
  | [] => trivial
  | ⟨_, query⟩ :: rest =>
    ⟨⟨hP _, query.below_of_forall hP⟩, operandsEverywhere_of_forall hP rest⟩

/-- It holds below every set operation. -/
theorem SetOperation.below_of_forall (hP : ∀ p, P p) : (s : SetOperation) → s.Below P
  | ⟨base, operands, orderings, _, _, _⟩ =>
    ⟨⟨hP _, base.below_of_forall hP⟩, operandsEverywhere_of_forall hP operands,
      orderingsEverywhere_of_forall hP orderings⟩

end

/-- What holds of every part holds everywhere in a node. -/
theorem Node.everywhere_of_forall (hP : ∀ p, P p) (node : Node) : node.Everywhere P := by
  cases node with
  | term t => exact t.everywhere_of_forall hP
  | query q => exact ⟨hP _, q.below_of_forall hP⟩
  | setOperation s => exact ⟨hP _, s.below_of_forall hP⟩

end

end SqlCompose
