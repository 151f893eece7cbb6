import Mathlib.Logic.Basic
import SqlCompose.Proofs.Everywhere

/-! # Exchange — a tree with other constants

    Two trees are of one shape if they differ in their constants alone. `Term.exchange` and its like
    put other constants in, but only where a constant may be bound: what is always written stays as
    it is.

    * `Exchange` — what becomes of a constant, and of the number of a limit or an offset.
    * `Term.exchange_id` and its like — exchanging every constant for itself changes nothing.
    * `Query.SameLayout` — what the clauses of a statement depend on beside their parts; exchanging
      constants does not touch it, see `Query.exchange_sameLayout`. -/

namespace SqlCompose

/-- What becomes of constants that may be bound, and of limits and offsets. -/
structure Exchange where
  value : Value → Value
  count : Int64 → Int64

namespace Exchange

/-- Everything for itself. -/
def id : Exchange := ⟨fun v => v, fun n => n⟩

/-- Whether the constants put in may be bound too. -/
def KeepsBindable (x : Exchange) : Prop :=
  ∀ v : Value, v.isBindable = true → (x.value v).isBindable = true

/-- What becomes of a constant of a tree. -/
def constant (x : Exchange) (v : Value) (mayBind : Bool) : Value :=
  if mayBind && v.isBindable then x.value v else v

end Exchange

/-! ## The tree -/

section

variable (x : Exchange)

mutual

/-- A term with its constants exchanged. -/
def Term.exchange : Term → Term
  | { expr, aliasName } => { expr := expr.exchange, aliasName }

/-- An expression with its constants exchanged. -/
def Expr.exchange : Expr → Expr
  | .value v mayBind => .value (x.constant v mayBind) mayBind
  | .tuple items => .tuple (exchangeTerms items)
  | .array items => .array (exchangeTerms items)
  | .call c => .call c.exchange
  | .case branches otherwise => .case (exchangeBranches branches) (exchangeOption otherwise)
  | .arithmetic op left right => .arithmetic op left.exchange right.exchange
  | .negative operand => .negative operand.exchange
  | .comparison op left right => .comparison op left.exchange right.exchange
  | .combination op left right => .combination op left.exchange right.exchange
  | .chain first second left middle right =>
    .chain first second left.exchange middle.exchange right.exchange
  | .membership operand container negated =>
    .membership operand.exchange container.exchange negated
  | .between operand lower upper => .between operand.exchange lower.exchange upper.exchange
  | .period operand start stop => .period operand.exchange start.exchange stop.exchange
  | .bitAnd operand mask => .bitAnd operand.exchange mask
  | .isNull operand => .isNull operand.exchange
  | .not operand => .not operand.exchange
  | .all operand => .all operand.exchange
  | .jsonPath column path => .jsonPath column.exchange path
  | .subquery q => .subquery q.exchange
  | .setOperation s => .setOperation s.exchange
  | .insertedValue field => .insertedValue field.exchange
  | .atTimeZone operand zone isInterval => .atTimeZone operand.exchange zone isInterval
  | e => e

/-- Terms with their constants exchanged. -/
def exchangeTerms : List Term → List Term
  | [] => []
  | t :: rest => t.exchange :: exchangeTerms rest

/-- Rows of terms with their constants exchanged. -/
def exchangeRows : List (List Term) → List (List Term)
  | [] => []
  | row :: rest => exchangeTerms row :: exchangeRows rest

/-- A term that may be missing, with its constants exchanged. -/
def exchangeOption : Option Term → Option Term
  | none => none
  | some t => some t.exchange

/-- The branches of a CASE expression with their constants exchanged. -/
def exchangeBranches : List Branch → List Branch
  | [] => []
  | { condition, result } :: rest =>
    { condition := condition.exchange, result := result.exchange } :: exchangeBranches rest

/-- A call with its constants exchanged. -/
def Call.exchange : Call → Call
  | c@{ arguments, suffix, filter, window, .. } =>
    { c with
      arguments := exchangeTerms arguments
      suffix := exchangeSuffix suffix
      filter := exchangeOption filter
      window := exchangeWindow window }

/-- What stands behind the arguments of a call, with its constants exchanged. -/
def exchangeSuffix : Option CallSuffix → Option CallSuffix
  | some (.source t) => some (.source t.exchange)
  | other => other

/-- An OVER clause with its constants exchanged. -/
def exchangeWindow : Option Window → Option Window
  | none => none
  | some { partition, orderings } =>
    some { partition := exchangeTerms partition, orderings := exchangeOrderings orderings }

/-- Terms to sort by with their constants exchanged. -/
def exchangeOrderings : List Ordering → List Ordering
  | [] => []
  | { term, direction } :: rest => { term := term.exchange, direction } :: exchangeOrderings rest

/-- A table with the constants of its stretch of time exchanged. -/
def Table.exchange : Table → Table
  | t@{ temporal, .. } => { t with temporal := exchangeTemporal temporal }

/-- A stretch of time with its constants exchanged. -/
def exchangeTemporal : Option Temporal → Option Temporal
  | none => none
  | some (.period t) => some (.period t.exchange)
  | some (.portion t) => some (.portion t.exchange)

/-- A table that may be missing, with its constants exchanged. -/
def exchangeTarget : Option Table → Option Table
  | none => none
  | some t => some t.exchange

/-- An item of FROM or JOIN with its constants exchanged. -/
def FromItem.exchange : FromItem → FromItem
  | .table t => .table t.exchange
  | .query q => .query q.exchange
  | .setOperation s => .setOperation s.exchange
  | .cte name => .cte name

/-- Items of FROM with their constants exchanged. -/
def exchangeItems : List FromItem → List FromItem
  | [] => []
  | item :: rest => item.exchange :: exchangeItems rest

/-- WITH clauses with their constants exchanged. -/
def exchangeCtes : List Cte → List Cte
  | [] => []
  | { name, body, columns } :: rest =>
    { name, body := body.exchange, columns := exchangeTerms columns } :: exchangeCtes rest

/-- What decides which rows are joined, with its constants exchanged. -/
def JoinCondition.exchange : JoinCondition → JoinCondition
  | .none => .none
  | .on criterion collation => .on criterion.exchange collation
  | .using fields => .using (exchangeTerms fields)

/-- Joined sources with their constants exchanged. -/
def exchangeJoins : List Join → List Join
  | [] => []
  | { item, kind, condition } :: rest =>
    { item := item.exchange, kind, condition := condition.exchange } :: exchangeJoins rest

/-- Columns and their new values with their constants exchanged. -/
def exchangeAssignments : List Assignment → List Assignment
  | [] => []
  | { field, value } :: rest =>
    { field := field.exchange, value := value.exchange } :: exchangeAssignments rest

/-- Columns and their new values in a conflict clause with their constants exchanged. -/
def exchangeResolutions : List Resolution → List Resolution
  | [] => []
  | { field, value } :: rest =>
    { field := field.exchange, value := exchangeOption value } :: exchangeResolutions rest

/-- A conflict clause with its constants exchanged. -/
def Conflict.exchange : Conflict → Conflict
  | c@{ fields, resolutions, targetFilter, updateFilter, .. } =>
    { c with
      fields := exchangeTerms fields
      resolutions := exchangeResolutions resolutions
      targetFilter := targetFilter.exchange
      updateFilter := updateFilter.exchange }

/-- A statement with its constants, its limit and its offset exchanged. -/
def Query.exchange : Query → Query
  | q@{
      sources, ctes, selects, distinctOn, insertTable, updateTable, columns, rows, assignments,
      joins, prefilter, filter, groups, groupFilter, orderings, limit, offset, conflict,
      returns, .. } =>
    { q with
      sources := exchangeItems sources
      ctes := exchangeCtes ctes
      selects := exchangeTerms selects
      distinctOn := exchangeTerms distinctOn
      insertTable := exchangeTarget insertTable
      updateTable := exchangeTarget updateTable
      columns := exchangeTerms columns
      rows := exchangeRows rows
      assignments := exchangeAssignments assignments
      joins := exchangeJoins joins
      prefilter := prefilter.exchange
      filter := filter.exchange
      groups := exchangeTerms groups
      groupFilter := groupFilter.exchange
      orderings := exchangeOrderings orderings
      limit := limit.map x.count
      offset := offset.map x.count
      conflict := conflict.exchange
      returns := exchangeTerms returns }

/-- The statements behind the first one of a set operation with their constants exchanged. -/
def exchangeOperands : List Operand → List Operand
  | [] => []
  | { operator, query } :: rest => { operator, query := query.exchange } :: exchangeOperands rest

/-- A set operation with its constants exchanged. Its own limit and offset are not constants. -/
def SetOperation.exchange : SetOperation → SetOperation
  | s@{ base, operands, orderings, .. } =>
    { s with
      base := base.exchange
      operands := exchangeOperands operands
      orderings := exchangeOrderings orderings }

end

/-- A node with its constants exchanged. -/
def Node.exchange : Node → Node
  | term t => term (t.exchange x)
  | query q => query (q.exchange x)
  | setOperation s => setOperation (s.exchange x)

end

/-! ## Exchanging everything for itself -/

/-- A constant exchanged for itself stays, whether it may be bound or not. -/
theorem Exchange.constant_id (v : Value) (mayBind : Bool) : Exchange.id.constant v mayBind = v :=
  ite_self v

mutual

/-- A term stays as it is, and so does everything below it. -/
theorem Term.exchange_id : (t : Term) → t.exchange .id = t
  | ⟨expr, aliasName⟩ => congrArg (Term.mk · aliasName) (Expr.exchange_id expr)

theorem Expr.exchange_id : (e : Expr) → e.exchange .id = e
  | .literal _ => rfl
  | .value v mayBind => congrArg (Expr.value · mayBind) (Exchange.constant_id v mayBind)
  | .field _ _ => rfl
  | .star _ => rfl
  | .tuple items => congrArg Expr.tuple (exchangeTerms_id items)
  | .array items => congrArg Expr.array (exchangeTerms_id items)
  | .call c => congrArg Expr.call (Call.exchange_id c)
  | .case branches otherwise =>
    congrArg₂ Expr.case (exchangeBranches_id branches) (exchangeOption_id otherwise)
  | .interval _ => rfl
  | .document _ => rfl
  | .arithmetic op left right =>
    congrArg₂ (Expr.arithmetic op) (Term.exchange_id left) (Term.exchange_id right)
  | .negative operand => congrArg Expr.negative (Term.exchange_id operand)
  | .parameter _ => rfl
  | .comparison op left right =>
    congrArg₂ (Expr.comparison op) (Term.exchange_id left) (Term.exchange_id right)
  | .combination op left right =>
    congrArg₂ (Expr.combination op) (Term.exchange_id left) (Term.exchange_id right)
  | .chain first second left middle right => by
    rw [Expr.exchange, Term.exchange_id left, Term.exchange_id middle, Term.exchange_id right]
  | .membership operand container negated =>
    congrArg₂ (Expr.membership · · negated) (Term.exchange_id operand) (Term.exchange_id container)
  | .between operand lower upper => by
    rw [Expr.exchange, Term.exchange_id operand, Term.exchange_id lower, Term.exchange_id upper]
  | .period operand start stop => by
    rw [Expr.exchange, Term.exchange_id operand, Term.exchange_id start, Term.exchange_id stop]
  | .bitAnd operand mask => congrArg (Expr.bitAnd · mask) (Term.exchange_id operand)
  | .isNull operand => congrArg Expr.isNull (Term.exchange_id operand)
  | .not operand => congrArg Expr.not (Term.exchange_id operand)
  | .all operand => congrArg Expr.all (Term.exchange_id operand)
  | .jsonPath column path => congrArg (Expr.jsonPath · path) (Term.exchange_id column)
  | .subquery q => congrArg Expr.subquery (Query.exchange_id q)
  | .setOperation s => congrArg Expr.setOperation (SetOperation.exchange_id s)
  | .insertedValue field => congrArg Expr.insertedValue (Term.exchange_id field)
  | .index _ => rfl
  | .pseudoColumn _ => rfl
  | .atTimeZone operand zone isInterval =>
    congrArg (Expr.atTimeZone · zone isInterval) (Term.exchange_id operand)
  | .empty => rfl

/-- Terms stay as they are. -/
theorem exchangeTerms_id : (ts : List Term) → exchangeTerms .id ts = ts
  | [] => rfl
  | t :: rest => congrArg₂ List.cons (Term.exchange_id t) (exchangeTerms_id rest)

theorem exchangeRows_id : (rows : List (List Term)) → exchangeRows .id rows = rows
  | [] => rfl
  | row :: rest => congrArg₂ List.cons (exchangeTerms_id row) (exchangeRows_id rest)

theorem exchangeOption_id : (t : Option Term) → exchangeOption .id t = t
  | none => rfl
  | some t => congrArg some (Term.exchange_id t)

theorem exchangeBranches_id : (bs : List Branch) → exchangeBranches .id bs = bs
  | [] => rfl
  | ⟨condition, result⟩ :: rest =>
    congrArg₂ List.cons (congrArg₂ Branch.mk (Term.exchange_id condition) (Term.exchange_id result))
      (exchangeBranches_id rest)

/-- A call stays as it is, with what stands behind it. -/
theorem Call.exchange_id : (c : Call) → c.exchange .id = c
  | ⟨_, arguments, _, suffix, _, _, _, filter, window, _⟩ => by
    rw [Call.exchange, exchangeTerms_id arguments, exchangeSuffix_id suffix,
      exchangeOption_id filter, exchangeWindow_id window]

theorem exchangeSuffix_id : (s : Option CallSuffix) → exchangeSuffix .id s = s
  | none => rfl
  | some (.words _) => rfl
  | some .ignoreNulls => rfl
  | some (.source t) => congrArg (some <| CallSuffix.source ·) (Term.exchange_id t)

theorem exchangeWindow_id : (w : Option Window) → exchangeWindow .id w = w
  | none => rfl
  | some ⟨partition, orderings⟩ =>
    congrArg some
      (congrArg₂ Window.mk (exchangeTerms_id partition) (exchangeOrderings_id orderings))

theorem exchangeOrderings_id : (os : List Ordering) → exchangeOrderings .id os = os
  | [] => rfl
  | ⟨term, direction⟩ :: rest =>
    congrArg₂ List.cons (congrArg (Ordering.mk · direction) (Term.exchange_id term))
      (exchangeOrderings_id rest)

/-- A table stays as it is, with the times it is read at. -/
theorem Table.exchange_id : (t : Table) → t.exchange .id = t
  | ⟨name, schema, slot, temporal⟩ =>
    congrArg (Table.mk name schema slot) (exchangeTemporal_id temporal)

theorem exchangeTemporal_id : (t : Option Temporal) → exchangeTemporal .id t = t
  | none => rfl
  | some (.period t) => congrArg (some <| Temporal.period ·) (Term.exchange_id t)
  | some (.portion t) => congrArg (some <| Temporal.portion ·) (Term.exchange_id t)

theorem exchangeTarget_id : (t : Option Table) → exchangeTarget .id t = t
  | none => rfl
  | some t => congrArg some (Table.exchange_id t)

/-- An item of FROM stays as it is, a nested statement too. -/
theorem FromItem.exchange_id : (item : FromItem) → item.exchange .id = item
  | .table t => congrArg FromItem.table (Table.exchange_id t)
  | .query q => congrArg FromItem.query (Query.exchange_id q)
  | .setOperation s => congrArg FromItem.setOperation (SetOperation.exchange_id s)
  | .cte _ => rfl

theorem exchangeItems_id : (items : List FromItem) → exchangeItems .id items = items
  | [] => rfl
  | item :: rest => congrArg₂ List.cons (FromItem.exchange_id item) (exchangeItems_id rest)

theorem exchangeCtes_id : (ctes : List Cte) → exchangeCtes .id ctes = ctes
  | [] => rfl
  | ⟨name, body, columns⟩ :: rest =>
    congrArg₂ List.cons (congrArg₂ (Cte.mk name) (FromItem.exchange_id body)
      (exchangeTerms_id columns)) (exchangeCtes_id rest)

/-- The condition of a join stays as it is. -/
theorem JoinCondition.exchange_id : (c : JoinCondition) → c.exchange .id = c
  | .none => rfl
  | .on criterion collation => congrArg (JoinCondition.on · collation) (Term.exchange_id criterion)
  | .using fields => congrArg JoinCondition.using (exchangeTerms_id fields)

theorem exchangeJoins_id : (joins : List Join) → exchangeJoins .id joins = joins
  | [] => rfl
  | ⟨item, kind, condition⟩ :: rest =>
    congrArg₂ List.cons (congrArg₂ (Join.mk · kind) (FromItem.exchange_id item)
      (JoinCondition.exchange_id condition)) (exchangeJoins_id rest)

theorem exchangeAssignments_id : (as : List Assignment) → exchangeAssignments .id as = as
  | [] => rfl
  | ⟨field, value⟩ :: rest =>
    congrArg₂ List.cons (congrArg₂ Assignment.mk (Term.exchange_id field) (Term.exchange_id value))
      (exchangeAssignments_id rest)

theorem exchangeResolutions_id : (rs : List Resolution) → exchangeResolutions .id rs = rs
  | [] => rfl
  | ⟨field, value⟩ :: rest =>
    congrArg₂ List.cons (congrArg₂ Resolution.mk (Term.exchange_id field) (exchangeOption_id value))
      (exchangeResolutions_id rest)

/-- A conflict clause stays as it is. -/
theorem Conflict.exchange_id : (c : Conflict) → c.exchange .id = c
  | ⟨_, fields, _, resolutions, targetFilter, updateFilter⟩ => by
    rw [Conflict.exchange, exchangeTerms_id fields, exchangeResolutions_id resolutions,
      Term.exchange_id targetFilter, Term.exchange_id updateFilter]

/-- A statement stays as it is, in all its clauses. -/
theorem Query.exchange_id : (q : Query) → q.exchange .id = q
  | q@{
      sources, ctes, selects, distinctOn, insertTable, updateTable, columns, rows, assignments,
      joins, prefilter, filter, groups, groupFilter, orderings, limit, offset, conflict,
      returns, .. } => by
    have hcount : ∀ n : Option Int64, n.map Exchange.id.count = n := fun n => Option.map_id'
    rw [Query.exchange, exchangeItems_id sources, exchangeCtes_id ctes, exchangeTerms_id selects,
      exchangeTerms_id distinctOn, exchangeTarget_id insertTable, exchangeTarget_id updateTable,
      exchangeTerms_id columns, exchangeRows_id rows, exchangeAssignments_id assignments,
      exchangeJoins_id joins, Term.exchange_id prefilter, Term.exchange_id filter,
      exchangeTerms_id groups, Term.exchange_id groupFilter, exchangeOrderings_id orderings,
      hcount limit, hcount offset, Conflict.exchange_id conflict, exchangeTerms_id returns]

theorem exchangeOperands_id : (os : List Operand) → exchangeOperands .id os = os
  | [] => rfl
  | ⟨operator, query⟩ :: rest =>
    congrArg₂ List.cons (congrArg (Operand.mk operator) (Query.exchange_id query))
      (exchangeOperands_id rest)

/-- A set operation stays as it is. -/
theorem SetOperation.exchange_id : (s : SetOperation) → s.exchange .id = s
  | ⟨base, operands, orderings, _, _, _⟩ => by
    rw [SetOperation.exchange, Query.exchange_id base, exchangeOperands_id operands,
      exchangeOrderings_id orderings]

end

/-- Whatever is written stays as it is. -/
theorem Node.exchange_id (node : Node) : node.exchange .id = node := by
  cases node with
  | term t => exact congrArg Node.term t.exchange_id
  | query q => exact congrArg Node.query q.exchange_id
  | setOperation s => exact congrArg Node.setOperation s.exchange_id

/-! ## What constants are not part of -/

section

variable (x : Exchange)

/-- Terms are exchanged one by one. -/
theorem exchangeTerms_eq_map (ts : List Term) : exchangeTerms x ts = ts.map (Term.exchange x) := by
  induction ts with
  | nil => rfl
  | cons t rest ih => exact congrArg (t.exchange x :: ·) ih

/-- Items of FROM are exchanged one by one. -/
theorem exchangeItems_eq_map (items : List FromItem) :
    exchangeItems x items = items.map (FromItem.exchange x) := by
  induction items with
  | nil => rfl
  | cons item rest ih => exact congrArg (item.exchange x :: ·) ih

/-- Definitions are exchanged one by one, each under its name. -/
theorem exchangeCtes_eq_map (ctes : List Cte) :
    exchangeCtes x ctes =
      ctes.map fun c => ⟨c.name, c.body.exchange x, exchangeTerms x c.columns⟩ := by
  induction ctes with
  | nil => rfl
  | cons c rest ih => cases c; exact congrArg (List.cons _) ih

/-- Joins are exchanged one by one; how they join stays. -/
theorem exchangeJoins_eq_map (joins : List Join) :
    exchangeJoins x joins =
      joins.map fun j => ⟨j.item.exchange x, j.kind, j.condition.exchange x⟩ := by
  induction joins with
  | nil => rfl
  | cons j rest ih => cases j; exact congrArg (List.cons _) ih

/-- Operands are exchanged one by one; their operators stay. -/
theorem exchangeOperands_eq_map (os : List Operand) :
    exchangeOperands x os = os.map fun o => ⟨o.operator, o.query.exchange x⟩ := by
  induction os with
  | nil => rfl
  | cons o rest ih => cases o; exact congrArg (List.cons _) ih

/-- No term is added and none goes, and the same holds of all other lists of a statement. -/
theorem exchangeTerms_isEmpty (ts : List Term) : (exchangeTerms x ts).isEmpty = ts.isEmpty := by
  cases ts <;> rfl

theorem exchangeRows_isEmpty (rows : List (List Term)) :
    (exchangeRows x rows).isEmpty = rows.isEmpty := by
  cases rows <;> rfl

theorem exchangeBranches_isEmpty (bs : List Branch) :
    (exchangeBranches x bs).isEmpty = bs.isEmpty := by
  rcases bs with _ | ⟨⟨_, _⟩, _⟩ <;> rfl

theorem exchangeAssignments_isEmpty (as : List Assignment) :
    (exchangeAssignments x as).isEmpty = as.isEmpty := by
  rcases as with _ | ⟨⟨_, _⟩, _⟩ <;> rfl

theorem exchangeResolutions_isEmpty (rs : List Resolution) :
    (exchangeResolutions x rs).isEmpty = rs.isEmpty := by
  rcases rs with _ | ⟨⟨_, _⟩, _⟩ <;> rfl

theorem exchangeOrderings_isEmpty (os : List Ordering) :
    (exchangeOrderings x os).isEmpty = os.isEmpty := by
  rcases os with _ | ⟨⟨_, _⟩, _⟩ <;> rfl

theorem exchangeJoins_isEmpty (joins : List Join) :
    (exchangeJoins x joins).isEmpty = joins.isEmpty := by
  rcases joins with _ | ⟨⟨_, _, _⟩, _⟩ <;> rfl

/-- Where a table is changed, one is changed afterwards. -/
theorem exchangeTarget_isSome (t : Option Table) : (exchangeTarget x t).isSome = t.isSome := by
  cases t <;> rfl

namespace Term

/-- Exchanging constants makes no criterion of the empty one. -/
theorem exchange_isEmpty (t : Term) : (t.exchange x).isEmpty = t.isEmpty := by
  obtain ⟨expr, aliasName⟩ := t
  cases expr <;> rfl

/-- An operation stays one with its operator, so its parentheses stay too. -/
theorem exchange_arithmeticOp (t : Term) : (t.exchange x).arithmeticOp? = t.arithmeticOp? := by
  obtain ⟨expr, aliasName⟩ := t
  cases expr <;> rfl

/-- A combination of criteria stays one with its operator. -/
theorem exchange_differsFrom (op : Combinator) (t : Term) :
    (t.exchange x).differsFrom op = t.differsFrom op := by
  obtain ⟨expr, aliasName⟩ := t
  cases expr <;> rfl

/-- A term is known by the same name afterwards. -/
theorem exchange_knownAs (t : Term) : (t.exchange x).knownAs = t.knownAs := by
  obtain ⟨expr, aliasName⟩ := t
  cases expr with
  | subquery q => cases q; rfl
  | setOperation s => cases s; rfl
  | _ => rfl

end Term

/-- An item stays a statement or a table. -/
theorem FromItem.exchange_isQuery (item : FromItem) : (item.exchange x).isQuery = item.isQuery := by
  cases item <;> rfl

/-- An item of FROM reads a name afterwards if it did before. -/
theorem FromItem.exchange_reads (name : String) (item : FromItem) :
    (item.exchange x).reads name = item.reads name := by
  cases item with
  | table t => cases t; rfl
  | _ => rfl

/-- A statement reads a name afterwards if it did before. -/
theorem Query.exchange_reads (name : String) (q : Query) :
    (q.exchange x).reads name = q.reads name := by
  have hsources : (exchangeItems x q.sources).any (FromItem.reads name)
      = q.sources.any (FromItem.reads name) := by
    simp only [exchangeItems_eq_map, List.any_map, Function.comp_def, FromItem.exchange_reads]
  have hjoins : (exchangeJoins x q.joins).any (fun j => j.item.reads name)
      = q.joins.any fun j => j.item.reads name := by
    simp only [exchangeJoins_eq_map, List.any_map, Function.comp_def, FromItem.exchange_reads]
  cases q
  exact congrArg₂ or hsources hjoins

/-- A set operation reads a name afterwards if it did before. -/
theorem SetOperation.exchange_reads (name : String) (s : SetOperation) :
    (s.exchange x).reads name = s.reads name := by
  have hoperands : (exchangeOperands x s.operands).any (fun o => o.query.reads name)
      = s.operands.any fun o => o.query.reads name := by
    simp only [exchangeOperands_eq_map, List.any_map, Function.comp_def, Query.exchange_reads]
  cases s
  exact congrArg₂ or (Query.exchange_reads x name _) hoperands

/-- A definition is recursive afterwards if it was before. -/
theorem Cte.exchange_isRecursive (c : Cte) (columns : List Term) :
    (Cte.mk c.name (c.body.exchange x) columns).isRecursive = c.isRecursive := by
  obtain ⟨name, body, _⟩ := c
  cases body with
  | query q => exact q.exchange_reads x name
  | setOperation s => exact s.exchange_reads x name
  | _ => rfl

end

/-! ## What the clauses of a statement depend on -/

/-- Tables of one name in one place. -/
def Table.SameName (t t' : Table) : Prop := t.name = t'.name ∧ t.slot = t'.slot

/-- The conflict clauses do the same and have the same parts. -/
structure Conflict.SameLayout (c c' : Conflict) : Prop where
  isOpen       : c.isOpen = c'.isOpen
  doNothing    : c.doNothing = c'.doNothing
  fields       : c.fields.isEmpty = c'.fields.isEmpty
  resolutions  : c.resolutions.isEmpty = c'.resolutions.isEmpty
  targetFilter : c.targetFilter.isEmpty = c'.targetFilter.isEmpty
  updateFilter : c.updateFilter.isEmpty = c'.updateFilter.isEmpty

/-- The statements are of one kind, have the same parts and the same names. -/
structure Query.SameLayout (q q' : Query) : Prop where
  dialect         : q.dialect = q'.dialect
  slot            : q.slot = q'.slot
  scope           : q.scope = q'.scope
  isBlank         : q.isBlank = q'.isBlank
  isQualified     : q.isQualified = q'.isQualified
  inserts         : q.inserts = q'.inserts
  deletes         : q.deletes = q'.deletes
  replaces        : q.replaces = q'.replaces
  selectsInto     : q.selectsInto = q'.selectsInto
  distinct        : q.distinct = q'.distinct
  top             : q.top = q'.top
  modifiers       : q.modifiers = q'.modifiers
  forcedIndexes   : q.forcedIndexes = q'.forcedIndexes
  usedIndexes     : q.usedIndexes = q'.usedIndexes
  withTotals      : q.withTotals = q'.withTotals
  withRollup      : q.withRollup = q'.withRollup
  lock            : q.lock = q'.lock
  insertTable     : Option.Rel Table.SameName q.insertTable q'.insertTable
  updateTable     : Option.Rel Table.SameName q.updateTable q'.updateTable
  selectCount     : q.selects.length = q'.selects.length
  selectedAliases : q.selectedAliases = q'.selectedAliases
  rows            : q.rows.isEmpty = q'.rows.isEmpty
  joins           : q.joins.isEmpty = q'.joins.isEmpty
  orderings       : q.orderings.isEmpty = q'.orderings.isEmpty
  isRecursive     : q.ctes.any Cte.isRecursive = q'.ctes.any Cte.isRecursive
  filter          : q.filter.isEmpty = q'.filter.isEmpty
  prefilter       : q.prefilter.isEmpty = q'.prefilter.isEmpty
  groupFilter     : q.groupFilter.isEmpty = q'.groupFilter.isEmpty
  conflict        : q.conflict.SameLayout q'.conflict

/-- A conflict clause keeps all that its writing depends on beside its parts. -/
theorem Conflict.exchange_sameLayout (x : Exchange) (c : Conflict) :
    c.SameLayout (c.exchange x) := by
  obtain ⟨_, fields, _, resolutions, targetFilter, updateFilter⟩ := c
  exact
    { isOpen := rfl
      doNothing := rfl
      fields := (exchangeTerms_isEmpty x fields).symm
      resolutions := (exchangeResolutions_isEmpty x resolutions).symm
      targetFilter := (targetFilter.exchange_isEmpty x).symm
      updateFilter := (updateFilter.exchange_isEmpty x).symm }

/-- The table that is changed keeps its name, its schema and its place. -/
theorem exchangeTarget_sameName (x : Exchange) (t : Option Table) :
    Option.Rel Table.SameName t (exchangeTarget x t) := by
  cases t with
  | none => exact .none
  | some t => cases t; exact .some ⟨rfl, rfl⟩

/-- Exchanging constants leaves a statement its kind, its parts and its names. -/
theorem Query.exchange_sameLayout (x : Exchange) (q : Query) : q.SameLayout (q.exchange x) := by
  -- what is asked of the statement is asked of its lists, and of them only how many parts they
  -- have and how the parts are named
  have hselects := exchangeTerms_isEmpty x q.selects
  have hinsert := exchangeTarget_isSome x q.insertTable
  have hupdate := exchangeTarget_isSome x q.updateTable
  have hrows := exchangeRows_isEmpty x q.rows
  have hassignments := exchangeAssignments_isEmpty x q.assignments
  have hjoins := exchangeJoins_isEmpty x q.joins
  have hlength : (exchangeItems x q.sources).length = q.sources.length := by
    rw [exchangeItems_eq_map, List.length_map]
  have hsources : (exchangeItems x q.sources).isEmpty = q.sources.isEmpty := by
    rw [exchangeItems_eq_map, List.isEmpty_map]
  have hhead : (exchangeItems x q.sources).head?.any FromItem.isQuery
      = q.sources.head?.any FromItem.isQuery := by
    cases q.sources with
    | nil => rfl
    | cons item _ => exact item.exchange_isQuery x
  have hcount : (exchangeTerms x q.selects).length = q.selects.length := by
    rw [exchangeTerms_eq_map, List.length_map]
  have haliases : (exchangeTerms x q.selects).filterMap Term.knownAs
      = q.selects.filterMap Term.knownAs := by
    simp only [exchangeTerms_eq_map, List.filterMap_map, Function.comp_def, Term.exchange_knownAs]
  have hrecursive : (exchangeCtes x q.ctes).any Cte.isRecursive = q.ctes.any Cte.isRecursive := by
    simp only [exchangeCtes_eq_map, List.any_map, Function.comp_def, Cte.exchange_isRecursive]
  cases q
  exact
    { dialect := rfl
      slot := rfl
      scope := rfl
      isBlank := by
        simp only [Query.isBlank]
        simp only [Query.exchange, hselects, hinsert, hupdate, hrows, hassignments]
      isQualified := by
        simp only [Query.isQualified]
        simp only [Query.exchange, hjoins, hlength, hsources, hhead, hupdate]
      inserts := by
        simp only [Query.inserts]
        simp only [Query.exchange, hinsert]
      deletes := rfl
      replaces := rfl
      selectsInto := rfl
      distinct := rfl
      top := rfl
      modifiers := rfl
      forcedIndexes := rfl
      usedIndexes := rfl
      withTotals := rfl
      withRollup := rfl
      lock := rfl
      insertTable := exchangeTarget_sameName x _
      updateTable := exchangeTarget_sameName x _
      selectCount := hcount.symm
      selectedAliases := haliases.symm
      rows := hrows.symm
      joins := hjoins.symm
      orderings := (exchangeOrderings_isEmpty x _).symm
      isRecursive := hrecursive.symm
      filter := (Term.exchange_isEmpty x _).symm
      prefilter := (Term.exchange_isEmpty x _).symm
      groupFilter := (Term.exchange_isEmpty x _).symm
      conflict := Conflict.exchange_sameLayout x _ }

end SqlCompose
