import SqlCompose.Function.Known
import SqlCompose.Proofs.ReturnedTerms

/-! # Aggregate calls — which of them get into RETURNING

    Nothing that is returned may be an aggregate, and an argument is looked at for that at its top.
    What it is made of is only asked for columns. So an aggregate that is an operand of an
    operation, an argument of another call, a branch of a CASE expression or a part of a criterion
    is returned with the term around it, and no list of arguments is refused for it.

    * `Term.aggregates` — the aggregates in a term, outside of nested statements.
    * `Term.unaggregated` — the term with plain calls in the place of all aggregates.
    * `Term.fieldSources_unaggregated` — its columns are the same, and asked for alike.
    * `Query.returnOne_aggregate`, `Query.returnOne_unaggregated` — what one argument does.
    * `Step.not_isAggregate_newReturns` — no argument that is taken is an aggregate.
    * `Step.aggregates_returned` — the theorem. -/

namespace SqlCompose

/-! ## Aggregates in terms -/

mutual

/-- The names of the aggregates in a term. -/
def Term.aggregates : Term → List String
  | { expr, .. } => expr.aggregates

/-- The names of the aggregates in an expression. -/
def Expr.aggregates : Expr → List String
  | .tuple items | .array items => termAggregates items
  | .call c => c.aggregates
  | .case branches otherwise => branchAggregates branches ++ optionAggregates otherwise
  | .arithmetic _ left right | .comparison _ left right | .combination _ left right =>
    left.aggregates ++ right.aggregates
  | .chain _ _ left middle right => left.aggregates ++ middle.aggregates ++ right.aggregates
  | .membership operand container _ => operand.aggregates ++ container.aggregates
  | .between operand lower upper | .period operand lower upper =>
    operand.aggregates ++ lower.aggregates ++ upper.aggregates
  | .negative operand | .bitAnd operand _ | .isNull operand | .not operand | .all operand
  | .jsonPath operand _ | .insertedValue operand | .atTimeZone operand _ _ => operand.aggregates
  | .literal _ | .value _ _ | .field _ _ | .star _ | .interval _ | .document _ | .parameter _
  | .subquery _ | .setOperation _ | .index _ | .pseudoColumn _ | .empty => []

/-- The names of the aggregates in terms. -/
def termAggregates : List Term → List String
  | [] => []
  | t :: rest => t.aggregates ++ termAggregates rest

/-- The names of the aggregates in the branches of a CASE expression. -/
def branchAggregates : List Branch → List String
  | [] => []
  | { condition, result } :: rest =>
    condition.aggregates ++ result.aggregates ++ branchAggregates rest

/-- The names of the aggregates in a term that may be missing. -/
def optionAggregates : Option Term → List String
  | none => []
  | some t => t.aggregates

/-- The names of the aggregates in a call, its own in front. -/
def Call.aggregates : Call → List String
  | { name, arguments, suffix, aggregate, filter, window, .. } =>
    (if aggregate then [name] else []) ++ termAggregates arguments ++ suffixAggregates suffix ++
      optionAggregates filter ++ windowAggregates window

/-- The names of the aggregates behind the arguments of a call. -/
def suffixAggregates : Option CallSuffix → List String
  | some (.source t) => t.aggregates
  | some (.words _) | some .ignoreNulls | none => []

/-- The names of the aggregates in an OVER clause. -/
def windowAggregates : Option Window → List String
  | none => []
  | some { partition, orderings } => termAggregates partition ++ orderingAggregates orderings

/-- The names of the aggregates in terms to sort by. -/
def orderingAggregates : List Ordering → List String
  | [] => []
  | { term, .. } :: rest => term.aggregates ++ orderingAggregates rest

end

mutual

/-- The term with plain calls in the place of all aggregates. -/
def Term.unaggregated : Term → Term
  | { expr, aliasName } => { expr := expr.unaggregated, aliasName := aliasName }

/-- The expression with plain calls in the place of all aggregates. -/
def Expr.unaggregated : Expr → Expr
  | .tuple items => .tuple (listUnaggregated items)
  | .array items => .array (listUnaggregated items)
  | .call c => .call c.unaggregated
  | .case branches otherwise =>
    .case (branchesUnaggregated branches) (optionUnaggregated otherwise)
  | .arithmetic op left right => .arithmetic op left.unaggregated right.unaggregated
  | .negative operand => .negative operand.unaggregated
  | .comparison op left right => .comparison op left.unaggregated right.unaggregated
  | .combination op left right => .combination op left.unaggregated right.unaggregated
  | .chain first second left middle right =>
    .chain first second left.unaggregated middle.unaggregated right.unaggregated
  | .membership operand container negated =>
    .membership operand.unaggregated container.unaggregated negated
  | .between operand lower upper =>
    .between operand.unaggregated lower.unaggregated upper.unaggregated
  | .period operand start stop =>
    .period operand.unaggregated start.unaggregated stop.unaggregated
  | .bitAnd operand mask => .bitAnd operand.unaggregated mask
  | .isNull operand => .isNull operand.unaggregated
  | .not operand => .not operand.unaggregated
  | .all operand => .all operand.unaggregated
  | .jsonPath column path => .jsonPath column.unaggregated path
  | .insertedValue field => .insertedValue field.unaggregated
  | .atTimeZone operand zone isInterval => .atTimeZone operand.unaggregated zone isInterval
  | .literal sql => .literal sql
  | .value v mayBind => .value v mayBind
  | .field name source => .field name source
  | .star source => .star source
  | .interval i => .interval i
  | .document d => .document d
  | .parameter p => .parameter p
  | .subquery q => .subquery q
  | .setOperation s => .setOperation s
  | .index name => .index name
  | .pseudoColumn name => .pseudoColumn name
  | .empty => .empty

/-- Terms with plain calls in the place of all aggregates. -/
def listUnaggregated : List Term → List Term
  | [] => []
  | t :: rest => t.unaggregated :: listUnaggregated rest

/-- Branches with plain calls in the place of all aggregates. -/
def branchesUnaggregated : List Branch → List Branch
  | [] => []
  | { condition, result } :: rest =>
    { condition := condition.unaggregated, result := result.unaggregated } ::
      branchesUnaggregated rest

/-- A term that may be missing, with plain calls in the place of all aggregates. -/
def optionUnaggregated : Option Term → Option Term
  | none => none
  | some t => some t.unaggregated

/-- The call as a plain one, with plain calls in it. -/
def Call.unaggregated : Call → Call
  | { name, arguments, schema, suffix, bare, distinct, filter, window, frame, .. } =>
    { name, arguments := listUnaggregated arguments, schema,
      suffix := suffixUnaggregated suffix, bare, aggregate := false, distinct,
      filter := optionUnaggregated filter, window := windowUnaggregated window, frame }

/-- What stands behind the arguments of a call, with plain calls in it. -/
def suffixUnaggregated : Option CallSuffix → Option CallSuffix
  | some (.source t) => some (.source t.unaggregated)
  | some (.words text) => some (.words text)
  | some .ignoreNulls => some .ignoreNulls
  | none => none

/-- An OVER clause with plain calls in it. -/
def windowUnaggregated : Option Window → Option Window
  | none => none
  | some { partition, orderings } =>
    some { partition := listUnaggregated partition, orderings := orderingsUnaggregated orderings }

/-- Terms to sort by, with plain calls in them. -/
def orderingsUnaggregated : List Ordering → List Ordering
  | [] => []
  | { term, direction } :: rest =>
    { term := term.unaggregated, direction } :: orderingsUnaggregated rest

end

mutual

/-- Without aggregates there are none. -/
theorem Term.aggregates_unaggregated : (t : Term) → t.unaggregated.aggregates = []
  | ⟨expr, _⟩ => Expr.aggregates_unaggregated expr

/-- An expression without its aggregates has none left. -/
theorem Expr.aggregates_unaggregated : (e : Expr) → e.unaggregated.aggregates = []
  | .tuple items => termAggregates_unaggregated items
  | .array items => termAggregates_unaggregated items
  | .call c => Call.aggregates_unaggregated c
  | .case branches otherwise => by
    show branchAggregates (branchesUnaggregated branches) ++
      optionAggregates (optionUnaggregated otherwise) = []
    rw [branchAggregates_unaggregated branches, optionAggregates_unaggregated otherwise,
      List.append_nil]
  | .arithmetic _ left right | .comparison _ left right | .combination _ left right
  | .membership left right _ => by
    show left.unaggregated.aggregates ++ right.unaggregated.aggregates = []
    rw [left.aggregates_unaggregated, right.aggregates_unaggregated, List.append_nil]
  | .chain _ _ left middle right | .between left middle right | .period left middle right => by
    show left.unaggregated.aggregates ++ middle.unaggregated.aggregates ++
      right.unaggregated.aggregates = []
    rw [left.aggregates_unaggregated, middle.aggregates_unaggregated,
      right.aggregates_unaggregated, List.append_nil, List.append_nil]
  | .negative operand | .bitAnd operand _ | .isNull operand | .not operand | .all operand
  | .jsonPath operand _ | .insertedValue operand | .atTimeZone operand _ _ =>
    operand.aggregates_unaggregated
  | .literal _ | .value _ _ | .field _ _ | .star _ | .interval _ | .document _ | .parameter _
  | .subquery _ | .setOperation _ | .index _ | .pseudoColumn _ | .empty => rfl

theorem termAggregates_unaggregated :
    (ts : List Term) → termAggregates (listUnaggregated ts) = []
  | [] => rfl
  | t :: rest => by
    rw [listUnaggregated, termAggregates, t.aggregates_unaggregated,
      termAggregates_unaggregated rest, List.append_nil]

theorem branchAggregates_unaggregated :
    (bs : List Branch) → branchAggregates (branchesUnaggregated bs) = []
  | [] => rfl
  | ⟨condition, result⟩ :: rest => by
    rw [branchesUnaggregated, branchAggregates, condition.aggregates_unaggregated,
      result.aggregates_unaggregated, branchAggregates_unaggregated rest, List.append_nil,
      List.append_nil]

theorem optionAggregates_unaggregated :
    (t : Option Term) → optionAggregates (optionUnaggregated t) = []
  | none => rfl
  | some t => t.aggregates_unaggregated

/-- Neither has a call. -/
theorem Call.aggregates_unaggregated : (c : Call) → c.unaggregated.aggregates = []
  | ⟨_, arguments, _, suffix, _, _, _, filter, window, _⟩ => by
    simp only [Call.unaggregated, Call.aggregates, termAggregates_unaggregated arguments,
      suffixAggregates_unaggregated suffix, optionAggregates_unaggregated filter,
      windowAggregates_unaggregated window, Bool.false_eq_true, if_false, List.append_nil]

theorem suffixAggregates_unaggregated :
    (s : Option CallSuffix) → suffixAggregates (suffixUnaggregated s) = []
  | none => rfl
  | some (.words _) => rfl
  | some .ignoreNulls => rfl
  | some (.source t) => t.aggregates_unaggregated

theorem windowAggregates_unaggregated :
    (w : Option Window) → windowAggregates (windowUnaggregated w) = []
  | none => rfl
  | some ⟨partition, orderings⟩ => by
    rw [windowUnaggregated, windowAggregates, termAggregates_unaggregated partition,
      orderingAggregates_unaggregated orderings, List.append_nil]

theorem orderingAggregates_unaggregated :
    (os : List Ordering) → orderingAggregates (orderingsUnaggregated os) = []
  | [] => rfl
  | ⟨term, _⟩ :: rest => by
    rw [orderingsUnaggregated, orderingAggregates, term.aggregates_unaggregated,
      orderingAggregates_unaggregated rest, List.append_nil]

end

mutual

/-- The sources that are asked for do not depend on which calls are aggregates. -/
theorem Term.fieldSources_unaggregated : (t : Term) → t.unaggregated.fieldSources = t.fieldSources
  | ⟨expr, _⟩ => Expr.fieldSources_unaggregated expr

/-- Without its aggregates, an expression is checked for the same sources. -/
theorem Expr.fieldSources_unaggregated : (e : Expr) → e.unaggregated.fieldSources = e.fieldSources
  | .tuple items => listFieldSources_unaggregated items
  | .array items => listFieldSources_unaggregated items
  | .call c => Call.fieldSources_unaggregated c
  | .case branches otherwise => by
    show branchFieldSources (branchesUnaggregated branches) ++
      optionFieldSources (optionUnaggregated otherwise) =
        branchFieldSources branches ++ optionFieldSources otherwise
    rw [branchFieldSources_unaggregated branches, optionFieldSources_unaggregated otherwise]
  | .arithmetic _ left right | .comparison _ left right | .combination _ left right
  | .membership left right _ => by
    show left.unaggregated.fieldSources ++ right.unaggregated.fieldSources =
      left.fieldSources ++ right.fieldSources
    rw [left.fieldSources_unaggregated, right.fieldSources_unaggregated]
  | .chain _ _ left middle right | .between left middle right | .period left middle right => by
    show left.unaggregated.fieldSources ++ middle.unaggregated.fieldSources ++
        right.unaggregated.fieldSources =
      left.fieldSources ++ middle.fieldSources ++ right.fieldSources
    rw [left.fieldSources_unaggregated, middle.fieldSources_unaggregated,
      right.fieldSources_unaggregated]
  | .negative operand | .bitAnd operand _ | .isNull operand | .not operand | .all operand
  | .jsonPath operand _ | .insertedValue operand | .atTimeZone operand _ _ =>
    operand.fieldSources_unaggregated
  | .literal _ | .value _ _ | .field _ _ | .star _ | .interval _ | .document _ | .parameter _
  | .subquery _ | .setOperation _ | .index _ | .pseudoColumn _ | .empty => rfl

theorem listFieldSources_unaggregated :
    (ts : List Term) → listFieldSources (listUnaggregated ts) = listFieldSources ts
  | [] => rfl
  | t :: rest => by
    rw [listUnaggregated, listFieldSources, listFieldSources, t.fieldSources_unaggregated,
      listFieldSources_unaggregated rest]

theorem branchFieldSources_unaggregated :
    (bs : List Branch) → branchFieldSources (branchesUnaggregated bs) = branchFieldSources bs
  | [] => rfl
  | ⟨condition, result⟩ :: rest => by
    rw [branchesUnaggregated, branchFieldSources, branchFieldSources,
      condition.fieldSources_unaggregated, result.fieldSources_unaggregated,
      branchFieldSources_unaggregated rest]

theorem optionFieldSources_unaggregated :
    (t : Option Term) → optionFieldSources (optionUnaggregated t) = optionFieldSources t
  | none => rfl
  | some t => t.fieldSources_unaggregated

/-- And so is a call. -/
theorem Call.fieldSources_unaggregated : (c : Call) → c.unaggregated.fieldSources = c.fieldSources
  | ⟨_, arguments, _, suffix, _, _, _, _, _, _⟩ => by
    rw [Call.unaggregated, Call.fieldSources, Call.fieldSources,
      listFieldSources_unaggregated arguments, suffixFieldSources_unaggregated suffix]

theorem suffixFieldSources_unaggregated :
    (s : Option CallSuffix) → suffixFieldSources (suffixUnaggregated s) = suffixFieldSources s
  | none => rfl
  | some (.words _) => rfl
  | some .ignoreNulls => rfl
  | some (.source t) => t.fieldSources_unaggregated

end

namespace Term

/-- There are no aggregates in columns and stars. -/
theorem aggregates_of_isColumn {t : Term} (h : t.isColumn = true) : t.aggregates = [] := by
  obtain ⟨expr, aliasName⟩ := t
  cases expr with
  | field | star => rfl
  | _ => exact nomatch h

/-- Without its aggregates, a term is no aggregate. -/
theorem isAggregate_unaggregated (t : Term) : t.unaggregated.isAggregate = false := by
  obtain ⟨expr, aliasName⟩ := t
  cases expr with
  | call c => cases c; rfl
  | _ => rfl

/-- It is a column if it was. -/
theorem isColumn_unaggregated (t : Term) : t.unaggregated.isColumn = t.isColumn := by
  obtain ⟨expr, aliasName⟩ := t
  cases expr <;> rfl

/-- And it is a star if it was. -/
theorem isStar_unaggregated (t : Term) : t.unaggregated.isStar = t.isStar := by
  obtain ⟨expr, aliasName⟩ := t
  cases expr <;> rfl

end Term

/-! ## One argument -/

namespace Column

/-- Whether the argument is an aggregate. -/
def isAggregate : Column → Bool
  | .name _ => false
  | .term t => t.isAggregate

/-- The argument with plain calls in the place of all aggregates. -/
def unaggregated : Column → Column
  | .name bare => .name bare
  | .term t => .term t.unaggregated

end Column

namespace Query

variable {q r : Query} {c : Column}

/-- The statement without what it returns. -/
def unreturned (q : Query) : Query := { q with returns := [] }

/-- An aggregate is refused. -/
theorem returnOne_aggregate (hc : c.isAggregate = true) :
    q.returnOne c = .error .returningAggregate := by
  cases c with
  | name bare => exact nomatch hc
  | term t =>
    have haggregate : t.isAggregate = true := hc
    have hcolumn : t.isColumn = false := by
      by_contra hne
      simp [Term.isAggregate_of_isColumn (by simpa using hne)] at haggregate
    simp [returnOne, hcolumn, haggregate]

/-- What may be returned does not depend on what is. -/
theorem checkReturned_unreturned (t : Term) (q : Query) :
    q.unreturned.checkReturned t = q.checkReturned t := rfl

/-- Whether an argument is taken, and what it changes besides what is returned, does not depend on
    what is returned already. -/
theorem returnOne_unreturned (q : Query) (c : Column) :
    (q.unreturned.returnOne c).map unreturned = (q.returnOne c).map unreturned := by
  have hcolumn (t : Term) :
      (q.unreturned.returnColumn t).map unreturned = (q.returnColumn t).map unreturned := by
    have hmark : q.unreturned.returnsAll = q.returnsAll := rfl
    simp only [returnColumn, hmark, checkReturned_unreturned]
    split
    · rfl
    · cases q.checkReturned t with
      | error e => rfl
      | ok _ => cases hstar : t.isStar <;> rfl
  -- neither kind of argument is held against what is returned already
  cases c with
  | name bare =>
    have htarget : q.unreturned.targetSource? = q.targetSource? := rfl
    simp only [returnOne, returnName, htarget]
    split
    · rfl
    · split
      · rfl
      · exact hcolumn _
  | term t =>
    simp only [returnOne, checkReturned_unreturned]
    split
    · exact hcolumn t
    · split
      · rfl
      · cases q.checkReturned t <;> rfl

/-- An argument that is no aggregate does the same with plain calls in it, but for what is
    returned. -/
theorem returnOne_unaggregated (q : Query) (hc : c.isAggregate = false) :
    (q.returnOne c.unaggregated).map unreturned = (q.returnOne c).map unreturned := by
  cases c with
  | name bare => rfl
  | term t =>
    have haggregate : t.isAggregate = false := hc
    have hcheck : q.checkReturned t.unaggregated = q.checkReturned t := by
      simp only [checkReturned, t.fieldSources_unaggregated]
    simp only [Column.unaggregated, returnOne, returnColumn, t.isColumn_unaggregated,
      t.isAggregate_unaggregated, t.isStar_unaggregated, haggregate, hcheck]
    cases t.isColumn <;> cases q.returnsAll <;> cases q.checkReturned t <;> cases t.isStar <;> rfl

/-! ## Lists of arguments -/

/-- Arguments that are no aggregates do the same with plain calls in them. -/
theorem returnAll_unaggregated {columns : List Column}
    (hcolumns : ∀ c ∈ columns, c.isAggregate = false) {q' : Query}
    (hq : q'.unreturned = q.unreturned) :
    ((columns.map Column.unaggregated).foldlM returnOne q').map unreturned =
      (columns.foldlM returnOne q).map unreturned := by
  induction columns generalizing q q' with
  | nil => exact congrArg Except.ok hq
  | cons c rest ih =>
    have hc : c.isAggregate = false := hcolumns c List.mem_cons_self
    have hone : (q'.returnOne c.unaggregated).map unreturned = (q.returnOne c).map unreturned := by
      rw [returnOne_unaggregated q' hc, ← returnOne_unreturned q', hq, returnOne_unreturned q]
    rw [List.map_cons, List.foldlM_cons, List.foldlM_cons]
    -- either both lists end here, for the same reason, or both go on in statements that differ in
    -- what is returned alone
    cases htaken : q.returnOne c with
    | error e =>
      cases htaken' : q'.returnOne c.unaggregated with
      | error e' =>
        rw [htaken, htaken'] at hone
        obtain rfl := Except.error.inj hone
        rfl
      | ok r' =>
        rw [htaken, htaken'] at hone
        exact nomatch hone
    | ok r =>
      cases htaken' : q'.returnOne c.unaggregated with
      | error e' =>
        rw [htaken, htaken'] at hone
        exact nomatch hone
      | ok r' =>
        rw [htaken, htaken'] at hone
        exact ih (fun c hc => hcolumns c (List.mem_cons_of_mem _ hc)) (Except.ok.inj hone)

/-- Columns without their aggregates are returned, or refused, as they are with them. -/
theorem returning_unaggregated (q : Query) {columns : List Column}
    (hcolumns : ∀ c ∈ columns, c.isAggregate = false) :
    (q.returning (columns.map Column.unaggregated)).map unreturned =
      (q.returning columns).map unreturned := by
  simp only [returning]
  split
  · exact returnAll_unaggregated hcolumns rfl
  · rfl

/-- An aggregate behind arguments that are taken is why a list of arguments is refused. -/
theorem returning_aggregate {before after : List Column} (hbefore : q.returning before = .ok r)
    (hc : c.isAggregate = true) :
    q.returning (before ++ c :: after) = .error .returningAggregate := by
  simp only [returning] at hbefore ⊢
  split at hbefore
  · next hdialect =>
    rw [if_pos hdialect, List.foldlM_append, hbefore]
    show (r.returnOne c).bind _ = _
    rw [returnOne_aggregate hc]
    rfl
  · cases hbefore

/-- A list of arguments with an aggregate among them is refused, if not for it, then for an argument
    in front of it. -/
theorem returning_refused {columns : List Column} (hmem : c ∈ columns)
    (hc : c.isAggregate = true) : ∃ e, q.returning columns = .error e := by
  obtain ⟨before, after, rfl⟩ := List.append_of_mem hmem
  cases hbefore : q.returning before with
  | ok r => exact ⟨_, returning_aggregate hbefore hc⟩
  | error e =>
    refine ⟨e, ?_⟩
    simp only [returning] at hbefore ⊢
    split at hbefore
    · next hdialect =>
      rw [if_pos hdialect, List.foldlM_append, hbefore]
      rfl
    · next hdialect =>
      rw [if_neg hdialect]
      exact hbefore

end Query

/-! ## Calls -/

namespace Step

variable {s : Step} {steps : List Step} {q r : Query}

/-- A term that is no aggregate is none when tables are put in the place of others. -/
theorem isAggregate_rebound (steps : List Step) (t : Term) :
    (rebound steps t).isAggregate = t.isAggregate := by
  induction steps generalizing t with
  | nil => rfl
  | cons s rest ih =>
    refine (ih (s.rebindTerm t)).trans ?_
    cases s with
    | replaceTable current new => exact Term.isAggregate_replaceTable current new t
    | _ => rfl

/-- A column is an aggregate when it is returned if it was before. -/
theorem isAggregate_returned (source : Option Source) (c : Column) :
    (c.returned source).isAggregate = c.isAggregate := by
  cases c with
  | name bare =>
    simp only [Column.returned]
    split <;> rfl
  | term t => rfl

/-- No argument of a call that succeeds is an aggregate. -/
theorem not_isAggregate_ownReturns (h : s.apply q = .ok r) :
    ∀ t ∈ s.ownReturns q, t.isAggregate = false := by
  intro t ht
  cases s with
  | returning columns =>
    obtain ⟨c, hc, rfl⟩ := List.mem_map.mp ht
    rw [isAggregate_returned]
    cases haggregate : c.isAggregate with
    | false => rfl
    | true =>
      obtain ⟨e, he⟩ := Query.returning_refused (q := q) hc haggregate
      exact nomatch he.symm.trans h
  | _ => exact nomatch ht

/-- No argument of calls that succeed is an aggregate. -/
theorem not_isAggregate_newReturns (h : run q steps = .ok r) :
    ∀ t ∈ newReturns q steps, t.isAggregate = false := by
  induction steps generalizing q with
  | nil => exact nofun
  | cons s rest ih =>
    obtain ⟨q', hs, hrest⟩ := run_cons_ok h
    intro t ht
    rw [newReturns_cons hs] at ht
    rcases List.mem_append.mp ht with hown | hlater
    · obtain ⟨u, hu, rfl⟩ := List.mem_map.mp hown
      rw [isAggregate_rebound]
      exact not_isAggregate_ownReturns hs u hu
    · exact ih hrest t hlater

end Step

namespace Query.Gathers

variable {q : Query} {asked : List Term} {all : Bool}

/-- Only columns and stars are lost, and there are no aggregates in them. -/
theorem aggregates_eq (hq : q.Gathers asked all) :
    q.returns.flatMap Term.aggregates = asked.flatMap Term.aggregates := by
  have hexpressions (ts : List Term) :
      (ts.filter (!·.isColumn)).flatMap Term.aggregates = ts.flatMap Term.aggregates := by
    induction ts with
    | nil => rfl
    | cons t rest ih =>
      cases hcolumn : t.isColumn with
      | true =>
        rw [List.filter_cons_of_neg (by simp [hcolumn]), ih, List.flatMap_cons,
          Term.aggregates_of_isColumn hcolumn, List.nil_append]
      | false =>
        rw [List.filter_cons_of_pos (by simp [hcolumn]), List.flatMap_cons, List.flatMap_cons, ih]
  rw [← hexpressions q.returns, hq.expressions, hexpressions]

/-- What is returned is a column or a star, or was asked for. -/
theorem not_isAggregate (hq : q.Gathers asked all) (hasked : ∀ t ∈ asked, t.isAggregate = false) :
    ∀ t ∈ q.returns, t.isAggregate = false := by
  intro t ht
  cases hcolumn : t.isColumn with
  | true => exact Term.isAggregate_of_isColumn hcolumn
  | false =>
    have hmem : t ∈ q.returns.filter (!·.isColumn) :=
      List.mem_filter.mpr ⟨ht, by simp [hcolumn]⟩
    rw [hq.expressions] at hmem
    exact hasked t (List.mem_of_mem_filter hmem)

end Query.Gathers

/-! ## The theorem -/

namespace Step

/-- **Which aggregates get into RETURNING.** Let calls succeed on an empty statement.
    * Nothing that is returned is an aggregate.
    * The aggregates in what is returned are those in the arguments of the calls, in their order: so
      there is none, at any depth, exactly if there is none in an argument.
    * A list of arguments with an aggregate among them is refused; where all that stands in front of
      it is taken, it is the reason.
    * A list of arguments without an aggregate among them is not looked at for the aggregates in it:
      with plain calls in the place of all of them, it does the same, but for what is returned. -/
theorem aggregates_returned {identity : Identity} {dialect : Dialect} {steps : List Step}
    {q : Query} (h : run (.start identity dialect) steps = .ok q) :
    let asked := newReturns (.start identity dialect) steps
    (∀ t ∈ q.returns, t.isAggregate = false) ∧
    q.returns.flatMap Term.aggregates = asked.flatMap Term.aggregates ∧
    ((∀ t ∈ q.returns, t.aggregates = []) ↔ ∀ t ∈ asked, t.aggregates = []) ∧
    (∀ columns : List Column, ∀ c ∈ columns, c.isAggregate = true →
      (∃ e, q.returning columns = .error e) ∧
      ∀ before after : List Column, columns = before ++ c :: after →
        (∃ r, q.returning before = .ok r) → q.returning columns = .error .returningAggregate) ∧
    (∀ columns : List Column, (∀ c ∈ columns, c.isAggregate = false) →
      (∀ t, Column.term t ∈ columns.map Column.unaggregated → t.aggregates = []) ∧
      (q.returning (columns.map Column.unaggregated)).map Query.unreturned =
        (q.returning columns).map Query.unreturned) := by
  have hq := gathers_run_start h
  refine ⟨hq.not_isAggregate (not_isAggregate_newReturns h), hq.aggregates_eq, ?_, ?_, ?_⟩
  · rw [← List.flatMap_eq_nil_iff, ← List.flatMap_eq_nil_iff, hq.aggregates_eq]
  · intro columns c hmem hc
    refine ⟨Query.returning_refused hmem hc, ?_⟩
    -- the call is refused at the first aggregate, and no later
    rintro before after rfl ⟨r, hbefore⟩
    exact Query.returning_aggregate hbefore hc
  · intro columns hcolumns
    refine ⟨?_, q.returning_unaggregated hcolumns⟩
    intro t ht
    obtain ⟨c, -, hc⟩ := List.mem_map.mp ht
    cases c with
    | name bare => exact nomatch hc
    | term u =>
      obtain rfl := Column.term.inj hc
      exact u.aggregates_unaggregated

/-- A CASE expression with an aggregate in its criterion and one in a branch. -/
theorem aggregates_returned_case :
    let t := Table.named 1 "t"
    let x := Term.column "x" (some (.table t))
    let sum := (Function.sum x).toTerm
    let count := (Function.count x).toTerm
    let chosen : Term := ⟨.case [⟨count.compare .gt (.value (.int 1)), sum⟩] none, none⟩
    let plain : List Column := [.term chosen.unaggregated]
    let steps : List Step := [.into t, .insertRows [[.value (.int 1)]], .returning [.term chosen]]
    ∃ q, run (.start 2 .postgres) steps = .ok q ∧ chosen.isAggregate = false ∧
      q.returns.flatMap Term.aggregates = ["COUNT", "SUM"] ∧
      q.returning [.term x, .term sum] = .error .returningAggregate ∧
      chosen.unaggregated.aggregates = [] ∧
      (q.returning plain).map Query.unreturned =
        (q.returning [.term chosen]).map Query.unreturned := by
  intro t x sum count chosen plain steps
  let q : Query :=
    { Query.start 2 .postgres with
      insertTable := some t
      rows := [[.value (.int 1)]]
      returns := [chosen] }
  have hrun : run (.start 2 .postgres) steps = .ok q := rfl
  obtain ⟨htop, haggregates, -, hrefused, hplain⟩ := aggregates_returned hrun
  obtain ⟨hnone, hsame⟩ := hplain [.term chosen] (by
    intro c hc
    obtain rfl := List.mem_singleton.mp hc
    rfl)
  refine ⟨q, hrun, htop chosen (List.mem_singleton_self chosen), haggregates, ?_,
    hnone _ (List.mem_singleton_self _), hsame⟩
  have hmem : Column.term sum ∈ [Column.term x, Column.term sum] :=
    List.mem_cons_of_mem _ (List.mem_singleton_self _)
  exact (hrefused _ (.term sum) hmem rfl).2 [.term x] [] rfl ⟨_, rfl⟩

/-- Aggregates in RETURNING: as an operand, as an argument of another call, and in a criterion. -/
theorem aggregate_inside_returned :
    let t := Table.named 1 "t"
    let x := Term.column "x" (some (.table t))
    let sum := (Function.sum x).toTerm
    let returned (term : Term) : Except BuildError String :=
      (run (.start 2 .postgres) [.into t, .insertRows [[.value (.int 1)]],
        .returning [.term term]]).bind Query.sql
    returned (.arithmetic .add sum (.value (.int 1))) =
        .ok "INSERT INTO \"t\" VALUES (1) RETURNING SUM(\"x\")+1" ∧
      returned (Function.plain "FLOOR" [sum]).toTerm =
        .ok "INSERT INTO \"t\" VALUES (1) RETURNING FLOOR(SUM(\"x\"))" ∧
      returned sum.isNull = .ok "INSERT INTO \"t\" VALUES (1) RETURNING SUM(\"x\") IS NULL" := by
  decide +kernel

end Step

end SqlCompose
