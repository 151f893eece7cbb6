import SqlCompose.Proofs.Bindings
import SqlCompose.Proofs.Leaves

/-! # Leaves by clause — where the columns and nested statements of a statement are written

    A statement is written around the leaves of the terms in its clauses. Whether these are drafted
    as nested parts is up to the clause: the select list, the rows and new values and all criteria
    ask for it; DISTINCT ON, GROUP BY, ORDER BY and the new values of a conflict clause do not.

    * `Query.selectionLeaves`, `Query.updateLeaves`, `Query.resolvedLeaves` — the leaves of the
      clauses, in the order in which these are written.
    * `Clause.selection_around`, `Clause.update_around` and their like — what is put together by
      clauses is written around their leaves. -/

namespace SqlCompose

open Draft

/-! ## The leaves of clauses -/

/-- The leaves of the first term that goes by this name. -/
def namedLeaves? (name : String) : List Term → Option (List Leaf)
  | [] => none
  | t :: rest => if t.knownAs == some name then some (t.leaves false) else namedLeaves? name rest

/-- The leaves of terms to group by, those that are written in another way excepted. -/
def groupLeaves (short : String → Option (List Leaf)) : List Term → List Leaf
  | [] => []
  | t :: rest => (t.knownAs.bind short).getD (t.leaves false) ++ groupLeaves short rest

/-- The leaves of the criteria of joins. -/
def joinLeaves : List Join → List Leaf
  | [] => []
  | { condition := .on criterion _, .. } :: rest => criterion.leaves true ++ joinLeaves rest
  | _ :: rest => joinLeaves rest

/-- The leaves of rows. -/
def rowLeaves : List (List Term) → List Leaf
  | [] => []
  | row :: rest => termLeaves true row ++ rowLeaves rest

/-- The leaves of the new values of columns. -/
def assignmentLeaves : List Assignment → List Leaf
  | [] => []
  | a :: rest => a.value.leaves true ++ assignmentLeaves rest

/-- The leaves of the new values of columns in a conflict clause. -/
def resolutionLeaves : List Resolution → List Leaf
  | [] => []
  | r :: rest => optionLeaves false r.value ++ resolutionLeaves rest

namespace Query

/-- A selected term that is named by its alias has no leaves. -/
def aliasLeaves? (q : Query) (name : String) : Option (List Leaf) :=
  if q.selectedAliases.contains name then some [] else none

/-- The leaves of GROUP BY. -/
def groupedLeaves (n : Naming) (q : Query) : List Leaf :=
  groupLeaves (fun name => if n.groups then q.aliasLeaves? name else namedLeaves? name q.selects)
    q.groups

/-- The leaves of ORDER BY. -/
def orderedLeaves (n : Naming) (q : Query) : List Leaf :=
  orderingLeaves false (fun name => if n.orders then q.aliasLeaves? name else none) q.orderings

/-- The leaves of what is selected. -/
def selectedLeaves (q : Query) : List Leaf :=
  termLeaves false q.distinctOn ++ termLeaves true q.selects

/-- The leaves of a SELECT, a DELETE or an INSERT of selected rows. -/
def selectionLeaves (n : Naming) (q : Query) : List Leaf :=
  (if q.deletes then [] else q.selectedLeaves) ++ joinLeaves q.joins ++ q.prefilter.leaves true ++
    q.filter.leaves true ++ q.groupedLeaves n ++ q.groupFilter.leaves true ++ q.orderedLeaves n

/-- The leaves of an UPDATE. -/
def updateLeaves (n : Naming) (q : Query) : List Leaf :=
  match q.dialect.updateLayout with
  | .standard => joinLeaves q.joins ++ assignmentLeaves q.assignments ++ q.filter.leaves true
  | .trailingOrderLimit =>
    joinLeaves q.joins ++ assignmentLeaves q.assignments ++ q.filter.leaves true ++
      q.orderedLeaves n
  | .fromAfterSet =>
    assignmentLeaves q.assignments ++ joinLeaves q.joins ++ q.filter.leaves true ++
      q.orderedLeaves n

/-- The leaves of the conflict clause, if it is open. -/
def resolvedLeaves (q : Query) : List Leaf :=
  if !q.conflict.isOpen then []
  else if q.usesDuplicateKey then resolutionLeaves q.conflict.resolutions
  else if !q.conflict.doNothing && q.conflict.resolutions.isEmpty then []
  else
    q.conflict.targetFilter.leaves true ++
      if q.conflict.doNothing then []
      else resolutionLeaves q.conflict.resolutions ++ q.conflict.updateFilter.leaves true

end Query

/-- How a leaf is written in a statement. In a conflict clause columns may be qualified where they
    are not in other clauses, and the other way round. -/
def Leaf.IsWritten (ctx : Context) (x : Leaf) (d : Draft) : Prop :=
  ∃ qualified : Bool, x.Written { ctx with qualified := qualified } d

/-- What is written of a leaf where it stands is written of it there. -/
theorem Leaf.Written.isWritten {ctx : Context} {x : Leaf} {d : Draft} (h : x.Written ctx d) :
    x.IsWritten ctx d := ⟨ctx.qualified, h⟩

/-! ## Parts -/

/-- The parts of a statement, as what is drafted of its lists. -/
theorem Query.parts_eq (q : Query) : q.parts =
    { ctes := fun ctx => cteDrafts ctx q.ctes
      sources := fun ctx => itemDrafts ctx q.sources
      joins := fun ctx => joinDrafts ctx q.joins
      distinctOn := fun ctx => termDrafts ctx q.distinctOn
      selects := fun ctx => termDrafts ctx q.selects
      selected := fun ctx name => namedDraft? ctx name q.selects
      insertTable := fun ctx aliasName => targetDraft ctx aliasName q.insertTable
      updateTable := fun ctx aliasName => targetDraft ctx aliasName q.updateTable
      columns := fun ctx => termDrafts ctx q.columns
      rows := fun ctx => rowDrafts ctx q.rows
      assignments := fun ctx => assignmentDrafts ctx q.assignments
      prefilter := fun ctx => q.prefilter.draft ctx
      filter := fun ctx => q.filter.draft ctx
      groups := fun ctx short => groupDrafts ctx short q.groups
      groupFilter := fun ctx => q.groupFilter.draft ctx
      orderings := fun ctx short => orderingDrafts ctx short q.orderings
      conflict := q.conflict.parts
      returns := fun ctx => termDrafts ctx q.returns } := by
  cases q
  rfl

/-- The parts of a conflict clause, as what is drafted of its lists. -/
theorem Conflict.parts_eq (c : Conflict) : c.parts =
    { fields := fun ctx => termDrafts ctx c.fields
      resolutions := fun columnCtx valueCtx inserted =>
        resolutionDrafts columnCtx valueCtx inserted c.resolutions
      targetFilter := fun ctx => c.targetFilter.draft ctx
      updateFilter := fun ctx => c.updateFilter.draft ctx } := by
  cases c
  rfl

section

variable {base ctx : Context} (hc : ctx.Within base)
include hc

/-- The draft that a name is short for is around the leaves of the term behind it. -/
theorem namedDraft_around (hnested : ctx.nested = false) (name : String) (ts : List Term) :
    Option.Rel (Around (Leaf.Written base)) (namedDraft? ctx name ts) (namedLeaves? name ts) := by
  induction ts with
  | nil => exact .none
  | cons t rest ih =>
    have ht := Term.draft_around_of_nested hc hnested t
    show Option.Rel _ (if _ then _ else _) (if _ then _ else _)
    split
    · exact .some ht
    · exact ih

/-- Terms to group by are around their leaves, or around those of what they are short for. -/
theorem groupDrafts_around (hnested : ctx.nested = false) {short : String → Option Draft}
    {short' : String → Option (List Leaf)} (hs : ShortAround base short short') (ts : List Term) :
    AroundAll (Leaf.Written base) (groupDrafts ctx short ts) (groupLeaves short' ts) := by
  induction ts with
  | nil => exact .nil
  | cons t rest ih =>
    exact .cons (hs.getD (Term.draft_around_of_nested hc hnested t) t.knownAs) ih

/-- Joins are around the leaves of their items and conditions. -/
theorem joinDrafts_around (joins : List Join) :
    AroundAll (Leaf.Written base) (joinDrafts ctx joins) (joinLeaves joins) := by
  have hnested : Context.Within { ctx with nested := true } base := hc
  induction joins with
  | nil => exact .nil
  | cons j rest ih =>
    obtain ⟨item, kind, condition⟩ := j
    cases condition with
    | none => exact .cons (.gap _) ih
    | on criterion collation =>
      have hcriterion := (Term.draft_around hnested criterion).clause [.on]
      exact .cons ((hcriterion.before _).behind _) ih
    | «using» fields => exact .cons (.gap _) ih

/-- Rows are around the leaves of their values. -/
theorem rowDrafts_around (rows : List (List Term)) :
    AroundAll (Leaf.Written base) (rowDrafts { ctx with nested := true, declares := true } rows)
      (rowLeaves rows) := by
  have hnested : Context.Within { ctx with nested := true, declares := true } base := hc
  induction rows with
  | nil => exact .nil
  | cons row rest ih => exact .cons (termDrafts_around hnested row).commas.parens ih

/-- What is assigned is around its leaves. -/
theorem assignmentDrafts_around (assignments : List Assignment) :
    AroundAll (Leaf.Written base) (assignmentDrafts ctx assignments)
      (assignmentLeaves assignments) := by
  have hnested : Context.Within { ctx with nested := true } base := hc
  induction assignments with
  | nil => exact .nil
  | cons a rest ih =>
    obtain ⟨field, value⟩ := a
    exact .cons ((Term.draft_around hnested value).behind _) ih

/-- What is assigned because of a conflict is around the leaves of the values. -/
theorem resolutionDrafts_around (hnested : ctx.nested = false) (columnCtx : Context)
    (inserted : Draft → Draft) (resolutions : List Resolution) :
    AroundAll (Leaf.Written base) (resolutionDrafts columnCtx ctx inserted resolutions)
      (resolutionLeaves resolutions) := by
  induction resolutions with
  | nil => exact .nil
  | cons r rest ih =>
    obtain ⟨field, value⟩ := r
    cases value with
    | none => exact .cons (.gap _) ih
    | some t => exact .cons ((Term.draft_around_of_nested hc hnested t).behind _) ih

end

/-! ## Clauses -/

namespace Clause

variable {ctx : Context} {q : Query}

/-- A criterion is always drafted as a nested part, and left out only if it has no leaves. -/
theorem criterion_around (ctx : Context) (k : Keyword) (t : Term) :
    Around (Leaf.Written ctx) (criterion ctx k t fun ctx => t.draft ctx) (t.leaves true) := by
  have hnested : Context.Within { ctx with nested := true } ctx := .refl ctx
  have hwritten := (Term.draft_around hnested t).clause [k]
  refine hwritten.whenever ?_
  intro hskip
  exact t.leaves_of_isEmpty (by simpa using hskip) true

/-- An alias that is named has no leaves. -/
theorem aliasOf_around (ctx : Context) (q : Query) (name : String) :
    Option.Rel (Around (Leaf.Written ctx)) (aliasOf? q name) (q.aliasLeaves? name) := by
  simp only [aliasOf?, Query.aliasLeaves?]
  split
  · exact .some (.gap _)
  · exact .none

theorem joined_around (ctx : Context) (q : Query) :
    Around (Leaf.Written ctx) (joined ctx q.parts) (joinLeaves q.joins) := by
  rw [q.parts_eq]
  have hjoins := joinDrafts_around (.refl ctx) q.joins
  exact hjoins.whenAny (hjoins.join.behind _)

theorem filtered_around (ctx : Context) (q : Query) :
    Around (Leaf.Written ctx) (filtered ctx q q.parts) (q.filter.leaves true) := by
  rw [q.parts_eq]
  exact criterion_around ctx .where_ q.filter

theorem grouped_around (hnested : ctx.nested = false) :
    Around (Leaf.Written ctx) (grouped ctx q q.parts) (q.groupedLeaves ctx.naming) := by
  rw [q.parts_eq]
  have hshort : ShortAround ctx
      (fun name => if ctx.groupByAlias then aliasOf? q name else namedDraft? ctx name q.selects)
      (fun name => if ctx.naming.groups then q.aliasLeaves? name
        else namedLeaves? name q.selects) := by
    intro name
    show Option.Rel _ _ (if ctx.groupByAlias then _ else _)
    split
    · exact aliasOf_around ctx q name
    · exact namedDraft_around (.refl ctx) hnested name q.selects
  have hgroups := groupDrafts_around (.refl ctx) hnested hshort q.groups
  exact hgroups.ifAny (((hgroups.commas.clause [.groupBy]).before _).before _)

theorem ordered_around (hnested : ctx.nested = false) :
    Around (Leaf.Written ctx) (ordered ctx q q.parts) (q.orderedLeaves ctx.naming) := by
  rw [q.parts_eq]
  have hshort : ShortAround ctx (fun name => if ctx.orderByAlias then aliasOf? q name else none)
      (fun name => if ctx.naming.orders then q.aliasLeaves? name else none) := by
    intro name
    show Option.Rel _ _ (if ctx.orderByAlias then _ else _)
    split
    · exact aliasOf_around ctx q name
    · exact .none
  have horderings := orderingDrafts_around (.refl ctx) hshort q.orderings
  rw [hnested] at horderings
  exact horderings.unlessNone [.orderBy]

theorem selecting_around (hnested : ctx.nested = false) :
    Around (Leaf.Written ctx) (selecting ctx q q.parts) q.selectedLeaves := by
  rw [q.parts_eq]
  have honCtx : Context.Within { ctx with declares := true } ctx := .refl ctx
  have hlistCtx : Context.Within { ctx with nested := true, declares := true } ctx := .refl ctx
  have hon : AroundAll (Leaf.Written ctx) (termDrafts { ctx with declares := true } q.distinctOn)
      (termLeaves ctx.nested q.distinctOn) := termDrafts_around honCtx q.distinctOn
  have hbare : termLeaves ctx.nested q.distinctOn = termLeaves false q.distinctOn := by rw [hnested]
  rw [hbare] at hon
  have hlist := (termDrafts_around hlistCtx q.selects).commas
  -- DISTINCT without terms has no leaves, and there are no terms
  have hdistinct : Around (Leaf.Written ctx)
      (if !(termDrafts { ctx with declares := true } q.distinctOn).isEmpty then
        words [.distinct, .on] ++
          parens (commas (termDrafts { ctx with declares := true } q.distinctOn)) ++ space
      else when q.distinct (word .distinct ++ space)) (termLeaves false q.distinctOn) := by
    split
    · exact (hon.commas.parens.behind _).before _
    · next hnone =>
      rw [hon.eq_nil (by simpa using hnone)]
      exact .gap _
  exact ((((hdistinct.before _).before _).behind _).append hlist).before _

/-- A SELECT, a DELETE or an INSERT of selected rows is written around its leaves. -/
theorem selection_around (hnested : ctx.nested = false) :
    Around (Leaf.Written ctx) (selection ctx q q.parts) (q.selectionLeaves ctx.naming) := by
  have hverb : Around (Leaf.Written ctx)
      (if q.deletes then word .delete
      else when q.inserts (inserting ctx q q.parts ++ space) ++ selecting ctx q q.parts)
      (if q.deletes then [] else q.selectedLeaves) := by
    split
    · exact .gap _
    · exact (selecting_around hnested).behind _
  have hprior : Around (Leaf.Written ctx) (criterion ctx .prewhere q.prefilter q.parts.prefilter)
      (q.prefilter.leaves true) := by
    rw [q.parts_eq]
    exact criterion_around ctx .prewhere q.prefilter
  have hgroup : Around (Leaf.Written ctx) (criterion ctx .having q.groupFilter q.parts.groupFilter)
      (q.groupFilter.leaves true) := by
    rw [q.parts_eq]
    exact criterion_around ctx .having q.groupFilter
  have hread := (((hverb.behind (withs ctx q q.parts)).before (from_ ctx q.parts [])).before
    (indexHint .force q.forcedIndexes)).before (indexHint .use q.usedIndexes)
  have hkept := ((hread.append (joined_around ctx q)).append hprior).append (filtered_around ctx q)
  exact ((((hkept.append (grouped_around hnested)).append hgroup).append
    (ordered_around hnested)).before _).before _

/-- An UPDATE is written around its leaves, in the order of its dialect. -/
theorem update_around (hnested : ctx.nested = false) (table : Table) :
    Around (Leaf.Written ctx) (update ctx q table q.parts) (q.updateLeaves ctx.naming) := by
  have hset : Around (Leaf.Written ctx) (clause [.set] (commas (q.parts.assignments ctx)))
      (assignmentLeaves q.assignments) := by
    rw [q.parts_eq]
    exact (assignmentDrafts_around (.refl ctx) q.assignments).commas.clause [.set]
  have hjoined := joined_around ctx q
  have hfiltered := filtered_around ctx q
  have hordered := ordered_around hnested (q := q)
  refine Around.before (Around.behind _ ?_) _
  simp only [Query.updateLeaves]
  cases q.dialect.updateLayout with
  | standard => exact ((hjoined.append hset).before _).append hfiltered
  | trailingOrderLimit =>
    exact ((((hjoined.append hset).before _).append hfiltered).append hordered).before _
  | fromAfterSet =>
    exact ((((hset.before _).append hjoined).append hfiltered).append hordered).before _

/-- A conflict clause is written around its leaves. -/
theorem resolved_around (hnested : ctx.nested = false) :
    Around (Leaf.IsWritten ctx) (resolved ctx q q.parts) q.resolvedLeaves := by
  have hvalues : ∀ (qualified : Bool) (columnCtx : Context) (inserted : Draft → Draft),
      AroundAll (Leaf.IsWritten ctx)
        (resolutionDrafts columnCtx { ctx with qualified := qualified } inserted
          q.conflict.resolutions) (resolutionLeaves q.conflict.resolutions) := by
    intro qualified columnCtx inserted
    have hvalue : Context.nested { ctx with qualified := qualified } = false := hnested
    have hdrafts := resolutionDrafts_around (.refl _) hvalue columnCtx inserted
      q.conflict.resolutions
    exact hdrafts.mono fun _ _ hx => ⟨qualified, hx⟩
  have hcriterion : ∀ (qualified : Bool) (t : Term),
      Around (Leaf.IsWritten ctx)
        (criterion { ctx with qualified := qualified } .where_ t fun ctx => t.draft ctx)
        (t.leaves true) := by
    intro qualified t
    exact (criterion_around _ .where_ t).mono fun _ _ hx => ⟨qualified, hx⟩
  rw [q.parts_eq]
  simp only [resolved, Query.resolvedLeaves]
  -- without an open clause nothing is written, and MySQL writes no filter
  split
  · exact .gap _
  · split
    · simp only [onDuplicateKey, q.conflict.parts_eq]
      exact ((hvalues false _ _).unlessNone _).behind _
    · simp only [onConflict, q.conflict.parts_eq]
      split
      · split
        · exact .gap _
        · exact .fail _
      · split
        · exact .fail _
        · refine Around.append
            (Around.behind _ (hcriterion ctx.qualified q.conflict.targetFilter)) ?_
          split
          · exact .gap _
          · exact ((hvalues true _ _).commas.clause _).append
              (hcriterion true q.conflict.updateFilter)

/-- An INSERT of rows is written around its rows, and so is what it does about conflicts. -/
theorem insertion_around (hnested : ctx.nested = false) :
    Around (Leaf.IsWritten ctx) (insertion ctx q q.parts)
      (rowLeaves q.rows ++ q.resolvedLeaves) := by
  have hrows : Around (Leaf.IsWritten ctx)
      (clause [.values] (commas (q.parts.rows { ctx with nested := true, declares := true })))
      (rowLeaves q.rows) := by
    rw [q.parts_eq]
    have hdrafts := rowDrafts_around (.refl ctx) q.rows
    exact (hdrafts.commas.clause [.values]).mono fun _ _ hx => hx.isWritten
  exact ((hrows.behind _).append (resolved_around hnested)).before _

end Clause

/-! ## Statements -/

namespace Query

/-- Whether the statement is written as a SELECT, a DELETE or an INSERT of selected rows. -/
def isSelection (q : Query) : Bool :=
  !q.isBlank && q.updateTable.isNone && !(q.inserts && !q.rows.isEmpty)

/-- The context of the statement's clauses, inside other builders. -/
def innerContext (outer : Context) (q : Query) : Context :=
  q.clauseContext { outer with scope := outer.scope.enter q.scope }

/-- The draft of such a statement, without what stands behind its parentheses. -/
def inside (outer : Context) (q : Query) : Draft :=
  Clause.selection (q.innerContext outer) q q.parts

/-- What stands behind the parentheses of such a statement. -/
def behind (outer : Context) (q : Query) : Draft :=
  Clause.resolved (q.innerContext outer) q q.parts ++
    (outer.declaration ((outer.scope.enter q.scope).resolve q.slot) ++
      Clause.returned (q.innerContext outer) q q.parts)

/-- Such a statement, put together from any parts. -/
theorem statement_of_isSelection {q : Query} (h : q.isSelection = true) (outer : Context)
    (p : Parts) :
    Clause.statement outer q p =
      parensIf outer.nested (Clause.selection (q.innerContext outer) q p) ++
        (Clause.resolved (q.innerContext outer) q p ++
          (outer.declaration ((outer.scope.enter q.scope).resolve q.slot) ++
            Clause.returned (q.innerContext outer) q p)) := by
  simp only [isSelection, Bool.and_eq_true, Bool.not_eq_true', Option.isNone_iff_eq_none] at h
  obtain ⟨⟨hblank, hupdate⟩, hrows⟩ := h
  simp only [Clause.statement, hblank, hupdate, hrows, Bool.false_eq_true, if_false]
  rw [Draft.append_assoc, Draft.append_assoc]
  rfl

theorem draft_of_isSelection {q : Query} (h : q.isSelection = true) (outer : Context) :
    q.draft outer = parensIf outer.nested (q.inside outer) ++ q.behind outer :=
  statement_of_isSelection h outer q.parts

/-- Without a conflict clause and without RETURNING, only the alias stands behind the
    parentheses. -/
theorem behind_of_silent {q : Query} (hclosed : q.conflict.isOpen = false)
    (hsilent : q.returns = [])
    (outer : Context) :
    q.behind outer = outer.declaration ((outer.scope.enter q.scope).resolve q.slot) := by
  have hresolved : Clause.resolved (q.innerContext outer) q q.parts = empty := by
    rw [Clause.resolved, hclosed]
    rfl
  have hreturned : Clause.returned (q.innerContext outer) q q.parts = empty := by
    rw [Clause.returned, q.parts_eq, hsilent]
    rfl
  rw [behind, hresolved, hreturned, append_empty]
  rfl

theorem inside_around (outer : Context) (q : Query) :
    Around (Leaf.Written (q.innerContext outer)) (q.inside outer)
      (q.selectionLeaves (outer.naming.inside q.dialect)) :=
  Clause.selection_around rfl

end Query

end SqlCompose
