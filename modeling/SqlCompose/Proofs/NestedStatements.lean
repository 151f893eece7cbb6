import SqlCompose.Proofs.ClauseLeaves
import SqlCompose.Term.Build

/-! # Nested statements — which of them stand in parentheses

    A statement that is a term stands in parentheses if it is drafted as a nested part. Every clause
    says for itself whether its terms are. The select list, rows, new values of an UPDATE and all
    criteria do, and so does a test of membership wherever it stands; DISTINCT ON, GROUP BY, ORDER
    BY and the new values of a conflict clause do not, and a statement in them is written bare.

    * `Query.leaves` — the leaves of a statement of any kind, clause by clause.
    * `Leaf.Stands` — the tokens of a nested statement: its inside, in parentheses or not, and what
      stands behind it.
    * `Query.weave_nested` — the tokens of a statement are a text with gaps that are filled by its
      nested statements, each in parentheses or not as its clause says.
    * `Query.leaves_nested` — those without parentheses are all in the four clauses. -/

namespace SqlCompose

open Draft

/-! ## Which leaves are drafted as nested parts -/

namespace Leaf

/-- Whether the leaf is a nested SELECT or the like, or a nested set operation. -/
def isStatement : Leaf → Bool
  | statement _ q => q.isSelection
  | setOperation _ _ => true
  | _ => false

/-- Whether the leaf, if it is a statement, is drafted as a nested one. -/
def isNested : Leaf → Bool
  | statement nested _ => nested
  | setOperation nested _ => nested
  | _ => true

/-- Whether all of the leaves are. -/
def AllNested (xs : List Leaf) : Prop := ∀ x ∈ xs, x.isNested = true

namespace AllNested

variable {xs ys : List Leaf}

theorem nil : AllNested [] := nofun

theorem singleton {x : Leaf} (hx : x.isNested = true) : AllNested [x] := by
  intro y hy
  obtain rfl := List.mem_singleton.mp hy
  exact hx

theorem append (hxs : AllNested xs) (hys : AllNested ys) : AllNested (xs ++ ys) := by
  intro x hx
  rcases List.mem_append.mp hx with h | h
  · exact hxs x h
  · exact hys x h

end AllNested

end Leaf

open Leaf (AllNested)

mutual

/-- All leaves of a nested part are nested. -/
theorem Term.leaves_nested : (t : Term) → AllNested (t.leaves true)
  | ⟨expr, _⟩ => expr.leaves_nested

theorem Expr.leaves_nested : (e : Expr) → AllNested (e.leaves true)
  | .field _ _ => .singleton rfl
  | .star _ => .singleton rfl
  | .tuple items => termLeaves_nested items
  | .array items => termLeaves_nested items
  | .call c => c.leaves_nested
  | .case branches otherwise =>
    (branchLeaves_nested branches).append (optionLeaves_nested otherwise)
  | .arithmetic _ left right => left.leaves_nested.append right.leaves_nested
  | .negative operand => operand.leaves_nested
  | .comparison _ left right => left.leaves_nested.append right.leaves_nested
  | .combination _ left right => left.leaves_nested.append right.leaves_nested
  | .chain _ _ left middle right =>
    (left.leaves_nested.append middle.leaves_nested).append right.leaves_nested
  | .membership operand container _ => operand.leaves_nested.append container.leaves_nested
  | .between operand lower upper =>
    (operand.leaves_nested.append lower.leaves_nested).append upper.leaves_nested
  | .period operand start stop =>
    (operand.leaves_nested.append start.leaves_nested).append stop.leaves_nested
  | .bitAnd operand _ => operand.leaves_nested
  | .isNull operand => operand.leaves_nested
  | .not operand => operand.leaves_nested
  | .all operand => operand.leaves_nested
  | .jsonPath column _ => column.leaves_nested
  | .subquery _ => .singleton rfl
  | .setOperation _ => .singleton rfl
  | .insertedValue field => field.leaves_nested
  | .atTimeZone operand _ _ => operand.leaves_nested
  | .literal _ | .value _ _ | .interval _ | .document _ | .parameter _ | .index _
  | .pseudoColumn _ | .empty => .nil

theorem termLeaves_nested : (ts : List Term) → AllNested (termLeaves true ts)
  | [] => .nil
  | t :: rest => t.leaves_nested.append (termLeaves_nested rest)

theorem optionLeaves_nested : (t : Option Term) → AllNested (optionLeaves true t)
  | none => .nil
  | some t => t.leaves_nested

theorem branchLeaves_nested : (bs : List Branch) → AllNested (branchLeaves true bs)
  | [] => .nil
  | ⟨condition, result⟩ :: rest =>
    (condition.leaves_nested.append result.leaves_nested).append (branchLeaves_nested rest)

theorem Call.leaves_nested : (c : Call) → AllNested (c.leaves true)
  | ⟨_, arguments, _, suffix, bare, _, _, filter, window, _⟩ => by
    have hfirst := (termLeaves_nested arguments).append (suffixLeaves_nested suffix)
    have hall := (hfirst.append (optionLeaves_nested filter)).append (windowLeaves_nested window)
    show AllNested (if _ then _ else _)
    split
    · exact .nil
    · exact hall

theorem suffixLeaves_nested : (s : Option CallSuffix) → AllNested (suffixLeaves true s)
  | none => .nil
  | some (.words _) => .nil
  | some .ignoreNulls => .nil
  | some (.source t) => t.leaves_nested

theorem windowLeaves_nested : (w : Option Window) → AllNested (windowLeaves true w)
  | none => .nil
  | some ⟨partition, orderings⟩ =>
    (termLeaves_nested partition).append (orderingLeaves_nested orderings)

theorem orderingLeaves_nested :
    (os : List Ordering) → AllNested (orderingLeaves true (fun _ => none) os)
  | [] => .nil
  | ⟨term, _⟩ :: rest => by
    have hshort : (term.knownAs.bind fun _ => (none : Option (List Leaf))) = none :=
      Option.bind_fun_none _
    show AllNested ((term.knownAs.bind fun _ => none).getD (term.leaves true) ++ _)
    rw [hshort]
    exact term.leaves_nested.append (orderingLeaves_nested rest)

end

theorem joinLeaves_nested (joins : List Join) : AllNested (joinLeaves joins) := by
  induction joins with
  | nil => exact .nil
  | cons j rest ih =>
    obtain ⟨item, kind, condition⟩ := j
    cases condition with
    | none => exact ih
    | on criterion collation => exact criterion.leaves_nested.append ih
    | «using» fields => exact ih

theorem rowLeaves_nested (rows : List (List Term)) : AllNested (rowLeaves rows) := by
  induction rows with
  | nil => exact .nil
  | cons row rest ih => exact (termLeaves_nested row).append ih

theorem assignmentLeaves_nested (assignments : List Assignment) :
    AllNested (assignmentLeaves assignments) := by
  induction assignments with
  | nil => exact .nil
  | cons a rest ih => exact a.value.leaves_nested.append ih

/-! ## The leaves of a statement -/

namespace Query

/-- The leaves in the clauses of a statement, whatever kind of statement it is. -/
def leaves (n : Naming) (q : Query) : List Leaf :=
  if q.isBlank then []
  else
    match q.updateTable with
    | some _ => q.updateLeaves n
    | none =>
      if q.inserts && !q.rows.isEmpty then rowLeaves q.rows ++ q.resolvedLeaves
      else q.selectionLeaves n ++ q.resolvedLeaves

/-- The leaves in DISTINCT ON, GROUP BY, ORDER BY and the new values of a conflict clause. -/
def bareLeaves (n : Naming) (q : Query) : List Leaf :=
  termLeaves false q.distinctOn ++ q.groupedLeaves n ++ q.orderedLeaves n ++
    resolutionLeaves q.conflict.resolutions

/-- A statement is written around its leaves. -/
theorem draft_around (outer : Context) (q : Query) :
    Around (Leaf.IsWritten (q.innerContext outer)) (q.draft outer)
      (q.leaves (outer.naming.inside q.dialect)) := by
  have hnested : (q.innerContext outer).nested = false := rfl
  show Around _ (Clause.statement outer q q.parts) _
  simp only [Clause.statement, leaves]
  split
  · exact .gap _
  · cases q.updateTable with
    | some table =>
      exact (Clause.update_around hnested table).mono fun _ _ hx => hx.isWritten
    | none =>
      show Around _ (if _ then _ else _) (if _ then _ else _)
      split
      · exact Clause.insertion_around hnested
      · have hinside : Around (Leaf.IsWritten (q.innerContext outer)) (q.inside outer)
            (q.selectionLeaves (outer.naming.inside q.dialect)) :=
          (q.inside_around outer).mono fun _ _ hx => hx.isWritten
        have hresolved := Clause.resolved_around (q := q) hnested
        exact (((hinside.parensIf _).append hresolved).before _).before _

/-- Every leaf of a statement is in one of these clauses or nested. -/
theorem leaves_nested (n : Naming) (q : Query) :
    ∀ x ∈ q.leaves n, x ∈ q.bareLeaves n ∨ x.isNested = true := by
  -- the leaves of each clause are on one of the two sides
  let Sorted (xs : List Leaf) : Prop := ∀ x ∈ xs, x ∈ q.bareLeaves n ∨ x.isNested = true
  have happend : ∀ {xs ys : List Leaf}, Sorted xs → Sorted ys → Sorted (xs ++ ys) := by
    intro xs ys hxs hys x hx
    rcases List.mem_append.mp hx with h | h
    · exact hxs x h
    · exact hys x h
  have hnil : Sorted [] := nofun
  have hnested : ∀ {xs : List Leaf}, AllNested xs → Sorted xs :=
    fun hxs x hx => .inr (hxs x hx)
  have hon : Sorted (termLeaves false q.distinctOn) := fun x hx =>
    .inl (List.mem_append_left _ (List.mem_append_left _ (List.mem_append_left _ hx)))
  have hgroups : Sorted (q.groupedLeaves n) := fun x hx =>
    .inl (List.mem_append_left _ (List.mem_append_left _ (List.mem_append_right _ hx)))
  have horder : Sorted (q.orderedLeaves n) := fun x hx =>
    .inl (List.mem_append_left _ (List.mem_append_right _ hx))
  have hvalues : Sorted (resolutionLeaves q.conflict.resolutions) := fun x hx =>
    .inl (List.mem_append_right _ hx)
  have hjoins := hnested (joinLeaves_nested q.joins)
  have hset := hnested (assignmentLeaves_nested q.assignments)
  have hfilter := hnested q.filter.leaves_nested
  have hprefilter := hnested q.prefilter.leaves_nested
  have hgroupFilter := hnested q.groupFilter.leaves_nested
  have hselected := happend hon (hnested (termLeaves_nested q.selects))
  have hresolved : Sorted q.resolvedLeaves := by
    simp only [resolvedLeaves]
    split
    · exact hnil
    · split
      · exact hvalues
      · split
        · exact hnil
        · refine happend (hnested q.conflict.targetFilter.leaves_nested) ?_
          split
          · exact hnil
          · exact happend hvalues (hnested q.conflict.updateFilter.leaves_nested)
  show Sorted (q.leaves n)
  simp only [leaves]
  split
  · exact hnil
  · cases q.updateTable with
    | some table =>
      show Sorted (q.updateLeaves n)
      simp only [updateLeaves]
      cases q.dialect.updateLayout with
      | standard => exact happend (happend hjoins hset) hfilter
      | trailingOrderLimit => exact happend (happend (happend hjoins hset) hfilter) horder
      | fromAfterSet => exact happend (happend (happend hset hjoins) hfilter) horder
    | none =>
      show Sorted (if _ then _ else _)
      split
      · exact happend (hnested (rowLeaves_nested q.rows)) hresolved
      · have hverb : Sorted (if q.deletes then [] else q.selectedLeaves) := by
          split
          · exact hnil
          · exact hselected
        have hkept := happend (happend (happend hverb hjoins) hprefilter) hfilter
        exact happend (happend (happend (happend hkept hgroups) hgroupFilter) horder) hresolved

end Query

/-! ## The tokens of nested statements -/

/-- The draft of a set operation, without what stands behind its parentheses. -/
def SetOperation.inside (outer : Context) : SetOperation → Draft
  | { base, operands, orderings, limit, offset, .. } =>
    let dialect := base.dialect
    let ctx := { outer with dialect := dialect, identQuote := dialect.identQuote }
    let operandCtx := { ctx with nested := dialect.wrapsOperands }
    let main := base.draft operandCtx
    let byAlias (name : String) : Option Draft :=
      if base.selectedAliases.contains name then some (token (.ident name)) else none
    main ++ operandsDraft operandCtx base.selects.length main operands ++
      Clause.unlessNone [.orderBy] (orderingDrafts ctx byAlias orderings) ++
      dialect.pagination (limit.map fun n => token (.int n)) (offset.map fun n => token (.int n))
        (!orderings.isEmpty)

theorem SetOperation.draft_eq (outer : Context) (s : SetOperation) :
    s.draft outer =
      parensIf outer.nested (s.inside outer) ++ outer.declaration (outer.aliasOf s.slot) := by
  cases s
  rfl

/-- The tokens start with what is written of a draft, between parentheses if the condition holds. -/
def Draft.IsEnclosed (condition : Bool) (inside : Draft) (ts : List Token) : Prop :=
  ∃ (p p' : Parameters) (body rest : List Token),
    inside.finish p = (.ok body, p') ∧ ts = enclosedIf condition body ++ rest

theorem Draft.isEnclosed_of_finish {condition : Bool} {inside behind : Draft} {p p' : Parameters}
    {ts : List Token} (h : (parensIf condition inside ++ behind).finish p = (.ok ts, p')) :
    IsEnclosed condition inside ts := by
  obtain ⟨us, rest, p₁, hus, -, rfl⟩ := finish_append_ok h
  obtain ⟨body, hbody, rfl⟩ := finish_parensIf_ok hus
  exact ⟨p, p₁, body, rest, hbody, rfl⟩

namespace Leaf

/-- The tokens are those of a statement that is nested in a clause of another one: its inside,
    between parentheses if it is drafted as a nested part, and what stands behind it. -/
def Stands (base : Context) : Leaf → List Token → Prop
  | statement nested q, ts => ∃ (ctx : Context) (qualified : Bool),
      ctx.Within { base with qualified := qualified } ∧ ctx.nested = nested ∧
        IsEnclosed nested (q.inside ctx) ts
  | setOperation nested s, ts => ∃ (ctx : Context) (qualified : Bool),
      ctx.Within { base with qualified := qualified } ∧ ctx.nested = nested ∧
        IsEnclosed nested (s.inside ctx) ts
  | _, _ => False

/-- What is written of a nested statement is its tokens. -/
theorem IsWritten.stands {base : Context} {x : Leaf} {d : Draft} (hx : x.IsWritten base d)
    (hstatement : x.isStatement) {p p' : Parameters} {ts : List Token}
    (h : d.finish p = (.ok ts, p')) : x.Stands base ts := by
  obtain ⟨qualified, hx⟩ := hx
  cases x with
  | column name source => exact nomatch hstatement
  | star source => exact nomatch hstatement
  | statement nested q =>
    obtain ⟨ctx, hctx, rfl, rfl⟩ := hx
    rw [Query.draft_of_isSelection hstatement] at h
    exact ⟨ctx, qualified, hctx, rfl, isEnclosed_of_finish h⟩
  | setOperation nested s =>
    obtain ⟨ctx, hctx, rfl, rfl⟩ := hx
    rw [SetOperation.draft_eq] at h
    exact ⟨ctx, qualified, hctx, rfl, isEnclosed_of_finish h⟩

/-- The nested statements among leaves, as they are written. -/
theorem stands_of_gives {base : Context} {xs : List Leaf} {fillings : List (List Token)}
    (h : List.Forall₂ (Around.Gives fun x d => x.isStatement = true ∧ x.IsWritten base d) xs
      fillings) : List.Forall₂ (Stands base) xs fillings := by
  refine h.imp ?_
  rintro x ts ⟨part, p, p', ⟨hstatement, hx⟩, hfinish⟩
  exact hx.stands hstatement hfinish

end Leaf

namespace Query

/-- The nested statements in the clauses of a statement, in the order in which they are written. -/
def nestedStatements (ctx : Context) (q : Query) : List Leaf :=
  (q.leaves (ctx.naming.inside q.dialect)).filter Leaf.isStatement

/-- **Nested statements stand in parentheses, but for four clauses.** Let a statement of any kind be
    written in any context. Its tokens are a text with gaps, and the gaps are filled, from left to
    right, by the statements and set operations that are nested in its clauses. What is written of
    one starts with its inside, in parentheses of its own exactly if it is drafted as a nested part;
    and those that are not are all in DISTINCT ON, in GROUP BY, in ORDER BY or among the new values
    of the conflict clause. -/
theorem weave_nested {q : Query} {ctx : Context} {p p' : Parameters} {ts : List Token}
    (h : (q.draft ctx).finish p = (.ok ts, p')) :
    (∃ segments fillings : List (List Token),
      segments.length = (q.nestedStatements ctx).length + 1 ∧
        List.Forall₂ (Leaf.Stands (q.innerContext ctx)) (q.nestedStatements ctx) fillings ∧
          ts = weave segments fillings) ∧
    ∀ x ∈ q.nestedStatements ctx,
      x ∈ q.bareLeaves (ctx.naming.inside q.dialect) ∨ x.isNested = true := by
  have hleaves := (q.draft_around ctx).filter Leaf.isStatement
  refine ⟨?_, ?_⟩
  · obtain ⟨segments, fillings, hlength, hgives, hts⟩ := hleaves.finish h
    exact ⟨segments, fillings, hlength, Leaf.stands_of_gives hgives, hts⟩
  · intro x hx
    exact q.leaves_nested _ x (List.mem_filter.mp hx).1

/-- A statement as a new value of an UPDATE. -/
theorem weave_nested_update :
    let inner : Query :=
      { Query.start 0 .mysql with
        sources := [.table (.named 1 "u")]
        selects := [.field "x"] }
    let q : Query :=
      { Query.start 2 .mysql with
        updateTable := some (.named 3 "t")
        assignments := [⟨.field "a", .ofQuery inner⟩] }
    let ctx := Context.ofDialect .mysql
    ∃ (before body after : List Token) (inside : Context) (p p' : Parameters),
      ((q.draft ctx).finish {}).1 = .ok (before ++ (.lparen :: (body ++ [.rparen]) ++ after)) ∧
        (inner.inside inside).finish p = (.ok body, p') := by
  intro inner q ctx
  have hstop : (q.draft ctx).stop = none := Option.isNone_iff_eq_none.mp (by decide +kernel)
  have hnested : q.nestedStatements ctx = [.statement true inner] := rfl
  -- the general theorem is applied, not the statement evaluated again
  clear_value q ctx inner
  have h := Draft.finish_of_complete hstop {}
  obtain ⟨⟨segments, fillings, hlength, hstands, hts⟩, -⟩ := weave_nested h
  rw [hnested] at hlength hstands
  obtain ⟨first, last, rfl⟩ := List.length_eq_two.mp hlength
  cases hstands with
  | cons hfilling hnone =>
    cases hnone
    obtain ⟨inside, -, -, -, p, p', body, rest, hbody, rfl⟩ := hfilling
    refine ⟨first, body, rest ++ last, inside, p, p', ?_, hbody⟩
    rw [h, hts]
    exact congrArg (fun ts => Except.ok (first ++ ts)) (List.append_assoc _ rest last)

/-- A statement to sort by is written bare. -/
theorem ordered_by_bare_statement :
    let inner : Query :=
      { Query.start 0 .generic with
        sources := [.table (.named 1 "u")]
        selects := [.field "x"] }
    let q : Query :=
      { Query.start 2 .generic with
        sources := [.table (.named 3 "t")]
        selects := [.field "a"]
        orderings := [⟨.ofQuery inner, none⟩] }
    let ctx := Context.ofDialect .generic
    q.nestedStatements ctx = [.statement false inner] ∧
      ((q.draft ctx).finish {}).1 =
        .ok [.keyword .select, .space, .ident "a", .space, .keyword .from_, .space, .ident "t",
          .space, .keyword .orderBy, .space, .keyword .select, .space, .ident "x", .space,
          .keyword .from_, .space, .ident "u"] := by
  intro inner q ctx
  have hstop : (q.draft ctx).stop = none := Option.isNone_iff_eq_none.mp (by decide +kernel)
  have htokens : Piece.number none 0 (q.draft ctx).pieces =
      [.keyword .select, .space, .ident "a", .space, .keyword .from_, .space, .ident "t", .space,
        .keyword .orderBy, .space, .keyword .select, .space, .ident "x", .space, .keyword .from_,
        .space, .ident "u"] := by decide +kernel
  refine ⟨rfl, ?_⟩
  rw [Draft.finish_of_complete hstop]
  exact congrArg Except.ok htokens

end Query

end SqlCompose
