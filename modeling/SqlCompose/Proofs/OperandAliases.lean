import SqlCompose.Proofs.DeclaredAliases
import SqlCompose.Proofs.OuterWords

/-! # Aliases of operands — what a set operation that is asked for its alias writes

    A set operation in FROM, in a join or in a select list is asked for its alias. It hands the
    request on to its statements and to the terms that it is sorted by, and each of these answers
    with its own alias, be it set on it or given by a builder around it.

    * `Query.operandAlias` — the alias that a statement answers with.
    * `Query.beforeAlias`, `Query.behindAlias` — what is written of it before the alias and behind
      it.
    * `SetOperation.draft_asked`, `SetOperation.draft_unasked` — where the aliases stand.
    * `SetOperation.draft_shows_behind` — the set operation that is asked against one that is not.
    * `SetOperation.alias_of_asked` — the theorem. -/

namespace SqlCompose

open Draft

/-! ## Statements around their alias -/

namespace Query

/-- The alias that a statement writes on request: the name of a SELECT or the like in the scope
    around it, none for an UPDATE and an INSERT of rows. -/
def operandAlias (scope : Scope) (q : Query) : Option String :=
  if q.isSelection then (scope.enter q.scope).resolve q.slot else none

/-- What is written of a statement before the alias. -/
def beforeAlias (ctx : Context) (q : Query) : Draft :=
  if q.isSelection then
    parensIf ctx.nested (q.inside ctx) ++ Clause.resolved (q.innerContext ctx) q q.parts
  else q.draft { ctx with declares := false }

/-- What is written of a statement behind the alias. -/
def behindAlias (ctx : Context) (q : Query) : Draft :=
  if q.isSelection then Clause.returned (q.innerContext ctx) q q.parts else empty

theorem declared_eq (scope : Scope) (q : Query) :
    q.declared scope = declaredNames (q.operandAlias scope) := by
  simp only [declared, operandAlias]
  split <;> rfl

/-- A statement is written around its alias, and without a request the alias alone is missing. -/
theorem draft_around_alias (ctx : Context) (q : Query) :
    q.draft ctx =
      q.beforeAlias ctx ++ (ctx.declaration (q.operandAlias ctx.scope) ++ q.behindAlias ctx) := by
  cases hselection : q.isSelection with
  | true =>
    simp only [beforeAlias, operandAlias, behindAlias, hselection, if_true]
    rw [draft_of_isSelection hselection, append_assoc]
    rfl
  | false =>
    have hdraft := draft_of_not_isSelection hselection
    simp only [beforeAlias, operandAlias, behindAlias, hselection, Bool.false_eq_true, if_false]
    rw [ctx.declaration_none, empty_append, append_empty, hdraft, hdraft]
    rfl

end Query

/-! ## Set operations around the aliases of their statements -/

namespace SetOperation

variable {s : SetOperation}

/-- With the request, every statement is written around its alias, and the set operation has its own
    one at its end. -/
theorem draft_asked (hfits : ∀ o ∈ s.operands, s.Fits o) (ctx : Context) :
    s.draft { ctx with declares := true } =
      parensIf ctx.nested
          ((s.chained fun q => q.beforeAlias (s.operandContext ctx) ++
            (ctx.aliasDraft (q.operandAlias ctx.scope) ++ q.behindAlias (s.operandContext ctx))) ++
          s.tail { ctx with declares := true }) ++
        ctx.aliasDraft (ctx.aliasOf s.slot) := by
  rw [draft_eq_tail hfits]
  simp only [Query.draft_around_alias]
  rfl

/-- Without it, none of these aliases is written. -/
theorem draft_unasked (hfits : ∀ o ∈ s.operands, s.Fits o) (ctx : Context) :
    s.draft { ctx with declares := false } =
      parensIf ctx.nested
          ((s.chained fun q => q.beforeAlias (s.operandContext ctx) ++
            q.behindAlias (s.operandContext ctx)) ++
          s.tail { ctx with declares := false }) := by
  rw [draft_eq_tail hfits]
  simp only [Query.draft_around_alias]
  exact append_empty _

/-- The terms to sort by answer the request with their own aliases. -/
theorem tail_shows (ctx : Context) (s : SetOperation) :
    Shows (orderingsShown ctx.scope s.base.selectedAliases s.orderings)
      (s.tail { ctx with declares := true }) (s.tail { ctx with declares := false }) := by
  have hnamed (name : String) :
      (s.byAlias name).isSome = s.base.selectedAliases.contains name := by
    simp only [byAlias]
    split
    · next h => exact h.symm
    · next h => simpa using h
  have hsorted := orderingDrafts_shows (s.orderContext ctx) hnamed s.orderings
  exact (hsorted.unlessNone [.orderBy]).before _

/-- What the set operation shows besides its own alias are the aliases of its statements, in their
    order, and those of the terms that it is sorted by. -/
theorem shownInside_eq (scope : Scope) (s : SetOperation) :
    s.shownInside scope =
      s.statements.flatMap (fun q => declaredNames (q.operandAlias scope)) ++
        orderingsShown scope s.base.selectedAliases s.orderings := by
  obtain ⟨base, operands, orderings, limit, offset, slot⟩ := s
  show base.declared scope ++ operands.flatMap (fun o => o.query.declared scope) ++ _ = _
  simp only [Query.declared_eq, statements, List.flatMap_cons, List.flatMap_map]

/-- With the request, a set operation is what it is without it, its own alias behind that, and the
    aliases that it shows besides. -/
theorem draft_shows_behind (ctx : Context) (s : SetOperation) :
    Shows (s.shownInside ctx.scope) (s.draft { ctx with declares := true })
      (s.draft { ctx with declares := false } ++ ctx.aliasDraft (ctx.aliasOf s.slot)) := by
  have hinside := (s.inside_shows ctx).parensIf ctx.nested
  have hunasked : s.draft { ctx with declares := false } =
      parensIf ctx.nested (s.inside { ctx with declares := false }) := by
    rw [s.draft_eq]
    exact append_empty _
  rw [hunasked, s.draft_eq]
  exact hinside.before _

/-! ## The theorem -/

/-- The set operation that is asked for its alias is written as it is written unasked, with its own
    alias behind: the tokens, the bound values and the reason to stop are the same. -/
def AddsOwnAlias (ctx : Context) (s : SetOperation) : Prop :=
  ∀ p : Parameters,
    (s.draft { ctx with declares := true }).finish p =
      (s.draft { ctx with declares := false } ++ ctx.aliasDraft (ctx.aliasOf s.slot)).finish p

/-- **What a set operation that is asked for its alias writes.** Let a set operation, of any
    statements, be asked for its alias in any context, with any names given by builders around it.
    * Where no statement has an alias to answer with and no term to sort by shows one, its own alias
      is all that is added.
    * If it is written to its end, this is so only there: each alias of a statement and each that is
      shown by a term to sort by is written besides.
    * If its statements fit together, every alias stands behind its statement, between it and its
      RETURNING clause or the next operator; nothing else of the statements depends on the
      request. -/
theorem alias_of_asked (ctx : Context) (s : SetOperation) :
    let names := s.statements.flatMap fun q => declaredNames (q.operandAlias ctx.scope)
    let sorted := orderingsShown ctx.scope s.base.selectedAliases s.orderings
    let operandCtx := s.operandContext ctx
    let unasked := s.draft { ctx with declares := false }
    (names = [] → sorted = [] → s.AddsOwnAlias ctx) ∧
    (unasked.stop = none →
      (s.draft { ctx with declares := true }).aliases.Perm
          (unasked.aliases ++ declaredNames (ctx.aliasOf s.slot) ++ (names ++ sorted)) ∧
        (s.AddsOwnAlias ctx ↔ names = [] ∧ sorted = [])) ∧
    ((∀ o ∈ s.operands, s.Fits o) →
      s.draft { ctx with declares := true } =
          parensIf ctx.nested
              ((s.chained fun q => q.beforeAlias operandCtx ++
                (ctx.aliasDraft (q.operandAlias ctx.scope) ++ q.behindAlias operandCtx)) ++
              s.tail { ctx with declares := true }) ++
            ctx.aliasDraft (ctx.aliasOf s.slot) ∧
        unasked =
          parensIf ctx.nested
            ((s.chained fun q => q.beforeAlias operandCtx ++ q.behindAlias operandCtx) ++
              s.tail { ctx with declares := false }) ∧
        Shows sorted (s.tail { ctx with declares := true })
          (s.tail { ctx with declares := false })) := by
  intro names sorted operandCtx unasked
  have hshows := s.draft_shows_behind ctx
  rw [s.shownInside_eq] at hshows
  have hnone : names ++ sorted = [] ↔ names = [] ∧ sorted = [] := List.append_eq_nil_iff
  -- nothing is added besides the alias, something may be, and what the operands add
  refine ⟨?_, ?_, ?_⟩
  · intro hnames hsorted p
    exact hshows.finish_eq (hnone.mpr ⟨hnames, hsorted⟩) p
  · intro hstop
    have hbehind : (unasked ++ ctx.aliasDraft (ctx.aliasOf s.slot)).stop = none :=
      complete_append hstop (ctx.complete_aliasDraft _)
    refine ⟨?_, ?_⟩
    · have hperm := hshows.aliases hbehind
      rwa [aliases_append hstop, ctx.aliases_aliasDraft] at hperm
    · rw [← hnone]
      exact ⟨fun hadds => (hshows.finish_iff hbehind {}).mp (hadds {}),
        fun h p => hshows.finish_eq h p⟩
  · intro hfits
    exact ⟨draft_asked hfits ctx, draft_unasked hfits ctx, s.tail_shows ctx⟩

/-- A union without aliases of its statements, under an alias that it writes on request. -/
theorem alias_of_asked_union :
    let select (identity : Identity) (name : String) : Query :=
      { Query.start identity .generic with
        sources := [.table (.named 1 name)]
        selects := [.field "x"] }
    let s := ((select 2 "a").combine 3 .union (select 4 "b")).withAlias 5 (some "u")
    let ctx := { Context.ofDialect .generic with nested := true }
    (s.draft { ctx with declares := true }).text ctx =
        .ok "((SELECT \"x\" FROM \"a\") UNION (SELECT \"x\" FROM \"b\")) \"u\"" ∧
      s.AddsOwnAlias ctx := by
  intro select s ctx
  exact ⟨by decide +kernel, (alias_of_asked ctx s).1 rfl rfl⟩

/-- The aliases of two statements stand between them and behind them once the union is asked for its
    own alias, as a source of a statement too. -/
theorem operand_aliases_written :
    let select (identity : Identity) (name aliasName : String) : Query :=
      { Query.start identity .generic with
        slot := ⟨identity, some aliasName⟩
        sources := [.table (.named 1 name)]
        selects := [.field "x"] }
    let s := ((select 2 "a" "p").combine 3 .union (select 4 "b" "q")).withAlias 5 (some "u")
    let ctx := Context.ofDialect .generic
    let around : Query :=
      { Query.start 6 .generic with
        sources := [.setOperation s]
        selects := [.column "x" (some (.derived s.slot))] }
    (s.draft ctx).text ctx = .ok "(SELECT \"x\" FROM \"a\") UNION (SELECT \"x\" FROM \"b\")" ∧
      (s.draft { ctx with declares := true }).text ctx =
        .ok "(SELECT \"x\" FROM \"a\") \"p\" UNION (SELECT \"x\" FROM \"b\") \"q\" \"u\"" ∧
      ¬ s.AddsOwnAlias ctx ∧
      around.sql = .ok ("SELECT \"u\".\"x\" FROM " ++
        "((SELECT \"x\" FROM \"a\") \"p\" UNION (SELECT \"x\" FROM \"b\") \"q\") \"u\"") := by
  intro select s ctx around
  refine ⟨by decide +kernel, by decide +kernel, ?_, by decide +kernel⟩
  intro hadds
  have haliases := congrArg (fun r => r.1.toOption.map (List.filterMap Token.alias?)) (hadds {})
  exact absurd haliases (by decide +kernel)

end SetOperation

end SqlCompose
