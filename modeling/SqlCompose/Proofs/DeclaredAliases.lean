import SqlCompose.Proofs.ShownAliases

/-! # Declared aliases — which terms write their alias, and where

    An alias is set on a term of any kind, but every kind decides for itself whether it is written.
    Some kinds never write it; the others write it behind everything else, and what is in front of
    it may have aliases of operands in it.

    * `Expr.keepsAlias`, `Expr.losesAlias` — the kinds of terms that write their alias and those
      that never do.
    * `Term.draft_of_keepsAlias`, `Term.draft_of_losesAlias` — how each of them is written.
    * `Term.alias_round_trip` — an alias that is set on a term is written behind what is written
      without it exactly if no operand shows one. -/

namespace SqlCompose

open Draft

/-! ## Which terms write their alias -/

namespace Query

/-- Whether the alias of the statement is the name of the new row in its conflict clause. -/
def namesRow (q : Query) : Bool := q.conflict.isOpen && q.usesDuplicateKey

/-- Any other conflict clause is written without it. -/
theorem resolved_slot {q : Query} (hrow : q.namesRow = false) (slot : Slot) (ctx : Context) :
    Clause.resolved ctx { q with slot := slot } q.parts = Clause.resolved ctx q q.parts := by
  rcases Bool.and_eq_false_iff.mp hrow with hopen | hkey
  · simp only [Clause.resolved, hopen, Bool.not_false, if_true]
  · have hkey' : usesDuplicateKey { q with slot := slot } = false := hkey
    simp only [Clause.resolved, hkey, hkey', Bool.false_eq_true, if_false]

/-- A SELECT or the like under another alias. -/
theorem draft_slot {q : Query} (hselection : q.isSelection = true) (hrow : q.namesRow = false)
    (hreturns : q.returns = []) (slot : Slot) (ctx : Context) :
    Query.draft ctx { q with slot := slot } =
      parensIf ctx.nested (q.inside ctx) ++ Clause.resolved (q.innerContext ctx) q q.parts ++
        ctx.declaration ((ctx.scope.enter q.scope).resolve slot) := by
  have hreturned : Clause.returned (q.innerContext ctx) q q.parts = empty := by
    rw [q.parts_eq, hreturns]
    rfl
  have hresolved := q.resolved_slot hrow slot (q.innerContext ctx)
  have hother : isSelection { q with slot := slot } = true := hselection
  rw [draft_of_isSelection hother, append_assoc]
  have hbehind : behind ctx { q with slot := slot } =
      Clause.resolved (q.innerContext ctx) { q with slot := slot } q.parts ++
        (ctx.declaration ((ctx.scope.enter q.scope).resolve slot) ++
          Clause.returned (q.innerContext ctx) q q.parts) := by
    cases q
    rfl
  have hinside : inside ctx { q with slot := slot } = q.inside ctx := by
    cases q
    rfl
  rw [hbehind, hinside, hresolved, hreturned, append_empty]

/-- Other statements are written alike under every alias. -/
theorem draft_slot_of_not_isSelection {q : Query} (h : q.isSelection = false)
    (hrow : q.namesRow = false) (slot : Slot) (ctx : Context) :
    Query.draft ctx { q with slot := slot } = q.draft ctx := by
  have hother : isSelection { q with slot := slot } = false := h
  have hparts : parts { q with slot := slot } = q.parts := by
    cases q
    rfl
  have hinsertion : ∀ ctx, Clause.insertion ctx { q with slot := slot } q.parts =
      Clause.insertion ctx q q.parts := by
    intro ctx
    simp only [Clause.insertion]
    rw [resolved_slot hrow]
    rfl
  rw [draft_of_not_isSelection hother, draft_of_not_isSelection h, hparts, hinsertion]
  rfl

end Query

namespace Expr

/-- Whether the expression is a statement, so that its alias is the statement's own. -/
def isStatement : Expr → Bool
  | subquery _ => true
  | setOperation _ => true
  | _ => false

/-- Whether an alias is written behind the expression if that is asked for. Of the statements those
    are left out whose alias is not the last thing that is written. -/
def keepsAlias (binding : Bool) : Expr → Bool
  | star _ | interval _ | negative _ | parameter _ | combination _ _ _ | insertedValue _ | index _
  | pseudoColumn _ | empty => false
  | array items => !(binding && (constants? items).isSome)
  | subquery q => q.isSelection && !q.namesRow && q.returns.isEmpty
  | _ => true

/-- Whether an alias of the expression is never written. -/
def losesAlias (binding : Bool) : Expr → Bool
  | subquery q => !q.isSelection && !q.namesRow
  | e => !e.keepsAlias binding

/-- An expression that is no statement and has no alias shows the aliases of its operands. -/
theorem draft_shows_unnamed (ctx : Context) {e : Expr} (h : e.isStatement = false) :
    Shows (e.shownInside ctx.scope) (e.draft { ctx with declares := true } none)
      (e.draft { ctx with declares := false } none) := by
  have hnone : e.declared ctx.scope none = [] := by
    cases e <;> first | rfl | exact nomatch h
  have hshows := e.draft_shows ctx none
  rw [hnone, List.append_nil] at hshows
  exact hshows

/-- The alias of an expression that keeps it stands behind everything else. -/
theorem draft_of_keepsAlias (ctx : Context) {e : Expr} (h : e.isStatement = false)
    (hkeeps : e.keepsAlias ctx.binding = true) (name : String) :
    e.draft { ctx with declares := true } (some name) =
      e.draft { ctx with declares := true } none ++ ctx.aliasDraft (some name) := by
  have hbehind : ∀ body : Draft, body ++ ctx.aliasDraft (some name) =
      body ++ Draft.empty ++ ctx.aliasDraft (some name) := by
    intro body
    rw [append_empty]
  cases e with
  | array items =>
    have hitems : (if ctx.binding then constants? items else none) = none := by
      simpa [keepsAlias, or_iff_not_imp_left] using hkeeps
    simp only [Expr.draft, hitems]
    exact hbehind _
  | case branches otherwise =>
    show (if _ then _ else _) = (if _ then _ else _) ++ _
    split
    · rfl
    · exact hbehind _
  | subquery q => exact nomatch h
  | setOperation s => exact nomatch h
  | _ => first | exact hbehind _ | exact nomatch hkeeps

/-- The alias of an expression that loses it makes no difference. -/
theorem draft_of_losesAlias (ctx : Context) {e : Expr} (h : e.isStatement = false)
    (hloses : e.losesAlias ctx.binding = true) (a b : Option String) :
    e.draft ctx a = e.draft ctx b := by
  cases e with
  | array items =>
    obtain ⟨hbinding, hitems⟩ : ctx.binding = true ∧ (constants? items).isSome = true := by
      simpa [losesAlias, keepsAlias] using hloses
    obtain ⟨values, hvalues⟩ := Option.isSome_iff_exists.mp hitems
    simp only [Expr.draft, hbinding, hvalues, if_true]
  -- a statement that selects nothing does not write its alias at all
  | subquery q => exact nomatch h
  | _ => first | rfl | exact nomatch hloses

end Expr

/-! ## The theorem -/

namespace Term

/-- The term under an alias that it is asked to declare is written as the term without its alias
    that is not asked to, and the alias behind it. -/
def RoundTrips (identity : Identity) (ctx : Context) (aliasName : String) (t : Term) : Prop :=
  ∀ p : Parameters,
    ((t.withAlias identity (some aliasName)).draft { ctx with declares := true }).finish p =
      ((t.withAlias identity none).draft { ctx with declares := false } ++
        ctx.aliasDraft (some aliasName)).finish p

theorem withAlias_of_not_isStatement {t : Term} (h : t.expr.isStatement = false)
    (identity : Identity) (aliasName : Option String) :
    t.withAlias identity aliasName = ⟨t.expr, aliasName⟩ := by
  obtain ⟨expr, old⟩ := t
  cases expr with
  | subquery q => exact nomatch h
  | setOperation s => exact nomatch h
  | _ => rfl

/-- The alias of a term that keeps it is written behind something that is what is written without
    the alias but for the aliases that operands show. -/
theorem draft_of_keepsAlias (identity : Identity) (ctx : Context) {t : Term}
    (hkeeps : t.expr.keepsAlias ctx.binding = true) (aliasName : String) :
    ∃ body : Draft,
      (t.withAlias identity (some aliasName)).draft { ctx with declares := true } =
        body ++ ctx.aliasDraft (some aliasName) ∧
      Shows (t.expr.shownInside ctx.scope) body
        ((t.withAlias identity none).draft { ctx with declares := false }) := by
  -- a statement keeps its alias in its slot, any other term beside its expression
  cases hstatement : t.expr.isStatement with
  | false =>
    rw [withAlias_of_not_isStatement hstatement, withAlias_of_not_isStatement hstatement]
    exact ⟨_, Expr.draft_of_keepsAlias ctx hstatement hkeeps aliasName,
      Expr.draft_shows_unnamed ctx hstatement⟩
  | true =>
    obtain ⟨expr, old⟩ := t
    have hnone : ∀ aliasName, Context.declaration { ctx with declares := false } aliasName
      = Draft.empty := fun _ => rfl
    cases expr with
    | subquery q =>
      simp only [Expr.keepsAlias, Bool.and_eq_true, Bool.not_eq_true', List.isEmpty_iff] at hkeeps
      obtain ⟨⟨hselection, hrow⟩, hreturns⟩ := hkeeps
      have hslot := Query.draft_slot hselection hrow hreturns
      refine ⟨_, hslot ⟨identity, some aliasName⟩ { ctx with declares := true }, ?_⟩
      have hbare := hslot ⟨identity, none⟩ { ctx with declares := false }
      show Shows [] _ (Query.draft _ { q with slot := ⟨identity, none⟩ })
      rw [hbare, hnone, append_empty]
      exact .refl _
    | setOperation s =>
      have hslot : ∀ ctx slot, SetOperation.draft ctx { s with slot := slot } =
          parensIf ctx.nested (s.inside ctx) ++ ctx.declaration (ctx.scope.resolve slot) := by
        intro ctx slot
        cases s
        rfl
      refine ⟨_, hslot { ctx with declares := true } ⟨identity, some aliasName⟩, ?_⟩
      show Shows (s.shownInside ctx.scope) _
        (SetOperation.draft _ { s with slot := ⟨identity, none⟩ })
      rw [hslot, hnone, append_empty]
      exact (s.inside_shows ctx).parensIf ctx.nested
    | _ => cases hstatement

/-- The alias of a term that loses it makes no difference, and the aliases that operands show are
    the only ones that are written on request. -/
theorem draft_of_losesAlias (identity : Identity) (ctx : Context) {t : Term}
    (hloses : t.expr.losesAlias ctx.binding = true) (aliasName : Option String) :
    (t.withAlias identity aliasName).draft { ctx with declares := true } =
        (t.withAlias identity none).draft { ctx with declares := true } ∧
      Shows (t.expr.shownInside ctx.scope)
        ((t.withAlias identity none).draft { ctx with declares := true })
        ((t.withAlias identity none).draft { ctx with declares := false }) := by
  cases hstatement : t.expr.isStatement with
  | false =>
    rw [withAlias_of_not_isStatement hstatement, withAlias_of_not_isStatement hstatement]
    exact ⟨Expr.draft_of_losesAlias { ctx with declares := true } hstatement hloses aliasName none,
      Expr.draft_shows_unnamed ctx hstatement⟩
  | true =>
    obtain ⟨expr, old⟩ := t
    cases expr with
    | subquery q =>
      simp only [Expr.losesAlias, Bool.and_eq_true, Bool.not_eq_true'] at hloses
      obtain ⟨hselection, hrow⟩ := hloses
      have hslot := Query.draft_slot_of_not_isSelection hselection hrow
      show Query.draft _ { q with slot := _ } = Query.draft _ { q with slot := _ } ∧
        Shows [] (Query.draft _ { q with slot := _ }) (Query.draft _ { q with slot := _ })
      have hshows := q.draft_shows ctx
      rw [Query.declared, if_neg (by simpa using hselection)] at hshows
      rw [hslot, hslot, hslot]
      exact ⟨rfl, hshows⟩
    | setOperation s => cases hloses
    | _ => cases hstatement

/-- **Alias round trip.** Let an alias be set on a term that is asked to declare it, in any context,
    with constants bound or written. If the kind of the term keeps its alias and no operand shows
    one on request, then what is written is what is written of the term without alias and request,
    and behind it the alias: the tokens, the bound values and the reason to stop are the same. If
    operands show aliases, each of these is written as well, and the equation fails. If the kind of
    the term loses its alias, what is written does not depend on it: no alias is written but those
    that are written without the request and those that operands show. -/
theorem alias_round_trip (identity : Identity) (ctx : Context) (t : Term) {aliasName : String}
    (hname : aliasName ≠ "") :
    let named := (t.withAlias identity (some aliasName)).draft { ctx with declares := true }
    let bare := (t.withAlias identity none).draft { ctx with declares := false }
    let shown := t.expr.shownInside ctx.scope
    (t.expr.keepsAlias ctx.binding = true →
      (shown = [] → t.RoundTrips identity ctx aliasName) ∧
        (bare.stop = none → named.aliases.Perm (bare.aliases ++ [aliasName] ++ shown) ∧
          (t.RoundTrips identity ctx aliasName ↔ shown = []))) ∧
    (t.expr.losesAlias ctx.binding = true →
      named = (t.withAlias identity none).draft { ctx with declares := true } ∧
        (bare.stop = none → named.aliases.Perm (bare.aliases ++ shown) ∧
          (shown = [] → ¬ t.RoundTrips identity ctx aliasName))) := by
  intro named bare shown
  have halias : (ctx.aliasDraft (some aliasName)).aliases = [aliasName] := by
    rw [ctx.aliases_aliasDraft, declaredNames_some hname]
  constructor
  · intro hkeeps
    obtain ⟨body, hnamed, hbody⟩ := draft_of_keepsAlias identity ctx hkeeps aliasName
    have hshows : Shows shown named (bare ++ ctx.aliasDraft (some aliasName)) := by
      show Shows _ ((t.withAlias identity (some aliasName)).draft _) _
      rw [hnamed]
      exact hbody.before _
    refine ⟨fun hnone => hshows.finish_eq hnone, fun hstop => ⟨?_, ?_, ?_⟩⟩
    · have hperm := hshows.aliases (complete_append hstop (ctx.complete_aliasDraft _))
      rw [aliases_append hstop, halias] at hperm
      exact hperm
    · intro htrip
      exact (hshows.finish_iff (complete_append hstop (ctx.complete_aliasDraft _)) {}).mp (htrip {})
    · exact fun hnone => hshows.finish_eq hnone
  · intro hloses
    obtain ⟨hnamed, hshows⟩ := draft_of_losesAlias identity ctx hloses (some aliasName)
    have hnamedShows : Shows shown named bare := by
      show Shows _ ((t.withAlias identity (some aliasName)).draft _) _
      rw [hnamed]
      exact hshows
    refine ⟨hnamed, fun hstop => ⟨hnamedShows.aliases hstop, fun hnone htrip => ?_⟩⟩
    -- the term without its alias would be the same as with the alias behind it
    have hbehind := (Shows.aliasDraft ctx (some aliasName)).behind bare
    have hbare : bare.finish {} = (bare ++ ctx.aliasDraft (some aliasName)).finish {} := by
      rw [← htrip {}]
      exact (hnamedShows.finish_eq hnone {}).symm
    rw [append_empty, declaredNames_some hname] at hbehind
    exact nomatch (hbehind.finish_iff hstop {}).mp hbare.symm

/-- A comparison keeps its alias and shows none of others; behind a minus sign the alias is lost. -/
theorem alias_round_trip_comparison :
    let t := compare .eq (field "a") (value (.int 1))
    let ctx := Context.ofDialect .generic
    "c" ≠ "" ∧ t.RoundTrips 0 ctx "c" ∧ ¬ t.negative.RoundTrips 0 ctx "c" := by
  intro t ctx
  have hname : "c" ≠ "" := by decide
  refine ⟨hname, ?_, ?_⟩
  · exact ((alias_round_trip 0 ctx t hname).1 rfl).1 rfl
  · exact (((alias_round_trip 0 ctx t.negative hname).2 rfl).2 rfl).2 rfl

/-- The alias of an operand is written before that of a comparison, and an alias is not written
    behind a minus sign. -/
theorem alias_of_operand_written :
    let t := compare .eq ((field "a").withAlias 0 (some "b")) (value (.int 1))
    let ctx := Context.ofDialect .generic
    (((t.withAlias 0 (some "c")).draft { ctx with declares := true }).finish {}).1 =
        .ok [.ident "a", .space, .aliasName "b", .operator "=", .int 1, .space, .aliasName "c"] ∧
      (((field "a").negative.withAlias 0 (some "c")).draft { ctx with declares := true }).finish {}
        = (.ok [.operator "-", .ident "a"], {}) ∧
      ¬ t.RoundTrips 0 ctx "c" ∧ ¬ (field "a").negative.RoundTrips 0 ctx "c" := by
  intro t ctx
  refine ⟨rfl, rfl, ?_, ?_⟩
  · intro htrip
    have htokens := Except.ok.inj (congrArg Prod.fst (htrip {}))
    exact absurd (congrArg List.length htokens) (by decide)
  · intro htrip
    have htokens := Except.ok.inj (congrArg Prod.fst (htrip {}))
    exact absurd (congrArg List.length htokens) (by decide)

end Term

end SqlCompose
