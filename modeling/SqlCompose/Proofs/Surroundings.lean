import SqlCompose.Proofs.ClauseLeaves
import SqlCompose.Proofs.Criterion

/-! # Surroundings — what is asked of a statement as a whole is not asked of its clauses

    What is around a statement may ask for three things: that it stands in parentheses, that it
    declares its alias, and that columns are qualified. A statement that selects heeds the first two
    for itself and hands none of the three down. So what is written between its parentheses is the
    same wherever the statement stands.

    * `Context.asking` — a context that asks for some of the three.
    * `Draft.finish_enclosed`, `Draft.render_enclosed` — what parentheses and tokens behind them
      make of a draft, whether it stops or not.
    * `Query.draft_asking` — a statement in any surroundings, by what it is where nothing is asked
      for.
    * `Query.render_asking` — the theorem. -/

namespace SqlCompose

open Draft

/-! ## Contexts that ask for something -/

namespace Context

/-- The context, but asking for parentheses, for the alias and for qualified columns as given. -/
def asking (ctx : Context) (nested declares qualified : Bool) : Context :=
  { ctx with nested := nested, declares := declares, qualified := qualified }

variable {ctx : Context}

/-- How tokens look does not depend on what is asked for. -/
theorem texts_asking (ctx : Context) (nested declares qualified : Bool) :
    Token.texts (ctx.asking nested declares qualified) = Token.texts ctx := by
  have htext : Token.text (ctx.asking nested declares qualified) = Token.text ctx := by
    funext t
    cases t <;> rfl
  funext ts
  simp only [Token.texts, htext]

/-- A name is declared by itself, `AS` in front of it if the context says so. -/
theorem aliasTokens_of_ne {name : String} (h : name ≠ "") :
    ctx.aliasTokens (some name) =
      .space :: (if ctx.asKeyword then [.keyword .as, .space] else []) ++ [.aliasName name] := by
  have hname : name.isEmpty = false := by simpa using h
  rw [aliasTokens, hname]
  cases ctx.asKeyword <;> rfl

/-- Nothing is declared where there is no name. -/
theorem aliasTokens_eq_nil {aliasName : Option String} (h : ∀ name ∈ aliasName, name = "") :
    ctx.aliasTokens aliasName = [] := by
  cases aliasName with
  | none => rfl
  | some name =>
    obtain rfl := h name rfl
    rfl

end Context

/-! ## Drafts between parentheses -/

namespace Draft

/-- Parentheses around a draft, and tokens behind them, are around and behind what is written of it.
    If it stops, the reason and what has been bound are those of the draft. -/
theorem finish_enclosed (condition : Bool) (d : Draft) (behind : List Token) (p : Parameters) :
    (parensIf condition d ++ tokens behind).finish p =
      ((d.finish p).1.map fun ts => enclosedIf condition ts ++ behind, (d.finish p).2) := by
  obtain ⟨pieces, _ | stop⟩ := d
  · have hd := finish_of_complete (d := ⟨pieces, none⟩) rfl p
    rw [finish_append (finish_parensIf hd condition) (finish_tokens_eq behind _), hd]
    rfl
  · -- a parenthesis in front binds nothing, and nothing is written behind the stop
    cases condition <;> cases stop <;> rfl

/-- The same for texts, in a context in which tokens look alike. -/
theorem render_enclosed {ctx ctx' : Context} (htexts : Token.texts ctx = Token.texts ctx')
    (condition : Bool) (d : Draft) (behind : List Token) (p : Parameters) :
    (parensIf condition d ++ tokens behind).render ctx p =
      ((d.render ctx' p).1.map fun text =>
        (if condition then "(" ++ text ++ ")" else text) ++ Token.texts ctx' behind,
        (d.render ctx' p).2) := by
  have hwhole (ts : List Token) : Token.texts ctx (enclosedIf condition ts ++ behind) =
      (if condition then "(" ++ Token.texts ctx' ts ++ ")" else Token.texts ctx' ts) ++
        Token.texts ctx' behind := by
    rw [htexts, Token.texts_append, Token.texts_enclosedIf]
  simp only [render, finish_enclosed]
  cases (d.finish p).1 with
  | error e => rfl
  | ok ts => exact congrArg (fun text => (Except.ok text, (d.finish p).2)) (hwhole ts)

end Draft

/-! ## Statements -/

namespace Query

variable {q : Query}

/-- The alias that a statement has inside other builders. -/
def nameInside (outer : Context) (q : Query) : Option String :=
  (outer.scope.enter q.scope).resolve q.slot

/-- Without a conflict clause and without RETURNING, a statement is what it is where nothing is
    asked for, between parentheses or not, and its alias. -/
theorem draft_asking (hselection : q.isSelection = true) (hconflict : q.conflict.isOpen = false)
    (hreturns : q.returns = []) (ctx : Context) (nested declares qualified : Bool) :
    q.draft (ctx.asking nested declares qualified) =
      parensIf nested (q.draft (ctx.asking false false false)) ++
        tokens (if declares then ctx.aliasTokens (q.nameInside ctx) else []) := by
  have hasked (nested declares qualified : Bool) :
      q.draft (ctx.asking nested declares qualified) =
        parensIf nested (q.inside ctx) ++
          tokens (if declares then ctx.aliasTokens (q.nameInside ctx) else []) := by
    rw [draft_of_isSelection hselection, behind_of_silent hconflict hreturns,
      Context.declaration_eq_tokens]
    rfl
  have hplain : q.draft (ctx.asking false false false) = q.inside ctx :=
    (hasked false false false).trans (append_empty _)
  rw [hplain, hasked]

/-- **What is around a statement is written around it.** Let a statement select, without a conflict
    clause and without RETURNING, and take any context. Then, whichever of parentheses, alias and
    qualified columns the context asks for,
    * the tokens are those that are written where it asks for none of the three: between one pair of
      parentheses exactly if these are asked for, and with the declaration of the alias behind them
      if that is;
    * so is the text, and if the statement cannot be written, it cannot be for the same reason;
    * what is bound is the same, and so is the numbering of the placeholders;
    * a declaration is a blank, `AS` where the context says so, and the name. There is one exactly
      if it is asked for and there is a name that is not empty; and the name is the one that the
      statement has inside the builders around it, whatever is asked for. -/
theorem render_asking (hselection : q.isSelection = true) (hconflict : q.conflict.isOpen = false)
    (hreturns : q.returns = []) (ctx : Context) (nested declares qualified : Bool)
    (p : Parameters) :
    let asked := ctx.asking nested declares qualified
    let plain := q.draft (ctx.asking false false false)
    ∃ behind : List Token,
      (q.draft asked).finish p =
        ((plain.finish p).1.map fun ts => enclosedIf nested ts ++ behind, (plain.finish p).2) ∧
      (q.draft asked).render asked p =
        ((plain.render ctx p).1.map fun text =>
          (if nested then "(" ++ text ++ ")" else text) ++ Token.texts ctx behind,
          (plain.render ctx p).2) ∧
      (behind = [] ↔ ¬ (declares = true ∧ ∃ name, q.nameInside ctx = some name ∧ name ≠ "")) ∧
      ∀ name, declares = true → q.nameInside ctx = some name → name ≠ "" →
        behind =
          .space :: (if ctx.asKeyword then [.keyword .as, .space] else []) ++ [.aliasName name] := by
  intro asked plain
  have hdraft := draft_asking hselection hconflict hreturns ctx nested declares qualified
  have hnamed : ∀ name, declares = true → q.nameInside ctx = some name → name ≠ "" →
      (if declares then ctx.aliasTokens (q.nameInside ctx) else []) =
        .space :: (if ctx.asKeyword then [.keyword .as, .space] else []) ++ [.aliasName name] := by
    intro name hdeclares hname hne
    rw [if_pos hdeclares, hname, Context.aliasTokens_of_ne hne]
  refine ⟨if declares then ctx.aliasTokens (q.nameInside ctx) else [], ?_, ?_, ?_, hnamed⟩
  · rw [hdraft]
    exact finish_enclosed nested plain _ p
  · rw [hdraft]
    exact render_enclosed (ctx.texts_asking nested declares qualified) nested plain _ p
  · -- nothing stands behind unless an alias is asked for and there is one
    constructor
    · rintro hnil ⟨hdeclares, name, hname, hne⟩
      rw [hnamed name hdeclares hname hne] at hnil
      exact nomatch hnil
    · intro hnone
      by_cases hdeclares : declares = true
      · rw [if_pos hdeclares]
        refine Context.aliasTokens_eq_nil ?_
        intro name hname
        by_contra hne
        exact hnone ⟨hdeclares, name, hname, hne⟩
      · rw [if_neg hdeclares]

/-- A statement with a WITH clause, a join and statements in its select list, in FROM and behind IN,
    inside a builder that has assigned an alias to it, where everything is asked for. -/
theorem render_asking_nested :
    let term (expr : Expr) : Term := ⟨expr, none⟩
    let inner : Query :=
      { Query.start 1 .generic with
        sources := [.table (.named 2 "u")]
        selects := [term (.field "x" none)] }
    let q : Query :=
      { Query.start 3 .generic with
        sources := [.query inner]
        selects := [⟨.field "a" (some (.derived inner.slot)), some "k"⟩, term (.subquery inner)]
        ctes := [⟨"w", .query inner, []⟩]
        joins := [⟨.cte "w", .inner, .none⟩]
        filter := term (.membership (term (.field "b" none)) (term (.subquery inner)) false) }
    let ctx := { Context.ofDialect .postgres with scope := [(3, "s")] }
    let plain := q.draft (ctx.asking false false false)
    q.isSelection = true ∧ q.conflict.isOpen = false ∧ q.returns = [] ∧
      (q.draft (ctx.asking true true true)).render (ctx.asking true true true) {} =
        ((plain.render ctx {}).1.map fun text => "(" ++ text ++ ")" ++ " \"s\"",
          (plain.render ctx {}).2) := by
  intro term inner q ctx plain
  obtain ⟨behind, -, hrender, -, hbehind⟩ :=
    render_asking (q := q) (by decide) rfl rfl ctx true true true {}
  obtain rfl := hbehind "s" rfl rfl (by decide)
  exact ⟨by decide, rfl, rfl, hrender⟩

end Query

end SqlCompose
