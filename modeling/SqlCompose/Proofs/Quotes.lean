import SqlCompose.Combined
import SqlCompose.Proofs.Lockstep
import SqlCompose.Proofs.Numbering
import SqlCompose.Proofs.Refusals

/-! # Quotes — what is put around names and strings does not reach the structure

    A context has a quote for identifiers, one for string literals and one for aliases. The writer
    hands all three down the tree and puts none of them into a token, JSON documents excepted, which
    it writes out as text. So two writings with different quotes consist of the same tokens, and
    only those tokens look different whose own quote is.

    * `Context.withQuotes` — the context with other quotes.
    * `Draft.unquoted` — a draft without the quotes that its reason to stop was written with.
    * `otherQuotes` — the simulation: one tree, written with some quotes and with others.
    * `Token.quote?`, `Token.text_withQuotes` — the quote of a token is all that its look depends
      on.
    * `Node.finish_withQuotes` — the theorem. -/

namespace SqlCompose

open Draft

/-- The context with other quotes around identifiers, strings and aliases. -/
def Context.withQuotes (ctx : Context) (ident text aliasName : String) : Context :=
  { ctx with identQuote := ident, textQuote := text, aliasQuote := aliasName }

/-- Whether the part is a JSON document that is written out as a string. -/
def Part.isDocument : Part → Bool
  | expr (.document _) => true
  | _ => false

/-! ## Drafts without the quotes of their stop -/

namespace Draft

/-- The draft without the quotes in which its operands were to be shown. -/
def unquoted (d : Draft) : Draft := d.mapContext fun ctx => ctx.withQuotes "" "" ""

/-- What differs only in the context of shown operands binds the same values, and is written to the
    same tokens or stops for the same reason. -/
theorem finish_of_mapContext {f : Context → Context} {d d' : Draft}
    (h : d.mapContext f = d'.mapContext f) (p : Parameters) :
    (d.finish p).2 = (d'.finish p).2 ∧
      (∀ ts, (d.finish p).1 = .ok ts ↔ (d'.finish p).1 = .ok ts) ∧
      ∀ e, (d.finish p).1 = .error e →
        ∃ e', (d'.finish p).1 = .error e' ∧ e'.bare = e.bare := by
  obtain ⟨pieces, stop⟩ := d
  obtain ⟨pieces', stop'⟩ := d'
  obtain ⟨rfl, hstop⟩ := Draft.mk.inj h
  rcases stop with _ | e | ⟨ctx, main, other⟩ <;> rcases stop' with _ | e' | ⟨ctx', main', other'⟩
  -- both were written to their ends, both stopped at a part, or both at unequal operands
  case none.none => exact ⟨rfl, fun _ => Iff.rfl, fun _ he => nomatch he⟩
  case some.error.some.error =>
    obtain rfl : e = e' := Stop.error.inj (Option.some.inj hstop)
    exact ⟨rfl, fun _ => Iff.rfl, fun _ he => ⟨_, he, rfl⟩⟩
  case some.unequalOperands.some.unequalOperands =>
    obtain ⟨-, rfl, rfl⟩ := Stop.unequalOperands.inj (Option.some.inj hstop)
    refine ⟨rfl, fun _ => ⟨nofun, nofun⟩, fun e he => ⟨_, rfl, ?_⟩⟩
    obtain rfl := Except.error.inj he
    rfl
  all_goals exact nomatch hstop

end Draft

/-! ## The simulation -/

/-- The contexts differ in their quotes. -/
def Context.Requoted (c c' : Context) : Prop :=
  ∃ ident text aliasName : String, c' = c.withQuotes ident text aliasName

/-- One tree without documents, written with some quotes and with others. -/
def otherQuotes : Simulation where
  exchange := .id
  part := fun p => p.isDocument = false
  alike := Context.Requoted
  rel := fun d d' => d.unquoted = d'.unquoted
  congruence := .of_map mapContext_append
  flags := by
    rintro c c' ⟨ident, text, aliasName, rfl⟩
    constructor <;> rfl
  nested := by
    rintro c c' ⟨ident, text, aliasName, rfl⟩ b
    exact ⟨ident, text, aliasName, rfl⟩
  declares := by
    rintro c c' ⟨ident, text, aliasName, rfl⟩ b
    exact ⟨ident, text, aliasName, rfl⟩
  qualified := by
    rintro c c' ⟨ident, text, aliasName, rfl⟩ b
    exact ⟨ident, text, aliasName, rfl⟩
  bracketed := by
    rintro c c' ⟨ident, text, aliasName, rfl⟩ b
    exact ⟨ident, text, aliasName, rfl⟩
  grouping := by
    rintro c c' ⟨ident, text, aliasName, rfl⟩ b
    exact ⟨ident, text, aliasName, rfl⟩
  inDialect := by
    -- a set operation takes the quote of its own dialect on both sides
    rintro c c' ⟨ident, text, aliasName, rfl⟩ d
    exact ⟨d.identQuote, text, aliasName, rfl⟩
  enter := by
    rintro c c' ⟨ident, text, aliasName, rfl⟩ scope
    exact ⟨ident, text, aliasName, rfl⟩
  names := by
    rintro c c' ⟨ident, text, aliasName, rfl⟩ p - slot -
    rfl
  value := by
    rintro c c' ⟨ident, text, aliasName, rfl⟩ v mayBind -
    rw [Exchange.constant_id]
    rfl
  count := by
    rintro c c' ⟨ident, text, aliasName, rfl⟩ n
    rfl
  array := by
    rintro c c' ⟨ident, text, aliasName, rfl⟩ items -
    refine (Congruence.of_map mapContext_append).arrays (by constructor <;> rfl) ?_
    rw [exchangeTerms_id]
    show Option.Rel _ (if c.binding then constants? items else none)
      (if c.binding then constants? items else none)
    cases (if c.binding then constants? items else none) with
    | none => exact .none
    | some values => exact .some rfl
  document := by
    rintro c c' - d hpart
    exact nomatch hpart
  unequal := by
    rintro c c' ⟨ident, text, aliasName, rfl⟩ a a' b b' ha hb
    have hquotes : c.withQuotes "" "" "" =
        (c.withQuotes ident text aliasName).withQuotes "" "" "" := rfl
    exact mapContext_unequal hquotes ha hb

/-! ## What quotes are put around -/

namespace Token

/-- The quote that is put around a token. -/
def quote? (ctx : Context) : Token → Option String
  | ident _ => some ctx.identQuote
  | aliasName _ => some ctx.effectiveAliasQuote
  | string _ | json _ => some ctx.textQuote
  | _ => none

/-- A token looks the same with other quotes if its own is the same. -/
theorem text_withQuotes {ctx : Context} {ident text aliasName : String} {t : Token}
    (h : t.quote? (ctx.withQuotes ident text aliasName) = t.quote? ctx) :
    t.text (ctx.withQuotes ident text aliasName) = t.text ctx := by
  cases t with
  | ident name => exact congrArg (Text.wrapped name) (Option.some.inj h)
  | aliasName name => exact congrArg (Text.wrapped name) (Option.some.inj h)
  | string s =>
    have htext : text = ctx.textQuote := Option.some.inj h
    subst htext
    rfl
  | json s =>
    have htext : text = ctx.textQuote := Option.some.inj h
    subst htext
    rfl
  | _ => rfl

end Token

/-! ## The theorem -/

namespace Node

/-- A node is written in the same pieces with other quotes. -/
theorem draft_withQuotes {node : Node} (hnode : node.Everywhere fun part => part.isDocument = false)
    (ctx : Context) (ident text aliasName : String) :
    (node.draft ctx).unquoted = (node.draft (ctx.withQuotes ident text aliasName)).unquoted := by
  have hctx : otherQuotes.alike ctx (ctx.withQuotes ident text aliasName) :=
    ⟨ident, text, aliasName, rfl⟩
  have hdraft := node.draft_sim hctx hnode
  have hexchange : node.exchange otherQuotes.exchange = node := node.exchange_id
  rw [hexchange] at hdraft
  exact hdraft

/-- **Quotes do not change the structure.** Write a term, a statement or a set operation, in which
    there is no JSON document that is written out, in two contexts that differ in the quotes around
    identifiers, strings and aliases alone. Both writings bind the same values; one gives tokens
    exactly if the other does, and they are the same tokens; where one stops, the other stops for
    the same reason, operands that are shown excepted. A token looks different in the two contexts
    only if it is an identifier, an alias, a string or a document and its own quote is different. -/
theorem finish_withQuotes {node : Node}
    (hnode : node.Everywhere fun part => part.isDocument = false) (ctx : Context)
    (ident text aliasName : String) (p : Parameters) :
    let plain := (node.draft ctx).finish p
    let quoted := (node.draft (ctx.withQuotes ident text aliasName)).finish p
    plain.2 = quoted.2 ∧
    (∀ ts, plain.1 = .ok ts ↔ quoted.1 = .ok ts) ∧
    (∀ e, plain.1 = .error e → ∃ e', quoted.1 = .error e' ∧ e'.bare = e.bare) ∧
    ∀ t : Token, t.quote? (ctx.withQuotes ident text aliasName) = t.quote? ctx →
      t.text (ctx.withQuotes ident text aliasName) = t.text ctx := by
  obtain ⟨hbound, hok, herror⟩ :=
    finish_of_mapContext (draft_withQuotes hnode ctx ident text aliasName) p
  exact ⟨hbound, hok, herror, fun t ht => Token.text_withQuotes ht⟩

/-- A set operation inside a statement, with an alias and a bound string. -/
theorem finish_withQuotes_nested :
    let select (name : String) : Query :=
      { Query.start 1 .mysql with
        sources := [.table (.named 2 name)]
        selects := [.value (.str "it's"), ⟨.field "x" none, some "y"⟩] }
    let node := query
      { Query.start 3 .generic with
        sources := [.setOperation ((select "a").combine 4 .union (select "b"))]
        selects := [.star] }
    let ctx := { Context.ofDialect .generic with binding := true }
    ((node.draft ctx).finish {}).2 = ((node.draft (ctx.withQuotes "`" "\"" "'")).finish {}).2 ∧
      ∀ ts, ((node.draft ctx).finish {}).1 = .ok ts ↔
        ((node.draft (ctx.withQuotes "`" "\"" "'")).finish {}).1 = .ok ts := by
  intro select node ctx
  have hnode : node.Everywhere fun part => part.isDocument = false := by
    refine ⟨rfl, ?_⟩
    repeat' first
      | exact trivial
      | exact rfl
      | refine And.intro ?_ ?_
  obtain ⟨hbound, hok, -⟩ := finish_withQuotes hnode ctx "`" "\"" "'" {}
  exact ⟨hbound, hok⟩

end Node

end SqlCompose
