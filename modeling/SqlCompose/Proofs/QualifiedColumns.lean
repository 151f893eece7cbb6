import SqlCompose.Proofs.ClauseLeaves
import SqlCompose.Term.Build

/-! # Qualified columns — where several sources are read, no column stands by itself

    Whether columns are qualified is decided once for all clauses of a statement. With a join, or
    with two items of FROM, they are: every column of a table or a WITH clause is written behind the
    name that its source has inside the statement, whichever clause it is in and however deep in a
    term.

    * `Source.boundName?` — that name.
    * `Leaf.qualified?` — the tokens of a column or a star behind it.
    * `Query.weave_qualified` — the tokens of a statement with several sources are a text with gaps
      that are filled by its qualified columns. -/

namespace SqlCompose

open Draft

/-- The name of a table or a WITH clause among these aliases. -/
def Source.boundName? (scope : Scope) : Source → Option String
  | table t => some ((scope.resolve t.slot).getD t.name)
  | cte name => some name
  | derived _ => none

namespace Leaf

/-- The tokens of a column or a star of a table or a WITH clause, qualified by the name of it. -/
def qualified? (scope : Scope) : Leaf → Option (List Token)
  | column name (some source) =>
    (source.boundName? scope).map fun qualifier => [.ident qualifier, .dot, .ident name]
  | star (some source) =>
    (source.boundName? scope).map fun qualifier => [.ident qualifier, .dot, .star]
  | _ => none

end Leaf

/-- It is the name of the source in all contexts with these aliases. -/
theorem Source.nameIn_of_boundName {ctx : Context} {source : Source} {name : String}
    (h : source.boundName? ctx.scope = some name) : source.nameIn ctx = some name := by
  cases source with
  | table t => exact h
  | cte other => exact h
  | derived slot => exact nomatch h

/-- Where columns are qualified, a token behind a source with a name is written behind the name. -/
theorem Source.qualifier_append {ctx : Context} (hqualified : ctx.qualified = true)
    {source : Source} {name : String} (h : source.nameIn ctx = some name) (t : Token) :
    Source.qualifier ctx (some source) ++ Draft.token t = Draft.tokens [.ident name, .dot, t] := by
  have hname : Source.qualifier? ctx (some source) = some name := by
    show (if ctx.qualified || (source.aliasIn ctx).isSome then source.nameIn ctx else none) = _
    rw [hqualified, h]
    rfl
  have hqualifier : Source.qualifier ctx (some source) = Draft.tokens [.ident name, .dot] := by
    simp only [Source.qualifier, hname]
    rfl
  rw [hqualifier]
  exact tokens_append [.ident name, .dot] [t]

/-- Where columns are qualified, leaves are written as their qualified tokens. -/
theorem Leaf.Written.eq_tokens {ctx : Context} (hqualified : ctx.qualified = true) {x : Leaf}
    {d : Draft} (hx : x.Written ctx d) {ts : List Token} (hts : x.qualified? ctx.scope = some ts) :
    d = Draft.tokens ts := by
  cases x with
  | column name source =>
    cases source with
    | none => exact nomatch hts
    | some source =>
      obtain ⟨qualifier, hbound, rfl⟩ := Option.map_eq_some_iff.mp hts
      have hname := Source.nameIn_of_boundName hbound
      exact hx.trans (Source.qualifier_append hqualified hname (.ident name))
  | star source =>
    cases source with
    | none => exact nomatch hts
    | some source =>
      obtain ⟨qualifier, hbound, rfl⟩ := Option.map_eq_some_iff.mp hts
      have hname := Source.nameIn_of_boundName hbound
      exact hx.trans (Source.qualifier_append hqualified hname .star)
  | statement nested q => exact nomatch hts
  | setOperation nested s => exact nomatch hts

namespace Query

/-- The qualified columns and stars in the clauses of a statement inside these aliases, in the order
    in which they are written. -/
def qualifiedColumns (ctx : Context) (q : Query) : List (List Token) :=
  (q.selectionLeaves (ctx.naming.inside q.dialect)).filterMap
    (Leaf.qualified? (ctx.scope.enter q.scope))

theorem isQualified_of_several {q : Query} (h : q.joins ≠ [] ∨ 2 ≤ q.sources.length) :
    q.isQualified = true := by
  rcases h with hjoins | hsources
  · have hsome : (!q.joins.isEmpty) = true := by simpa using hjoins
    simp only [isQualified, hsome, Bool.true_or]
  · have hmany : decide (1 < q.sources.length) = true := decide_eq_true hsources
    simp only [isQualified, hmany, Bool.true_or, Bool.or_true]

/-- Drafts that are given by tokens give these tokens. -/
theorem eq_of_gives {rows fillings : List (List Token)}
    (h : List.Forall₂ (Around.Gives fun ts d => d = Draft.tokens ts) rows fillings) :
    fillings = rows := by
  induction h with
  | nil => rfl
  | cons hrow _ ih =>
    obtain ⟨part, p, p', rfl, hfinish⟩ := hrow
    rw [Draft.finish_tokens_eq] at hfinish
    obtain ⟨hts, -⟩ := Prod.mk.inj hfinish
    rw [Except.ok.inj hts, ih]

/-- The surroundings do not say whether the columns of a statement are qualified. -/
theorem draft_qualified (q : Query) (ctx : Context) (qualified : Bool) :
    q.draft { ctx with qualified := qualified } = q.draft ctx := rfl

/-- **No bare column where several sources are read.** Let a statement that is written as a SELECT
    have a join or at least two items in FROM. Whatever context it is written in, its tokens are a
    text with gaps, and the gaps are filled, from left to right, by the columns and stars of tables
    and WITH clauses in its select list, DISTINCT ON, join criteria, PREWHERE, WHERE, GROUP BY,
    HAVING and ORDER BY: each is qualified by the alias that its source has inside the statement, or
    else by the name of the source. It makes no difference whether the surroundings qualify
    columns. -/
theorem weave_qualified {q : Query} (hselection : q.isSelection = true)
    (hseveral : q.joins ≠ [] ∨ 2 ≤ q.sources.length) (ctx : Context) :
    (∀ {p p' : Parameters} {ts : List Token}, (q.draft ctx).finish p = (.ok ts, p') →
      ∃ segments : List (List Token), segments.length = (q.qualifiedColumns ctx).length + 1 ∧
        ts = weave segments (q.qualifiedColumns ctx)) ∧
    ∀ qualified : Bool, q.draft { ctx with qualified := qualified } = q.draft ctx := by
  refine ⟨?_, q.draft_qualified ctx⟩
  intro p p' ts h
  -- one decision holds in all clauses
  have hqualified : (q.innerContext ctx).qualified = true := isQualified_of_several hseveral
  have hinside : Around (fun ts d => d = Draft.tokens ts) (q.inside ctx) (q.qualifiedColumns ctx) :=
    (q.inside_around ctx).filterMap fun _ _ _ hx hts => hx.eq_tokens hqualified hts
  rw [draft_of_isSelection hselection] at h
  obtain ⟨segments, fillings, hlength, hgives, rfl⟩ :=
    ((hinside.parensIf ctx.nested).before (q.behind ctx)).finish h
  rw [eq_of_gives hgives]
  exact ⟨segments, hlength, rfl⟩

/-- A join of a table with a WITH clause; one column stands in a CASE expression in an aggregate,
    and one in its filter. -/
theorem weave_qualified_join :
    let table : Source := .table ⟨"t", none, ⟨1, some "a"⟩, none⟩
    let with_ : Source := .cte "w"
    let q : Query :=
      { Query.start 0 .postgres with
        sources := [.table ⟨"t", none, ⟨1, some "a"⟩, none⟩]
        joins := [⟨.cte "w", .left,
          .on ((Term.column "x" table).compare .eq (.column "x" with_)) none⟩]
        selects := [⟨.call
          { name := "SUM"
            arguments := [⟨.case [⟨(Term.column "y" table).isNull, .column "z" with_⟩] none, none⟩]
            filter := some (Term.column "u" table).isNull }, none⟩]
        groups := [.column "v" with_] }
    let column (source name : String) : List Token := [.ident source, .dot, .ident name]
    ∃ segments ts : List (List Token), segments.length = 7 ∧
      ((q.draft (.ofDialect .postgres)).finish {}).1 = .ok (weave segments ts) ∧
        ts = [column "a" "y", column "w" "z", column "a" "u", column "a" "x", column "w" "x",
          column "w" "v"] := by
  intro table with_ q column
  have hstop : (q.draft (.ofDialect .postgres)).stop = none :=
    Option.isNone_iff_eq_none.mp (by decide +kernel)
  have hcolumns : q.qualifiedColumns (.ofDialect .postgres) =
      [column "a" "y", column "w" "z", column "a" "u", column "a" "x", column "w" "x",
        column "w" "v"] := by decide +kernel
  have hjoin : q.joins ≠ [] := List.cons_ne_nil _ _
  have h := Draft.finish_of_complete hstop {}
  obtain ⟨segments, hlength, hts⟩ :=
    (weave_qualified rfl (.inl hjoin) (.ofDialect .postgres)).1 h
  rw [hcolumns] at hlength hts
  refine ⟨segments, _, hlength, ?_, rfl⟩
  rw [h, hts]

end Query

end SqlCompose
