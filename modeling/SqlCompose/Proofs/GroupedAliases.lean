import SqlCompose.Proofs.FoldedFilters
import SqlCompose.Proofs.References
import SqlCompose.Proofs.Unbound
import SqlCompose.Proofs.WrittenAliases
import SqlCompose.Proofs.WrittenLists

/-! # Grouped aliases — GROUP BY where it may not name an alias

    In some dialects GROUP BY may not name an alias of the select list. There a grouped term is
    written out, and one that goes by the name of a selected term is written as that term is,
    without a request for its alias. That keeps an alias out of the clause if it is one that is
    written on request, and not if the kind of the term insists on it.

    * `Query.groupedTerm`, `Query.groupedTerms` — the terms that are written in such a GROUP BY.
    * `Query.grouped_eq`, `Query.draft_eq_grouped` — the clause is written of them, and where it
      stands.
    * `Query.grouped_wraps` — which aliases are written in it.
    * `Query.ShowsGroups`, `Query.grouped_aliases` — what that says about the tokens. -/

namespace SqlCompose

open Draft

/-! ## Terms that are not asked for their alias -/

/-- A column has no alias in it. -/
theorem Leaf.WrittenUnasked.aliases_of_isColumn {base : Context} {x : Leaf} {d : Draft}
    (hx : x.WrittenUnasked base d) (h : x.isColumn = true) : d.aliases = [] := by
  have hqualified {source : Option Source} (t : Token) (ht : t.alias? = none) :
      (Source.qualifier base source ++ token t).aliases = [] := by
    rw [aliases_append (Draft.complete.sourceQualifier base source), Source.aliases_qualifier]
    exact List.filterMap_cons_none ht
  cases x with
  | column name source => exact hx ▸ hqualified _ rfl
  | star source => exact hx ▸ hqualified _ rfl
  | statement nested q => exact absurd h Bool.false_ne_true
  | setOperation nested s => exact absurd h Bool.false_ne_true

/-- The term is written as the tokens: as without its alias, and with its alias behind that if its
    kind insists on it. -/
def Term.WritesUnnamed (ctx : Context) (t : Term) (ts : List Token) : Prop :=
  ∃ us vs : List Token, (Term.draft ctx ⟨t.expr, none⟩).Writes us ∧
    (when (t.expr.insists ctx.binding) (ctx.aliasDraft t.aliasName)).Writes vs ∧ ts = us ++ vs

/-- Terms that are not asked for their aliases are written so, one as each of the lists. -/
theorem Term.WriteAll.unnamed {ctx : Context} (hdeclares : ctx.declares = false) {terms : List Term}
    {lists : List (List Token)} (h : Term.WriteAll ctx terms lists) :
    List.Forall₂ (Term.WritesUnnamed ctx) terms lists := by
  refine h.imp ?_
  intro t ts hts
  rw [t.draft_eq_unnamed hdeclares] at hts
  exact hts.of_append

namespace Query

/-! ## The terms that are written -/

/-- What is written for a grouped term: the first selected term that goes by its name, and the term
    itself if there is none. -/
def groupedTerm (q : Query) (t : Term) : Term :=
  (t.knownAs.bind fun name => q.selects.find? fun s => s.knownAs == some name).getD t

/-- The terms that are written in GROUP BY. -/
def groupedTerms (q : Query) : List Term := q.groups.map q.groupedTerm

/-- The statements that are nested in these terms. -/
def groupedStatements (q : Query) : List Leaf :=
  (termLeaves false q.groupedTerms).filter (!·.isColumn)

/-- The words behind the grouped terms. -/
def groupWords (q : Query) : List Token :=
  (if q.withTotals then [.space, .keyword .with_, .space, .keyword .totals] else []) ++
    if q.withRollup then [.space, .keyword .with_, .space, .keyword .rollup] else []

/-- The tokens of a GROUP BY of terms that are written as these lists. -/
def groupTokens (q : Query) (lists : List (List Token)) : List Token :=
  .space :: .keyword .groupBy :: .space :: (Token.joined .comma lists ++ q.groupWords)

theorem namedDraft?_eq (ctx : Context) (name : String) (ts : List Term) :
    namedDraft? ctx name ts =
      (ts.find? fun s => s.knownAs == some name).map fun s => s.draft ctx := by
  induction ts with
  | nil => rfl
  | cons t rest ih =>
    rw [namedDraft?, List.find?_cons]
    cases t.knownAs == some name with
    | true => rfl
    | false => exact ih

theorem groupDrafts_eq (ctx : Context) (q : Query) (ts : List Term) :
    groupDrafts ctx (fun name => namedDraft? ctx name q.selects) ts =
      termDrafts ctx (ts.map q.groupedTerm) := by
  induction ts with
  | nil => rfl
  | cons t rest ih =>
    have hterm : (t.knownAs.bind fun name => namedDraft? ctx name q.selects).getD (t.draft ctx) =
        (q.groupedTerm t).draft ctx := by
      rw [groupedTerm]
      cases t.knownAs with
      | none => rfl
      | some name =>
        simp only [Option.bind_some, namedDraft?_eq]
        cases q.selects.find? fun s => s.knownAs == some name <;> rfl
    rw [groupDrafts, hterm, ih]
    rfl

/-- A grouped term that goes by the name of a selected one gives way to such a term; any other one
    does not. -/
theorem groupedTerm_cases (q : Query) (t : Term) :
    (∃ name, t.knownAs = some name ∧ name ∈ q.selectedAliases ∧ q.groupedTerm t ∈ q.selects ∧
      (q.groupedTerm t).knownAs = some name) ∨
    (∀ name, t.knownAs = some name → name ∉ q.selectedAliases) ∧ q.groupedTerm t = t := by
  cases hknown : t.knownAs with
  | none => exact .inr ⟨nofun, by rw [groupedTerm, hknown]; rfl⟩
  | some name =>
    have hterm : q.groupedTerm t =
        (q.selects.find? fun s => s.knownAs == some name).getD t := by
      rw [groupedTerm, hknown]
      rfl
    cases hfound : q.selects.find? fun s => s.knownAs == some name with
    | some s =>
      have hmem := List.mem_of_find?_eq_some hfound
      have hname : s.knownAs = some name := by simpa using List.find?_some hfound
      rw [hfound] at hterm
      exact .inl ⟨name, rfl, List.mem_filterMap.mpr ⟨s, hmem, hname⟩, hterm ▸ hmem, hterm ▸ hname⟩
    | none =>
      -- no selected term of that name is found, so the name is not selected
      rw [hfound] at hterm
      refine .inr ⟨?_, hterm⟩
      rintro _ ⟨⟩ hselected
      obtain ⟨s, hmem, hname⟩ := List.mem_filterMap.mp hselected
      exact List.find?_eq_none.mp hfound s hmem (by simpa using hname)

/-! ## Where the clause stands -/

/-- The clause is written of the terms, wherever an alias may not be named. -/
theorem grouped_eq {ctx : Context} (hctx : ctx.groupByAlias = false) {q : Query}
    (hgroups : q.groups ≠ []) :
    Clause.grouped ctx q q.parts =
      tokens [.space, .keyword .groupBy, .space] ++
        (commas (termDrafts ctx q.groupedTerms) ++ tokens q.groupWords) := by
  have hdrafts : q.parts.groups ctx (fun name => q.parts.selected ctx name) =
      termDrafts ctx q.groupedTerms := by
    rw [q.parts_eq]
    exact groupDrafts_eq ctx q q.groups
  have hsome : (termDrafts ctx q.groupedTerms).isEmpty = false := by
    rw [termDrafts_eq_map, List.isEmpty_eq_false_iff, groupedTerms, List.map_map]
    exact List.map_eq_nil_iff.not.mpr hgroups
  have hwords : when q.withTotals (space ++ words [.with_, .totals]) ++
      when q.withRollup (space ++ words [.with_, .rollup]) = tokens q.groupWords := by
    rw [groupWords]
    cases q.withTotals <;> cases q.withRollup <;> rfl
  simp only [Clause.grouped, hctx, Bool.false_eq_true, if_false, hdrafts, hsome]
  rw [append_assoc, hwords]
  exact append_assoc _ _ _

/-- What a statement is written as in front of GROUP BY. -/
def beforeGroups (outer : Context) (q : Query) : Draft :=
  let ctx := q.innerContext outer
  when outer.nested (token .lparen) ++
    (FilterClause.filter.before ctx q ++ FilterClause.filter.draft ctx q)

/-- What stands behind it. -/
def afterGroups (outer : Context) (q : Query) : Draft :=
  let ctx := q.innerContext outer
  FilterClause.groupFilter.draft ctx q ++ FilterClause.tail ctx q ++
    when outer.nested (token .rparen) ++ q.behind outer

theorem draft_eq_grouped {q : Query} (hselection : q.isSelection = true) (outer : Context) :
    q.draft outer =
      q.beforeGroups outer ++
        (Clause.grouped (q.innerContext outer) q q.parts ++ q.afterGroups outer) := by
  have hinside : q.inside outer =
      FilterClause.filter.before (q.innerContext outer) q ++
        FilterClause.filter.draft (q.innerContext outer) q ++
          FilterClause.filter.after (q.innerContext outer) q :=
    FilterClause.filter.selection_eq (q.innerContext outer) q
  rw [draft_of_isSelection hselection, hinside, parensIf_append]
  simp only [beforeGroups, afterGroups, FilterClause.after, append_assoc]

/-! ## What is written in it -/

/-- The tokens are those of a statement with this GROUP BY in it. -/
def ShowsGroups (outer : Context) (q : Query) (clause ts : List Token) : Prop :=
  ∃ (before after : List Token) (lists : List (List Token)),
    (q.beforeGroups outer).Writes before ∧ (q.afterGroups outer).Writes after ∧
    List.Forall₂ (Term.WritesUnnamed (q.innerContext outer)) q.groupedTerms lists ∧
    clause = q.groupTokens lists ∧ ts = before ++ clause ++ after

/-- The clause is written around the statements that are nested in its terms, with the aliases in it
    that the terms are written with unasked. -/
theorem grouped_wraps {ctx : Context} (hctx : ctx.groupByAlias = false)
    (hnested : ctx.nested = false) (hdeclares : ctx.declares = false) {q : Query}
    (hgroups : q.groups ≠ []) :
    Wraps (Leaf.WrittenUnasked ctx) (Clause.grouped ctx q q.parts) q.groupedStatements
      (q.groupedTerms.flatMap (Term.unasked ctx.binding)) := by
  have hterms := (termDrafts_wraps (.refl ctx) hdeclares q.groupedTerms).commas
  rw [hnested, termsUnasked_eq_flatMap] at hterms
  -- columns and stars are part of the text: only the nested statements are left as gaps in it
  have hstatements := hterms.filter (!·.isColumn) fun x d hx htest =>
    hx.aliases_of_isColumn (by simpa using htest)
  have hwords : (tokens q.groupWords).aliases = [] := by
    rw [aliases_tokens, groupWords]
    cases q.withTotals <;> cases q.withRollup <;> rfl
  rw [grouped_eq hctx hgroups]
  exact (hstatements.before hwords).behind rfl

/-- **Aliases in a GROUP BY that may not name one.** Let a statement of one of these dialects
    select rows and group them, and be written anywhere.
    * The tokens of its GROUP BY are those of its grouped terms, each written as without its alias,
      and with the alias behind only if the kind of the term insists on it.
    * The aliases in the clause, outside of nested statements, which are not asked for theirs, are
      exactly those that the terms are written with unasked: none if no kind that insists on its
      alias has one in them.
    * Where a grouped term goes by the name of a selected one, it is a selected term of that name
      that is written, and else the term itself. -/
theorem grouped_aliases {q : Query} (hdialect : q.dialect = .oracle ∨ q.dialect = .mssql)
    (hselection : q.isSelection = true) (hgroups : q.groups ≠ []) {outer : Context}
    {p p' : Parameters} {ts : List Token} (h : (q.draft outer).finish p = (.ok ts, p')) :
    let ctx := q.innerContext outer
    (∃ clause : List Token, q.ShowsGroups outer clause ts ∧
      Weaves (Leaf.WrittenUnasked ctx) q.groupedStatements
        (q.groupedTerms.flatMap (Term.unasked ctx.binding)) clause) ∧
    ∀ t ∈ q.groups,
      (∃ name, t.knownAs = some name ∧ name ∈ q.selectedAliases ∧ q.groupedTerm t ∈ q.selects ∧
        (q.groupedTerm t).knownAs = some name) ∨
      (∀ name, t.knownAs = some name → name ∉ q.selectedAliases) ∧ q.groupedTerm t = t := by
  intro ctx
  have hctx : ctx.groupByAlias = false := by
    show (q.dialect.groupsByAlias && _) = false
    rcases hdialect with hdialect | hdialect <;> rw [hdialect] <;> rfl
  refine ⟨?_, fun t _ => q.groupedTerm_cases t⟩
  have hwrites : (q.draft outer).Writes ts := ⟨p, p', h⟩
  rw [draft_eq_grouped hselection] at hwrites
  obtain ⟨before, rest, hbefore, hrest, rfl⟩ := hwrites.of_append
  obtain ⟨clause, after, hclause, hafter, rfl⟩ := hrest.of_append
  refine ⟨clause, ?_, ?_⟩
  -- the same tokens are read twice: as lists of terms, and as a text around nested statements
  · rw [grouped_eq hctx hgroups] at hclause
    obtain ⟨us, hus, rfl⟩ := Writes.of_behind _ hclause
    obtain ⟨terms, words, hterms, hwords, rfl⟩ := hus.of_append
    obtain ⟨lists, hlists, rfl⟩ := Term.writeAll_of_commas hterms
    obtain rfl := Writes.of_tokens hwords
    have hregroup := (List.append_assoc before (q.groupTokens lists) after).symm
    exact ⟨before, after, lists, hbefore, hafter, hlists.unnamed rfl, rfl, hregroup⟩
  · obtain ⟨p₁, p₂, hfinish⟩ := hclause
    exact (grouped_wraps hctx rfl rfl hgroups).finish hfinish

/-- A grouped column that gives way to a selected sum of the same name. -/
theorem grouped_aliases_selected :
    let next : Term := ⟨.arithmetic .add (.field "a") (.value (.int 1)), some "x"⟩
    let q : Query :=
      { start 1 .mssql with
        sources := [.table (.named 2 "t")]
        selects := [next]
        groups := [⟨.field "b" none, some "x"⟩] }
    let ctx := Context.ofDialect .mssql
    ∃ ts clause, ((q.draft ctx).finish {}).1 = .ok ts ∧
      Token.texts ctx ts = "SELECT \"a\"+1 \"x\" FROM \"t\" GROUP BY \"a\"+1" ∧
      q.ShowsGroups ctx clause ts ∧
      Weaves (Leaf.WrittenUnasked (q.innerContext ctx)) [] [] clause := by
  intro next q ctx
  have htext : ((q.draft ctx).finish {}).1.toOption.map (Token.texts ctx) =
      some "SELECT \"a\"+1 \"x\" FROM \"t\" GROUP BY \"a\"+1" := by
    decide +kernel
  obtain ⟨ts, hts, htext⟩ := exists_ok_of_map htext
  have hfinish : (q.draft ctx).finish {} = (.ok ts, ((q.draft ctx).finish {}).2) := Prod.ext hts rfl
  obtain ⟨⟨clause, hshows, hweaves⟩, -⟩ :=
    grouped_aliases (q := q) (.inr rfl) rfl (List.cons_ne_nil _ _) hfinish
  exact ⟨ts, clause, hts, htext, hshows, hweaves⟩

/-- A test of null is grouped with its alias behind it. -/
theorem grouped_alias_insisted :
    let missing : Term := ⟨.isNull (.field "a"), some "x"⟩
    let text := "SELECT \"a\" IS NULL \"x\" FROM \"t\" GROUP BY \"a\" IS NULL \"x\""
    let list : List Token := [.ident "a", .space, .keyword .isNull, .space, .aliasName "x"]
    let isGrouped (d : Dialect) : Prop :=
      ∃ q : Query,
        Step.run (.start 1 d) [.readFrom (.table (.named 2 "t")), .select [.term missing],
          .groupBy [.term missing]] = .ok q ∧
        q.sql = .ok text ∧ q.groupedStatements = [] ∧
        q.groupTokens [list] <:+ (q.draft (.ofDialect d)).written
    isGrouped .oracle ∧ isGrouped .mssql := by
  intro missing text list isGrouped
  constructor
  · exact ⟨_, rfl, by decide +kernel, rfl, by decide +kernel⟩
  · exact ⟨_, rfl, by decide +kernel, rfl, by decide +kernel⟩

end Query

end SqlCompose
