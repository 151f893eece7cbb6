import SqlCompose.Proofs.DefinitionLockstep
import SqlCompose.Proofs.Inspection

/-! # Inspected trees — a property holds of all that is written of a tree

    An inspection checks single parts. Here its checks are carried through all trees, one theorem
    for each function that drafts a part, by recursion over the part. The property is assumed of
    nothing but the parts that the inspection names; clauses and definitions add nothing of their
    own.

    * `Term.holds`, `SetOperation.holds` and their like — the recursion.
    * `Node.holds`, `Writing.holds` — the property holds of a node and of a definition. -/

namespace SqlCompose

open Draft

section

variable {S : Inspection}

/-! ## Recursion over the tree -/

/-- The shorter draft of a term, if its name has one. -/
theorem short_holds {short : String → Option Draft} (hs : ∀ name, ∀ d ∈ short name, S.holds d)
    (t : Term) : ∀ d ∈ t.knownAs.bind short, S.holds d := by
  intro d hd
  obtain ⟨name, -, hshort⟩ := Option.bind_eq_some_iff.mp hd
  exact hs name d hshort

mutual

/-- What is written of a term. -/
theorem Term.holds (ctx : Context) : (t : Term) → t.Everywhere S.part → S.holds (t.draft ctx)
  | ⟨expr, aliasName⟩, ht => Expr.holds ctx aliasName expr ht.1 ht.2

/-- What is written of an expression, by its kind. -/
theorem Expr.holds (ctx : Context) (aliasName : Option String) :
    (e : Expr) → S.part (.expr e) → e.Below S.part → S.holds (e.draft ctx aliasName)
  | .literal _, _, _ => S.closure.behind rfl (S.closure.aliasDraft ctx aliasName)
  | .value _ _, hpart, _ =>
    S.closure.append (S.value ctx hpart) (S.closure.aliasDraft ctx aliasName)
  | .field _ source, _, _ => by
    have h := S.closure
    exact h.append (h.before (h.sourceQualifier ctx source) rfl) (h.declaration ctx aliasName)
  | .star source, _, _ => S.closure.before (S.closure.sourceQualifier ctx source) rfl
  | .tuple items, _, hbelow => by
    have h := S.closure
    exact h.append (h.parens (h.commas (termDrafts_holds ctx items hbelow)))
      (h.aliasDraft ctx aliasName)
  | .array items, _, hbelow => by
    have h := S.closure
    have hitems := h.array ctx.dialect (termDrafts_holds ctx items hbelow)
    rw [Expr.draft]
    -- an array of constants that are bound is one hole
    split
    · exact h.plain rfl
    · exact h.append hitems (h.aliasDraft ctx aliasName)
  | .call c, hpart, hbelow =>
    S.closure.append (Call.holds ctx c hpart hbelow) (S.closure.declaration ctx aliasName)
  | .case branches otherwise, hpart, hbelow => by
    have h := S.closure
    have hbranches := branchesDraft_holds { ctx with declares := false } branches hbelow.1
    have helse := elseDraft_holds { ctx with declares := false } otherwise hbelow.2
    show S.holds (if _ then _ else _)
    -- without branches nothing is written but an error, and the inspection is asked about that
    split
    · next hnone =>
      obtain rfl := List.isEmpty_iff.mp hnone
      exact S.branchless hpart
    · exact h.append (h.before (h.before (h.append (h.behind rfl hbranches) helse) rfl) rfl)
        (h.declaration ctx aliasName)
  | .interval _, _, _ => S.closure.plain rfl
  | .document _, _, _ => S.closure.behind rfl (S.closure.aliasDraft ctx aliasName)
  | .arithmetic op left right, _, hbelow => by
    have h := S.closure
    have hleft := h.parensIf (op.bracketsLeft left.arithmeticOp?) (Term.holds ctx left hbelow.1)
    have hright := h.parensIf (op.bracketsRight right.arithmeticOp?)
      (Term.holds ctx right hbelow.2)
    exact h.append (h.append (h.before hleft rfl) hright) (h.declaration ctx aliasName)
  | .negative operand, _, hbelow => S.closure.behind rfl (Term.holds ctx operand hbelow)
  | .parameter _, _, _ => S.closure.plain rfl
  | .comparison _ left right, _, hbelow => by
    have h := S.closure
    have hleft := Term.holds ctx left hbelow.1
    have hright := Term.holds ctx right hbelow.2
    exact h.append (h.append (h.before hleft rfl) hright) (h.declaration ctx aliasName)
  | .combination op left right, _, hbelow => by
    have h := S.closure
    have hleft := Term.holds { ctx with bracketed := left.differsFrom op } left hbelow.1
    have hright := Term.holds { ctx with bracketed := right.differsFrom op } right hbelow.2
    have hword : (word op.keyword).isPlain = true := by cases op <;> rfl
    exact h.parensIf _ (h.append (h.before (h.before (h.before hleft rfl) hword) rfl) hright)
  | .chain _ _ left middle right, _, hbelow => by
    have h := S.closure
    have hleft := Term.holds ctx left hbelow.1
    have hmiddle := Term.holds ctx middle hbelow.2.1
    have hright := Term.holds ctx right hbelow.2.2
    exact h.append (h.append (h.before (h.append (h.before hleft rfl) hmiddle) rfl) hright)
      (h.declaration ctx aliasName)
  | .membership operand container negated, _, hbelow => by
    have h := S.closure
    have hoperand := h.before (b := space) (Term.holds ctx operand hbelow.1) rfl
    have hcontainer := Term.holds { ctx with nested := true } container hbelow.2
    have hnot : S.holds (when negated (word .not ++ space)) := h.when _ (h.plain rfl)
    exact h.append (h.append (h.before (h.before (h.append hoperand hnot) rfl) rfl) hcontainer)
      (h.aliasDraft ctx aliasName)
  | .between operand lower upper, _, hbelow => by
    have h := S.closure
    have hoperand := Term.holds ctx operand hbelow.1
    have hlower : S.holds (clause [.between] (lower.draft ctx)) :=
      h.clause rfl (Term.holds ctx lower hbelow.2.1)
    have hupper : S.holds (clause [.and] (upper.draft ctx)) :=
      h.clause rfl (Term.holds ctx upper hbelow.2.2)
    exact h.append (h.append (h.append hoperand hlower) hupper) (h.aliasDraft ctx aliasName)
  | .period operand start stop, _, hbelow => by
    have h := S.closure
    have hoperand := Term.holds ctx operand hbelow.1
    have hstart : S.holds (clause [.from_] (start.draft ctx)) :=
      h.clause rfl (Term.holds ctx start hbelow.2.1)
    have hto := h.before (b := space) (h.before (b := raw "TO")
      (h.before (b := space) (h.append hoperand hstart) rfl) rfl) rfl
    have hstop := Term.holds ctx stop hbelow.2.2
    exact h.append (h.append hto hstop) (h.aliasDraft ctx aliasName)
  | .bitAnd operand _, _, hbelow => by
    have h := S.closure
    exact h.append (h.parens (h.before (h.before (Term.holds ctx operand hbelow) rfl) rfl))
      (h.aliasDraft ctx aliasName)
  | .isNull operand, _, hbelow => by
    have h := S.closure
    exact h.append (h.before (h.before (Term.holds ctx operand hbelow) rfl) rfl)
      (h.aliasDraft ctx aliasName)
  | .not operand, _, hbelow => by
    have h := S.closure
    exact h.append (h.behind rfl (Term.holds { ctx with bracketed := true } operand hbelow))
      (h.aliasDraft ctx aliasName)
  | .all operand, _, hbelow => by
    have h := S.closure
    exact h.append (h.before (h.before (Term.holds ctx operand hbelow) rfl) rfl)
      (h.aliasDraft ctx aliasName)
  | .jsonPath column path, _, hbelow => by
    have h := S.closure
    exact h.append (h.jsonPath ctx.dialect (Term.holds ctx column hbelow) path)
      (h.declaration ctx aliasName)
  | .subquery q, _, hbelow =>
    Clause.statement_holds (Query.parts_hold q hbelow.1 hbelow.2) ctx
  | .setOperation s, _, hbelow => SetOperation.holds ctx s hbelow.1 hbelow.2
  | .insertedValue field, _, hbelow =>
    S.closure.behind rfl (S.closure.parens (Term.holds ctx field hbelow))
  | .index _, _, _ => S.closure.plain rfl
  | .pseudoColumn _, _, _ => S.closure.plain rfl
  | .atTimeZone operand _ isInterval, _, hbelow => by
    have h := S.closure
    have hoperand := Term.holds ctx operand hbelow
    have hinterval : S.holds (when isInterval (word .interval ++ space)) := h.when _ (h.plain rfl)
    have hat := h.append (h.before (b := space) (h.before (b := word .atTimeZone)
      (h.before (b := space) hoperand rfl) rfl) rfl) hinterval
    exact h.append (h.before hat rfl) (h.aliasDraft ctx aliasName)
  | .empty, _, _ => S.closure.empty

/-- What is written of terms, each by itself. -/
theorem termDrafts_holds (ctx : Context) :
    (ts : List Term) → termsEverywhere S.part ts → ∀ d ∈ termDrafts ctx ts, S.holds d
  | [], _ => List.forall_mem_nil _
  | t :: rest, hts =>
    List.forall_mem_cons.mpr ⟨Term.holds ctx t hts.1, termDrafts_holds ctx rest hts.2⟩

/-- What is written of rows, each by itself. -/
theorem rowDrafts_holds (ctx : Context) :
    (rows : List (List Term)) → rowsEverywhere S.part rows → ∀ d ∈ rowDrafts ctx rows, S.holds d
  | [], _ => List.forall_mem_nil _
  | row :: rest, hrows =>
    List.forall_mem_cons.mpr
      ⟨S.closure.parens (S.closure.commas (termDrafts_holds ctx row hrows.1)),
        rowDrafts_holds ctx rest hrows.2⟩

/-- What is written of the first term that goes by a name. -/
theorem namedDraft_holds (ctx : Context) (name : String) :
    (ts : List Term) → termsEverywhere S.part ts → ∀ d ∈ namedDraft? ctx name ts, S.holds d
  | [], _ => Closure.none
  | t :: rest, hts => by
    have hdraft := Term.holds ctx t hts.1
    have hrest := namedDraft_holds ctx name rest hts.2
    rw [namedDraft?]
    split
    · exact Closure.some hdraft
    · exact hrest

/-- What is written of terms to group by, in short or in full. -/
theorem groupDrafts_holds (ctx : Context) {short : String → Option Draft}
    (hs : ∀ name, ∀ d ∈ short name, S.holds d) :
    (ts : List Term) → termsEverywhere S.part ts → ∀ d ∈ groupDrafts ctx short ts, S.holds d
  | [], _ => List.forall_mem_nil _
  | t :: rest, hts =>
    List.forall_mem_cons.mpr ⟨Closure.getD (short_holds hs t) (Term.holds ctx t hts.1),
      groupDrafts_holds ctx hs rest hts.2⟩

/-- What is written of the branches of a CASE. -/
theorem branchesDraft_holds (ctx : Context) :
    (bs : List Branch) → branchesEverywhere S.part bs → S.holds (branchesDraft ctx bs)
  | [], _ => S.closure.empty
  | ⟨condition, result⟩ :: rest, hbs => by
    have h := S.closure
    have hwhen : S.holds (clause [.when] (condition.draft ctx)) :=
      h.clause rfl (Term.holds ctx condition hbs.1)
    have hthen : S.holds (clause [.then_] (result.draft ctx)) :=
      h.clause rfl (Term.holds ctx result hbs.2.1)
    exact h.append (h.append hwhen hthen) (branchesDraft_holds ctx rest hbs.2.2)

/-- What is written of the last branch of a CASE. -/
theorem elseDraft_holds (ctx : Context) :
    (t : Option Term) → optionEverywhere S.part t → S.holds (elseDraft ctx t)
  | none, _ => S.closure.empty
  | some t, ht => S.closure.clause rfl (Term.holds ctx t ht)

/-- What is written of a call. -/
theorem Call.holds (ctx : Context) :
    (c : Call) → S.part (.expr (.call c)) → c.Everywhere S.part → S.holds (c.draft ctx)
  | ⟨name, arguments, schema, suffix, bare, aggregate, distinct, filter, window, frame⟩, hpart,
    hbelow => by
    have h := S.closure
    have harguments := h.commas
      (termDrafts_holds { ctx with declares := false } arguments hbelow.1)
    have hsuffix := suffixDraft_holds ctx suffix hbelow.2.1
    have hfilter := filterDraft_holds ctx filter (fun _ ht => Call.filter_holds hpart ht)
      hbelow.2.2.1
    have hwindow := windowDraft_holds ctx frame window hbelow.2.2.2
    have hhead : S.holds (Schema.qualifier schema ++ token (.function name)) :=
      h.before (h.schemaQualifier schema) rfl
    have hdistinct : S.holds (when distinct (word .distinct ++ space)) := h.when _ (h.plain rfl)
    have hinside := h.parens (h.append (h.append hdistinct harguments) hsuffix)
    show S.holds (if bare then _ else _)
    split
    · exact hhead
    · exact h.append (h.append (h.append hhead hinside) hfilter) hwindow

/-- What is written behind the arguments of a call. -/
theorem suffixDraft_holds (ctx : Context) :
    (s : Option CallSuffix) → suffixEverywhere S.part s → S.holds (suffixDraft ctx s)
  | none, _ => S.closure.empty
  | some (.words _), _ => S.closure.plain rfl
  | some .ignoreNulls, _ => S.closure.plain rfl
  | some (.source t), ht => S.closure.clause rfl (Term.holds ctx t ht)

/-- What is written of an aggregate's filter. -/
theorem filterDraft_holds (ctx : Context) :
    (filter : Option Term) →
      (∀ t ∈ filter, S.holds (t.draft ctx) →
        S.holds (CriterionPlace.aggregate.introduce (t.draft ctx))) →
        optionEverywhere S.part filter → S.holds (filterDraft ctx filter)
  | none, _, _ => S.closure.empty
  | some t, hfilter, ht => hfilter t rfl (Term.holds ctx t ht)

/-- What is written of a window. -/
theorem windowDraft_holds (ctx : Context) (frame : Option Frame) :
    (w : Option Window) → windowEverywhere S.part w → S.holds (windowDraft ctx frame w)
  | none, _ => S.closure.empty
  | some ⟨partition, orderings⟩, hw =>
    Clause.window_holds (termDrafts_holds ctx partition hw.1)
      (orderingDrafts_holds ctx (fun _ => Closure.none) orderings hw.2) frame

/-- What is written of terms to sort by, in short or in full. -/
theorem orderingDrafts_holds (ctx : Context) {short : String → Option Draft}
    (hs : ∀ name, ∀ d ∈ short name, S.holds d) :
    (os : List Ordering) → orderingsEverywhere S.part os →
      ∀ d ∈ orderingDrafts ctx short os, S.holds d
  | [], _ => List.forall_mem_nil _
  | ⟨term, direction⟩ :: rest, hos => by
    have hterm := Closure.getD (short_holds hs term) (Term.holds ctx term hos.1)
    exact List.forall_mem_cons.mpr
      ⟨S.closure.append hterm (S.closure.directionSuffix direction),
        orderingDrafts_holds ctx hs rest hos.2⟩

/-- What is written of a table. -/
theorem Table.holds (ctx : Context) (aliasName : Option String) :
    (t : Table) → t.Below S.part → S.holds (t.draftAs ctx aliasName)
  | ⟨name, schema, _, temporal⟩, hbelow => by
    have h := S.closure
    have hname : S.holds (Schema.qualifier schema ++ token (.ident name)) :=
      h.before (h.schemaQualifier schema) rfl
    have htemporal := temporalDraft_holds ctx temporal hbelow
    exact h.append (h.append hname htemporal) (h.aliasDraft ctx aliasName)

/-- What is written of the stretch of time behind a table. -/
theorem temporalDraft_holds (ctx : Context) :
    (t : Option Temporal) → temporalEverywhere S.part t → S.holds (temporalDraft ctx t)
  | none, _ => S.closure.empty
  | some (.period t), ht => S.closure.clause rfl (Term.holds ctx t ht)
  | some (.portion t), ht => S.closure.clause rfl (Term.holds ctx t ht)

/-- What is written of a table that may be missing. -/
theorem targetDraft_holds (ctx : Context) (aliasName : Option String) :
    (t : Option Table) → targetEverywhere S.part t → S.holds (targetDraft ctx aliasName t)
  | none, _ => S.closure.empty
  | some t, ht => Table.holds ctx aliasName t ht.2

/-- What is written of an item of FROM or JOIN. -/
theorem FromItem.holds (ctx : Context) :
    (item : FromItem) → item.Everywhere S.part → S.holds (item.draft ctx)
  | .table t, ht => Table.holds ctx _ t ht.2
  | .query q, hq => Clause.statement_holds (Query.parts_hold q hq.1 hq.2) ctx
  | .setOperation s, hs => SetOperation.holds ctx s hs.1 hs.2
  | .cte _, _ => S.closure.plain rfl

/-- What is written of items of FROM, each by itself. -/
theorem itemDrafts_holds (ctx : Context) :
    (items : List FromItem) → itemsEverywhere S.part items → ∀ d ∈ itemDrafts ctx items, S.holds d
  | [], _ => List.forall_mem_nil _
  | item :: rest, hitems =>
    List.forall_mem_cons.mpr
      ⟨FromItem.holds ctx item hitems.1, itemDrafts_holds ctx rest hitems.2⟩

/-- What is written of WITH clauses, each by itself. -/
theorem cteDrafts_holds (ctx : Context) :
    (ctes : List Cte) → ctesEverywhere S.part ctes → ∀ d ∈ cteDrafts ctx ctes, S.holds d
  | [], _ => List.forall_mem_nil _
  | ⟨name, body, columns⟩ :: rest, hctes => by
    have h := S.closure
    have hcolumns := h.parens (h.commas
      (termDrafts_holds { ctx with qualified := false } columns hctes.1))
    have hbody : S.holds (clause [.as] (parens (body.draft
        { ctx with nested := false, declares := false }))) :=
      h.clause rfl (h.parens (FromItem.holds _ body hctes.2.1))
    exact List.forall_mem_cons.mpr
      ⟨h.before (h.append (h.behind rfl (h.when _ hcolumns)) hbody) rfl,
        cteDrafts_holds ctx rest hctes.2.2⟩

/-- What is written of the condition of a join. -/
theorem JoinCondition.holds (ctx : Context) :
    (j : JoinCondition) →
      (∀ t ∈ j.criterion?, ∀ ctx, S.holds (t.draft ctx) →
        S.holds (CriterionPlace.joined.introduce (t.draft ctx))) →
        j.Everywhere S.part → S.holds (j.draft ctx)
  | .none, _, _ => S.closure.empty
  | .on criterion collation, hcriterion, hj => by
    have hon := hcriterion criterion rfl _ (Term.holds { ctx with nested := true } criterion hj)
    cases collation with
    | none => exact S.closure.before hon rfl
    | some _ => exact S.closure.before hon rfl
  | .using fields, _, hj => by
    have h := S.closure
    exact h.clause rfl (h.parens (h.commas (termDrafts_holds ctx fields hj)))

/-- What is written of joined sources, each by itself. -/
theorem joinDrafts_holds (ctx : Context) :
    (joins : List Join) →
      (∀ j ∈ joins, ∀ t ∈ j.condition.criterion?, ∀ ctx, S.holds (t.draft ctx) →
        S.holds (CriterionPlace.joined.introduce (t.draft ctx))) →
        joinsEverywhere S.part joins → ∀ d ∈ joinDrafts ctx joins, S.holds d
  | [], _, _ => List.forall_mem_nil _
  | ⟨item, kind, condition⟩ :: rest, hcriteria, hjoins => by
    have h := S.closure
    obtain ⟨hfirst, hrest⟩ := List.forall_mem_cons.mp hcriteria
    have hitem := FromItem.holds { ctx with nested := true, declares := true } item hjoins.1
    have hcondition := JoinCondition.holds ctx condition hfirst hjoins.2.1
    exact List.forall_mem_cons.mpr
      ⟨h.append (h.append (h.joinHead kind) hitem) hcondition,
        joinDrafts_holds ctx rest hrest hjoins.2.2⟩

/-- What is written of columns and their new values. -/
theorem assignmentDrafts_holds (ctx : Context) :
    (as : List Assignment) → assignmentsEverywhere S.part as →
      ∀ d ∈ assignmentDrafts ctx as, S.holds d
  | [], _ => List.forall_mem_nil _
  | ⟨field, value⟩ :: rest, has => by
    have h := S.closure
    have hfield := Term.holds { ctx with qualified := false } field has.1
    have hvalue := Term.holds { ctx with nested := true } value has.2.1
    exact List.forall_mem_cons.mpr
      ⟨h.append (h.before hfield rfl) hvalue, assignmentDrafts_holds ctx rest has.2.2⟩

/-- What is written of columns and their new values in a conflict clause. -/
theorem resolutionDrafts_holds (fieldCtx valueCtx : Context) {inserted : Draft → Draft}
    (hi : ∀ {d}, S.holds d → S.holds (inserted d)) :
    (rs : List Resolution) → resolutionsEverywhere S.part rs →
      ∀ d ∈ resolutionDrafts fieldCtx valueCtx inserted rs, S.holds d
  | [], _ => List.forall_mem_nil _
  | ⟨field, value⟩ :: rest, hrs => by
    have h := S.closure
    have hfield := Term.holds fieldCtx field hrs.1
    have hvalue := Closure.getD (valueDraft_holds valueCtx value hrs.2.1) (hi hfield)
    exact List.forall_mem_cons.mpr
      ⟨h.append (h.before hfield rfl) hvalue,
        resolutionDrafts_holds fieldCtx valueCtx hi rest hrs.2.2⟩

/-- What is written of a value that may be missing. -/
theorem valueDraft_holds (ctx : Context) :
    (t : Option Term) → optionEverywhere S.part t → ∀ d ∈ valueDraft? ctx t, S.holds d
  | none, _ => Closure.none
  | some t, ht => Closure.some (Term.holds ctx t ht)

/-- The parts of a conflict clause, given what its criteria are with their words. -/
theorem Conflict.parts_hold :
    (c : Conflict) →
      (c.targetFilter.isEmpty = false → ∀ ctx, S.holds (c.targetFilter.draft ctx) →
        S.holds (clause [.where_] (c.targetFilter.draft ctx))) →
      (c.updateFilter.isEmpty = false → ∀ ctx, S.holds (c.updateFilter.draft ctx) →
        S.holds (clause [.where_] (c.updateFilter.draft ctx))) →
        c.Everywhere S.part → c.parts.Hold S c
  | ⟨_, fields, _, resolutions, targetFilter, updateFilter⟩, htarget, hupdate, hc =>
    { fields := fun ctx => termDrafts_holds ctx fields hc.1
      resolutions := fun fieldCtx valueCtx _ hi =>
        resolutionDrafts_holds fieldCtx valueCtx hi resolutions hc.2.1
      targetFilter := fun hasks ctx => htarget hasks ctx (Term.holds ctx targetFilter hc.2.2.1)
      updateFilter := fun hasks ctx => hupdate hasks ctx (Term.holds ctx updateFilter hc.2.2.2) }

/-- The parts of a statement; its criteria are those that the inspection is asked about. -/
theorem Query.parts_hold :
    (q : Query) → S.part (.query q) → q.Below S.part → q.parts.Hold S q
  | {
      sources, ctes, selects, distinctOn, insertTable, updateTable, columns, rows, assignments,
      joins, prefilter, filter, groups, groupFilter, orderings, conflict, returns, .. },
    hpart,
    ⟨hsources, hctes, hselects, hdistinctOn, hinsertTable, hupdateTable, hcolumns, hrows,
      hassignments, hjoins, hprefilter, hfilter, hgroups, hgroupFilter, horderings, hconflict,
      hreturns⟩ =>
    { whole := hpart
      ctes := fun ctx => cteDrafts_holds ctx ctes hctes
      sources := fun ctx => itemDrafts_holds ctx sources hsources
      joins := fun ctx => joinDrafts_holds ctx joins
        (fun _ hj _ ht _ hd => Join.criterion_holds hpart hj ht hd) hjoins
      distinctOn := fun ctx => termDrafts_holds ctx distinctOn hdistinctOn
      selects := fun ctx => termDrafts_holds ctx selects hselects
      selected := fun ctx name => namedDraft_holds ctx name selects hselects
      insertTable := fun ctx aliasName => targetDraft_holds ctx aliasName insertTable hinsertTable
      updateTable := fun ctx aliasName => targetDraft_holds ctx aliasName updateTable hupdateTable
      columns := fun ctx => termDrafts_holds ctx columns hcolumns
      rows := fun ctx => rowDrafts_holds ctx rows hrows
      assignments := fun ctx => assignmentDrafts_holds ctx assignments hassignments
      prefilter := fun hasks ctx => Query.criterion_holds .priorRows hpart (by simp [Part.criteria])
        hasks (Term.holds ctx prefilter hprefilter)
      filter := fun hasks ctx => Query.criterion_holds .rows hpart (by simp [Part.criteria])
        hasks (Term.holds ctx filter hfilter)
      groups := fun ctx _ hs => groupDrafts_holds ctx hs groups hgroups
      groupFilter := fun hasks ctx => Query.criterion_holds .groups hpart
        (by simp [Part.criteria]) hasks (Term.holds ctx groupFilter hgroupFilter)
      orderings := fun ctx _ hs => orderingDrafts_holds ctx hs orderings horderings
      conflict := Conflict.parts_hold conflict
        (fun hasks _ => Query.criterion_holds .conflicts hpart (by simp [Part.criteria]) hasks)
        (fun hasks _ => Query.criterion_holds .updates hpart (by simp [Part.criteria]) hasks)
        hconflict
      returns := fun ctx => termDrafts_holds ctx returns hreturns }

/-- What is written of further operands, given what is made of operands that do not fit. -/
theorem operandsDraft_holds (ctx : Context) (count : Nat) {main : Draft} (hmain : S.holds main) :
    (os : List Operand) → operandsEverywhere S.part os →
      ((os.all fun o => o.query.selects.length == count) = false →
        ∀ other, S.holds other → S.holds (unequal ctx main other)) →
      S.holds (operandsDraft ctx count main os)
  | [], _, _ => S.closure.empty
  | ⟨_, query⟩ :: rest, hos, huneven => by
    have hother := Clause.statement_holds (Query.parts_hold query hos.1.1 hos.1.2) ctx
    rw [operandsDraft]
    split
    · next hcount =>
      have hcount : (query.selects.length == count) = false := by simpa using hcount
      refine huneven ?_ _ hother
      rw [List.all_cons, hcount, Bool.false_and]
    · next hcount =>
      have hcount : (query.selects.length == count) = true := by simpa using hcount
      have hrest := operandsDraft_holds ctx count hmain rest hos.2 fun hrest =>
        huneven (by rw [List.all_cons, hcount, hrest, Bool.true_and])
      exact S.closure.append (S.closure.behind rfl hother) hrest

/-- What is written of a set operation. -/
theorem SetOperation.holds (ctx : Context) :
    (s : SetOperation) → S.part (.setOperation s) → s.Below S.part → S.holds (s.draft ctx)
  | ⟨base, operands, orderings, limit, offset, slot⟩, hpart, ⟨hbase, hoperands, horderings⟩ => by
    have h := S.closure
    have hmain (ctx : Context) :=
      Clause.statement_holds (Query.parts_hold base hbase.1 hbase.2) ctx
    have hshort : ∀ name, ∀ d ∈ (if base.selectedAliases.contains name
        then some (token (.ident name)) else none), S.holds d := by
      intro name
      split
      · exact Closure.some (h.plain rfl)
      · exact Closure.none
    have hcount (n : Option Int64) : ∀ d ∈ n.map fun n => token (.int n), S.holds d := by
      intro d hd
      obtain ⟨n, -, rfl⟩ := Option.map_eq_some_iff.mp hd
      exact h.plain rfl
    have hpage := h.pagination base.dialect (!orderings.isEmpty) (hcount limit) (hcount offset)
    rw [SetOperation.draft]
    refine h.append (h.parensIf _ (h.append (h.append (h.append (hmain _) ?_) ?_) hpage))
      (h.declaration _ _)
    · exact operandsDraft_holds _ _ (hmain _) operands hoperands
        fun huneven _ => S.unequal _ hpart huneven (hmain _)
    · exact h.unlessNone rfl (orderingDrafts_holds _ hshort orderings horderings)

end

/-! ## All that is written -/

/-- What is written of a term, a statement or a set operation. -/
theorem Node.holds (ctx : Context) (n : Node) (hn : n.Everywhere S.part) :
    S.holds (n.draft ctx) := by
  cases n with
  | term t => exact Term.holds ctx t hn
  | query q => exact Clause.statement_holds (Query.parts_hold q hn.1 hn.2) ctx
  | setOperation s => exact SetOperation.holds ctx s hn.1 hn.2

namespace ColumnDefinition

/-- What is written of the definition of a column. -/
theorem holds (ctx : Context) (c : ColumnDefinition) (hc : optionEverywhere S.part c.default) :
    S.holds (c.draft ctx) := by
  have h := S.closure
  obtain ⟨name, type, nullable, default⟩ := c
  refine h.append (h.append (h.append (h.plain rfl) ?_) ?_) ?_
  · cases type with
    | none => exact h.empty
    | some text => exact h.plain rfl
  · rcases nullable with _ | _ | _ <;> exact h.plain rfl
  · cases default with
    | none => exact h.empty
    | some t => exact h.clause rfl (Term.holds ctx t hc)

/-- Lists of columns are lists of names. -/
theorem listDraft_holds (cs : List ColumnDefinition) : S.holds (listDraft cs) := by
  refine S.closure.parens (S.closure.commas ?_)
  intro d hd
  obtain ⟨c, -, rfl⟩ := List.mem_map.mp hd
  exact S.closure.plain rfl

end ColumnDefinition

namespace CreateTable

/-- Columns, periods and keys, each by itself. -/
theorem parts_hold (ctx : Context) (c : CreateTable)
    (hcolumns : ∀ column ∈ c.columns, optionEverywhere S.part column.default) :
    ∀ d ∈ c.parts ctx, S.holds d := by
  have h := S.closure
  simp only [parts, List.forall_mem_append]
  refine ⟨⟨⟨?_, ?_⟩, ?_⟩, ?_⟩
  · intro d hd
    obtain ⟨column, hmem, rfl⟩ := List.mem_map.mp hd
    exact column.holds ctx (hcolumns column hmem)
  · intro d hd
    obtain ⟨period, -, rfl⟩ := List.mem_map.mp hd
    exact h.behind rfl (ColumnDefinition.listDraft_holds _)
  · intro d hd
    obtain ⟨columns, -, rfl⟩ := List.mem_map.mp hd
    exact h.behind rfl (ColumnDefinition.listDraft_holds _)
  · exact Closure.onlyIf (List.forall_mem_singleton.mpr
      (h.behind rfl (ColumnDefinition.listDraft_holds _)))

/-- What is written of the definition of a table. -/
theorem holds (ctx : Context) (c : CreateTable) (hc : c.Everywhere S.part) :
    S.holds (c.draft ctx) := by
  have h := S.closure
  obtain ⟨htarget, hcolumns, hstatement⟩ := hc
  have hparts := c.parts_hold ctx hcolumns
  obtain ⟨dialect, _ | table, temporary, unlogged, ifNotExists, versioned, columns, periods,
    uniques, primaryKey, statement⟩ := c
  · exact h.empty
  · have hkind : S.holds (if temporary then word .temporary ++ space
        else when unlogged (word .unlogged ++ space)) := by
      split
      · exact h.plain rfl
      · exact h.when _ (h.plain rfl)
    have hexists : S.holds (when ifNotExists (words [.if_, .not, .exists_] ++ space)) :=
      h.when _ (h.plain rfl)
    have hcreate : S.holds (word .create ++ space ++ _) := h.behind rfl hkind
    have htable : S.holds (table.draft ctx) := Table.holds ctx _ table htarget.2
    have hhead := h.append (h.append (h.before (b := space)
      (h.before (b := word .table) hcreate rfl) rfl) hexists) htable
    cases statement with
    | some q =>
      obtain ⟨hquery, hbelow⟩ := hstatement q rfl
      exact h.append hhead (h.clause rfl (h.parens (Clause.statement_holds
        (Query.parts_hold q hquery hbelow) _)))
    | none =>
      show S.holds (if columns.isEmpty then _ else _)
      split
      · exact h.empty
      · exact h.append (h.append (h.before hhead rfl) (h.parens (h.commas hparts)))
          (h.when _ (h.plain rfl))

end CreateTable

/-- What is written of the removal of a table. -/
theorem DropTable.holds (ctx : Context) (d : DropTable) (hd : targetEverywhere S.part d.table) :
    S.holds (d.draft ctx) := by
  have h := S.closure
  obtain ⟨dialect, _ | table, ifExists⟩ := d
  · exact h.empty
  · have hexists : S.holds (when ifExists (words [.if_, .exists_] ++ space)) :=
      h.when _ (h.plain rfl)
    exact h.append (h.behind rfl hexists) (Table.holds ctx _ table hd.2)

/-- What is written of the filling of a table. -/
theorem LoadData.holds (ctx : Context) (l : LoadData) (hl : targetEverywhere S.part l.table) :
    S.holds (l.draft ctx) := by
  have h := S.closure
  obtain ⟨_ | path, _ | table⟩ := l
  · exact h.empty
  · exact h.empty
  · exact h.empty
  · have hinto : S.holds (clause [.into, .table] (table.draft ctx)) :=
      h.clause rfl (Table.holds ctx _ table hl.2)
    exact h.before (h.behind rfl hinto) rfl

/-- What is written at all, definitions included. -/
theorem Writing.holds (ctx : Context) (w : Writing) (hw : w.Everywhere S.part) :
    S.holds (w.draft ctx) := by
  cases w with
  | node n => exact n.holds ctx hw
  | create c => exact c.holds ctx hw
  | drop d => exact d.holds ctx hw
  | load l => exact l.holds ctx hw

end

end SqlCompose
