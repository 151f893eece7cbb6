import SqlCompose.Proofs.Capturing
import SqlCompose.Proofs.Refusals
import SqlCompose.Term.Build

/-! # Placeholders — every bound constant has its placeholder, in the order of the tree

    Where constants are bound, what is written is a text with gaps and the list of constants that
    belong into them. Both are the tree's alone; how placeholders look and where their numbers start
    only says what fills the gaps.

    * `Term.draft_binds`, `SetOperation.draft_binds` — the holes of a draft are the bindings of its
      tree, by recursion over the tree. -/

namespace SqlCompose

open Draft

/-- Whether the part is no set operation whose statements select different numbers of terms. -/
def Part.Fits : Part → Prop
  | setOperation s => s.isEven = true
  | _ => True

/-! ## Drafts bind what their trees bind

One theorem for each function that drafts a part of a tree, by recursion over the part. The context
changes on the way down, but never in what `Context.Captures` says, except that a statement may take
the names of its groups away; `Clause.statement_binds` accounts for that. -/

namespace ShortBinds

variable {fits : Prop} {short : String → Option Draft} {short' : String → Option (List Value)}

/-- No shorter drafts at all. -/
theorem none : ShortBinds fits (fun _ => .none) (fun _ => .none) := fun _ => .none

/-- A term that may have a shorter draft or not. -/
theorem getD (hs : ShortBinds fits short short') {d : Draft} {vs : List Value}
    (hd : d.Binds fits vs) (name? : Option String) :
    ((name?.bind short).getD d).Binds fits ((name?.bind short').getD vs) := by
  refine Binds.getD ?_ hd
  cases name? with
  | none => exact .none
  | some name => exact hs name

end ShortBinds

/-- The criterion that asks for nothing binds nothing. -/
theorem Term.bindings_of_isEmpty (n : Naming) (t : Term) : EmptyBinds t (t.bindings n) := by
  obtain ⟨expr, aliasName⟩ := t
  intro h
  cases expr <;> first | rfl | exact nomatch h

section

variable {fits : Prop}

mutual

/-- A term captures its constants in the order in which they are written. -/
theorem Term.draft_binds {n : Naming} {ctx : Context} (hc : ctx.Captures n) :
    (t : Term) → (fits → t.Everywhere Part.Fits) → (t.draft ctx).Binds fits (t.bindings n)
  | ⟨expr, aliasName⟩, h => Expr.draft_binds hc aliasName expr fun hf => (h hf).2

/-- So does an expression, under any alias. -/
theorem Expr.draft_binds {n : Naming} {ctx : Context} (hc : ctx.Captures n)
    (aliasName : Option String) :
    (e : Expr) → (fits → e.Below Part.Fits) → (e.draft ctx aliasName).Binds fits (e.bindings n)
  | .literal sql, _ => (Binds.token _).aliased ctx aliasName
  | .value v mayBind, _ => (Binds.value hc.1 v mayBind).aliased ctx aliasName
  | .field name source, _ =>
    ((Binds.quiet.sourceQualifier rfl).before _).declared ctx aliasName
  | .star source, _ => (Binds.quiet.sourceQualifier rfl).before _
  | .tuple items, h => (termDrafts_bind hc items h).commas.parens.aliased ctx aliasName
  | .array items, h => by
    have hitems := Binds.array ctx.dialect (termDrafts_bind hc items h)
    exact Binds.listOr hc.1 (constants? items) (hitems.aliased ctx aliasName)
  | .call c, h => (Call.draft_binds hc c h).declared ctx aliasName
  | .case branches otherwise, h => by
    have hinner : Context.Captures { ctx with declares := false } n := hc
    have hbranches := branchesDraft_binds hinner branches fun hf => (h hf).1
    have helse := elseDraft_binds hinner otherwise fun hf => (h hf).2
    have hcase := (Binds.behind (.keyword .case) hbranches).append helse
    show Binds fits (if _ then _ else _) _
    split
    · exact .fail _
    · exact (hcase.beforeWord .end_).declared ctx aliasName
  | .interval i, _ => .token _
  | .document d, _ => (Binds.token _).aliased ctx aliasName
  | .arithmetic op left right, h => by
    have hleft := Term.draft_binds hc left fun hf => (h hf).1
    have hright := Term.draft_binds hc right fun hf => (h hf).2
    have hfirst := (hleft.parensIf (op.bracketsLeft left.arithmeticOp?)).before (.operator op.text)
    have hsecond := hright.parensIf (op.bracketsRight right.arithmeticOp?)
    exact (hfirst.append hsecond).declared ctx aliasName
  | .negative operand, h => .behind (.operator "-") (Term.draft_binds hc operand h)
  | .parameter p, _ => .token _
  | .comparison op left right, h => by
    have hleft := Term.draft_binds hc left fun hf => (h hf).1
    have hright := Term.draft_binds hc right fun hf => (h hf).2
    exact ((hleft.before (.operator op.text)).append hright).declared ctx aliasName
  | .combination op left right, h => by
    have hleft : Context.Captures { ctx with bracketed := left.differsFrom op } n := hc
    have hright : Context.Captures { ctx with bracketed := right.differsFrom op } n := hc
    have hfirst := Term.draft_binds hleft left fun hf => (h hf).1
    have hsecond := Term.draft_binds hright right fun hf => (h hf).2
    exact (((hfirst.beforeWord op.keyword).before .space).append hsecond).parensIf ctx.bracketed
  | .chain first second left middle right, h => by
    have hleft := Term.draft_binds hc left fun hf => (h hf).1
    have hmiddle := Term.draft_binds hc middle fun hf => (h hf).2.1
    have hright := Term.draft_binds hc right fun hf => (h hf).2.2
    have hfirst := ((hleft.before (.operator first.text)).append hmiddle).before
      (.operator second.text)
    exact (hfirst.append hright).declared ctx aliasName
  | .membership operand container negated, h => by
    have hnested : Context.Captures { ctx with nested := true } n := hc
    have hnot : (when negated (word .not ++ space)).Binds fits [] :=
      ((Binds.token (.keyword .not)).before .space).when_quiet negated
    have hoperand := Term.draft_binds hc operand fun hf => (h hf).1
    have hcontainer := Term.draft_binds hnested container fun hf => (h hf).2
    have hin := (((hoperand.before .space).append_quiet hnot).before (.keyword .in_)).before .space
    exact (hin.append hcontainer).aliased ctx aliasName
  | .between operand lower upper, h => by
    have hoperand := Term.draft_binds hc operand fun hf => (h hf).1
    have hlower := Term.draft_binds hc lower fun hf => (h hf).2.1
    have hupper := Term.draft_binds hc upper fun hf => (h hf).2.2
    exact ((hoperand.append (hlower.clause [.between])).append (hupper.clause [.and])).aliased ctx
      aliasName
  | .period operand start stop, h => by
    have hoperand := Term.draft_binds hc operand fun hf => (h hf).1
    have hstart := Term.draft_binds hc start fun hf => (h hf).2.1
    have hstop := Term.draft_binds hc stop fun hf => (h hf).2.2
    have hto := ((hoperand.append (hstart.clause [.from_])).before .space).before (.raw "TO")
    exact ((hto.before .space).append hstop).aliased ctx aliasName
  | .bitAnd operand mask, h => by
    have hmask := ((Term.draft_binds hc operand h).before (.operator " & ")).before (.int mask)
    exact hmask.parens.aliased ctx aliasName
  | .isNull operand, h => ((Term.draft_binds hc operand h).beforeWord .isNull).aliased ctx aliasName
  | .not operand, h => by
    have hbracketed : Context.Captures { ctx with bracketed := true } n := hc
    have hnot : (word .not ++ space).Binds fits [] := (Binds.token (.keyword .not)).before .space
    exact (hnot.quiet_append (Term.draft_binds hbracketed operand h)).aliased ctx aliasName
  | .all operand, h => ((Term.draft_binds hc operand h).beforeWord .all).aliased ctx aliasName
  | .jsonPath column path, h =>
    (Binds.jsonPath ctx.dialect (Term.draft_binds hc column h) path).declared ctx aliasName
  | .subquery q, h =>
    Clause.statement_binds (Query.parts_bind (n.inside q.dialect) q fun hf => (h hf).2) hc
  | .setOperation s, h => SetOperation.draft_binds hc s h
  | .insertedValue field, h => .behind (.keyword .values) (Term.draft_binds hc field h).parens
  | .index name, _ => .token _
  | .pseudoColumn name, _ => .token _
  | .atTimeZone operand zone isInterval, h => by
    have hinterval : (when isInterval (word .interval ++ space)).Binds fits [] :=
      ((Binds.token (.keyword .interval)).before .space).when_quiet isInterval
    have hzone := ((Term.draft_binds hc operand h).beforeWord .atTimeZone).before .space
    exact ((hzone.append_quiet hinterval).before (.raw ("'" ++ zone ++ "'"))).aliased ctx aliasName
  | .empty, _ => .empty

/-- Terms capture theirs one after the other. -/
theorem termDrafts_bind {n : Naming} {ctx : Context} (hc : ctx.Captures n) :
    (ts : List Term) → (fits → termsEverywhere Part.Fits ts) →
      BindsAll fits (termDrafts ctx ts) (termBindings n ts)
  | [], _ => .nil
  | t :: rest, h =>
    .cons (Term.draft_binds hc t fun hf => (h hf).1) (termDrafts_bind hc rest fun hf => (h hf).2)

/-- Rows capture theirs value by value. -/
theorem rowDrafts_bind {n : Naming} {ctx : Context} (hc : ctx.Captures n) :
    (rows : List (List Term)) → (fits → rowsEverywhere Part.Fits rows) →
      BindsAll fits (rowDrafts ctx rows) (rowBindings n rows)
  | [], _ => .nil
  | row :: rest, h =>
    .cons (termDrafts_bind hc row fun hf => (h hf).1).commas.parens
      (rowDrafts_bind hc rest fun hf => (h hf).2)

/-- Where a name is short for a draft, that draft captures the constants of the term behind it. -/
theorem namedDraft_binds {n : Naming} {ctx : Context} (hc : ctx.Captures n) (name : String) :
    (ts : List Term) → (fits → termsEverywhere Part.Fits ts) →
      Option.Rel (Binds fits) (namedDraft? ctx name ts) (namedBindings? n name ts)
  | [], _ => .none
  | t :: rest, h => by
    have ht := Term.draft_binds hc t fun hf => (h hf).1
    have hrest := namedDraft_binds hc name rest fun hf => (h hf).2
    show Option.Rel (Binds fits) (if _ then _ else _) (if _ then _ else _)
    split
    · exact .some ht
    · exact hrest

/-- Terms to group by capture their constants, or those of what they are short for. -/
theorem groupDrafts_bind {n : Naming} {ctx : Context} (hc : ctx.Captures n)
    {short : String → Option Draft} {short' : String → Option (List Value)}
    (hs : ShortBinds fits short short') :
    (ts : List Term) → (fits → termsEverywhere Part.Fits ts) →
      BindsAll fits (groupDrafts ctx short ts) (groupBindings n short' ts)
  | [], _ => .nil
  | t :: rest, h =>
    .cons (hs.getD (Term.draft_binds hc t fun hf => (h hf).1) t.knownAs)
      (groupDrafts_bind hc hs rest fun hf => (h hf).2)

/-- The branches of a CASE capture theirs, condition before result. -/
theorem branchesDraft_binds {n : Naming} {ctx : Context} (hc : ctx.Captures n) :
    (bs : List Branch) → (fits → branchesEverywhere Part.Fits bs) →
      (branchesDraft ctx bs).Binds fits (branchBindings n bs)
  | [], _ => .empty
  | ⟨condition, result⟩ :: rest, h => by
    have hwhen := Term.draft_binds hc condition fun hf => (h hf).1
    have hthen := Term.draft_binds hc result fun hf => (h hf).2.1
    have hrest := branchesDraft_binds hc rest fun hf => (h hf).2.2
    exact ((hwhen.clause [.when]).append (hthen.clause [.then_])).append hrest

theorem elseDraft_binds {n : Naming} {ctx : Context} (hc : ctx.Captures n) :
    (t : Option Term) → (fits → optionEverywhere Part.Fits t) →
      (elseDraft ctx t).Binds fits (optionBindings n t)
  | none, _ => .empty
  | some t, h => (Term.draft_binds hc t h).clause _

/-- A call captures its arguments before what stands behind it. -/
theorem Call.draft_binds {n : Naming} {ctx : Context} (hc : ctx.Captures n) :
    (c : Call) → (fits → c.Everywhere Part.Fits) → (c.draft ctx).Binds fits (c.bindings n)
  | ⟨name, arguments, schema, suffix, bare, aggregate, distinct, filter, window, frame⟩, h => by
    have hinner : Context.Captures { ctx with declares := false } n := hc
    have harguments := (termDrafts_bind hinner arguments fun hf => (h hf).1).commas
    have hsuffix := suffixDraft_binds hc suffix fun hf => (h hf).2.1
    have hfilter := filterDraft_binds hc filter fun hf => (h hf).2.2.1
    have hwindow := windowDraft_binds hc frame window fun hf => (h hf).2.2.2
    have hhead : (Schema.qualifier schema ++ token (.function name)).Binds fits [] :=
      (Binds.quiet.schemaQualifier schema).before (.function name)
    have hdistinct : (when distinct (word .distinct ++ space)).Binds fits [] :=
      ((Binds.token (.keyword .distinct)).before .space).when_quiet distinct
    have hinside := ((hdistinct.quiet_append harguments).append hsuffix).parens
    show Binds fits (if _ then _ else _) (if _ then _ else _)
    split
    · exact hhead
    · exact ((hhead.quiet_append hinside).append hfilter).append hwindow

theorem suffixDraft_binds {n : Naming} {ctx : Context} (hc : ctx.Captures n) :
    (s : Option CallSuffix) → (fits → suffixEverywhere Part.Fits s) →
      (suffixDraft ctx s).Binds fits (suffixBindings n s)
  | none, _ => .empty
  | some (.words text), _ => (Binds.token .space).before (.raw text)
  | some .ignoreNulls, _ => (Binds.token .space).before (.keyword .ignoreNulls)
  | some (.source t), h => (Term.draft_binds hc t h).clause _

theorem filterDraft_binds {n : Naming} {ctx : Context} (hc : ctx.Captures n) :
    (t : Option Term) → (fits → optionEverywhere Part.Fits t) →
      (filterDraft ctx t).Binds fits (optionBindings n t)
  | none, _ => .empty
  | some t, h => by
    have hwhere := ((Binds.token (.keyword .where_)).before .space).quiet_append
      (Term.draft_binds hc t h)
    exact ((Binds.token .space).before (.keyword .filter)).quiet_append hwhere.parens

/-- A window captures its constants, whatever its frame. -/
theorem windowDraft_binds {n : Naming} {ctx : Context} (hc : ctx.Captures n)
    (frame : Option Frame) :
    (w : Option Window) → (fits → windowEverywhere Part.Fits w) →
      (windowDraft ctx frame w).Binds fits (windowBindings n w)
  | none, _ => .empty
  | some ⟨partition, orderings⟩, h =>
    Clause.window_binds (termDrafts_bind hc partition fun hf => (h hf).1)
      (orderingDrafts_bind hc ShortBinds.none orderings fun hf => (h hf).2) frame

/-- Orders capture their constants, or those of what they are short for. -/
theorem orderingDrafts_bind {n : Naming} {ctx : Context} (hc : ctx.Captures n)
    {short : String → Option Draft} {short' : String → Option (List Value)}
    (hs : ShortBinds fits short short') :
    (os : List Ordering) → (fits → orderingsEverywhere Part.Fits os) →
      BindsAll fits (orderingDrafts ctx short os) (orderingBindings n short' os)
  | [], _ => .nil
  | ⟨term, direction⟩ :: rest, h => by
    have hterm := hs.getD (Term.draft_binds hc term fun hf => (h hf).1) term.knownAs
    exact .cons (hterm.append_quiet (Binds.quiet.directionSuffix direction))
      (orderingDrafts_bind hc hs rest fun hf => (h hf).2)

/-- A table captures the times it is read at, under any alias. -/
theorem Table.draftAs_binds {n : Naming} {ctx : Context} (hc : ctx.Captures n)
    (aliasName : Option String) :
    (t : Table) → (fits → t.Below Part.Fits) → (t.draftAs ctx aliasName).Binds fits (t.bindings n)
  | ⟨name, schema, _, temporal⟩, h => by
    have hname : (Schema.qualifier schema ++ token (.ident name)).Binds fits [] :=
      (Binds.quiet.schemaQualifier schema).before (.ident name)
    exact (hname.quiet_append (temporalDraft_binds hc temporal h)).aliased ctx aliasName

theorem targetDraft_binds {n : Naming} {ctx : Context} (hc : ctx.Captures n)
    (aliasName : Option String) :
    (t : Option Table) → (fits → targetEverywhere Part.Fits t) →
      (targetDraft ctx aliasName t).Binds fits (targetBindings n t)
  | none, _ => .empty
  | some t, h => Table.draftAs_binds hc aliasName t fun hf => (h hf).2

theorem temporalDraft_binds {n : Naming} {ctx : Context} (hc : ctx.Captures n) :
    (t : Option Temporal) → (fits → temporalEverywhere Part.Fits t) →
      (temporalDraft ctx t).Binds fits (temporalBindings n t)
  | none, _ => .empty
  | some (.period t), h => (Term.draft_binds hc t h).clause _
  | some (.portion t), h => (Term.draft_binds hc t h).clause _

/-- An item of FROM captures its constants, a nested statement too. -/
theorem FromItem.draft_binds {n : Naming} {ctx : Context} (hc : ctx.Captures n) :
    (item : FromItem) → (fits → item.Everywhere Part.Fits) →
      (item.draft ctx).Binds fits (item.bindings n)
  | .table t, h => Table.draftAs_binds hc (ctx.aliasOf t.slot) t fun hf => (h hf).2
  | .query q, h =>
    Clause.statement_binds (Query.parts_bind (n.inside q.dialect) q fun hf => (h hf).2) hc
  | .setOperation s, h => SetOperation.draft_binds hc s h
  | .cte _, _ => .token _

theorem itemDrafts_bind {n : Naming} {ctx : Context} (hc : ctx.Captures n) :
    (items : List FromItem) → (fits → itemsEverywhere Part.Fits items) →
      BindsAll fits (itemDrafts ctx items) (itemBindings n items)
  | [], _ => .nil
  | item :: rest, h =>
    .cons (FromItem.draft_binds hc item fun hf => (h hf).1)
      (itemDrafts_bind hc rest fun hf => (h hf).2)

/-- Definitions capture theirs one after the other. -/
theorem cteDrafts_bind {n : Naming} {ctx : Context} (hc : ctx.Captures n) :
    (ctes : List Cte) → (fits → ctesEverywhere Part.Fits ctes) →
      BindsAll fits (cteDrafts ctx ctes) (cteBindings n ctes)
  | [], _ => .nil
  | ⟨name, body, columns⟩ :: rest, h => by
    have hcolumnCtx : Context.Captures { ctx with qualified := false } n := hc
    have hbodyCtx : Context.Captures { ctx with nested := false, declares := false } n := hc
    have hcolumns := termDrafts_bind hcolumnCtx columns fun hf => (h hf).1
    have hbody := FromItem.draft_binds hbodyCtx body fun hf => (h hf).2.1
    exact .cons ((((Binds.token (.raw name)).quiet_append
      (hcolumns.whenAny hcolumns.commas.parens)).append (hbody.parens.clause [.as])).before .space)
        (cteDrafts_bind hc rest fun hf => (h hf).2.2)

/-- The condition of a join captures its constants. -/
theorem JoinCondition.draft_binds {n : Naming} {ctx : Context} (hc : ctx.Captures n) :
    (c : JoinCondition) → (fits → c.Everywhere Part.Fits) →
      (c.draft ctx).Binds fits (c.bindings n)
  | .none, _ => .empty
  | .on criterion collation, h => by
    have hnested : Context.Captures { ctx with nested := true } n := hc
    have hon := (Term.draft_binds hnested criterion h).clause [.on]
    cases collation with
    | none => exact hon.append_quiet .empty
    | some collation => exact hon.append_quiet ((Binds.token (.raw collation)).clause [.collate])
  | .using fields, h => (termDrafts_bind hc fields h).commas.parens.clause _

/-- Joins capture their items before their conditions. -/
theorem joinDrafts_bind {n : Naming} {ctx : Context} (hc : ctx.Captures n) :
    (joins : List Join) → (fits → joinsEverywhere Part.Fits joins) →
      BindsAll fits (joinDrafts ctx joins) (joinBindings n joins)
  | [], _ => .nil
  | ⟨item, kind, condition⟩ :: rest, h => by
    have hinner : Context.Captures { ctx with nested := true, declares := true } n := hc
    have hitem := FromItem.draft_binds hinner item fun hf => (h hf).1
    have hcondition := JoinCondition.draft_binds hc condition fun hf => (h hf).2.1
    exact .cons (((Binds.quiet.joinHead kind).quiet_append hitem).append hcondition)
      (joinDrafts_bind hc rest fun hf => (h hf).2.2)

/-- What is assigned captures its constants. -/
theorem assignmentDrafts_bind {n : Naming} {ctx : Context} (hc : ctx.Captures n) :
    (as : List Assignment) → (fits → assignmentsEverywhere Part.Fits as) →
      BindsAll fits (assignmentDrafts ctx as) (assignmentBindings n as)
  | [], _ => .nil
  | ⟨field, value⟩ :: rest, h => by
    have hfieldCtx : Context.Captures { ctx with qualified := false } n := hc
    have hvalueCtx : Context.Captures { ctx with nested := true } n := hc
    have hfield := Term.draft_binds hfieldCtx field fun hf => (h hf).1
    have hvalue := Term.draft_binds hvalueCtx value fun hf => (h hf).2.1
    exact .cons ((hfield.append_quiet (Binds.token .equals)).append hvalue)
      (assignmentDrafts_bind hc rest fun hf => (h hf).2.2)

/-- What is assigned because of a conflict does too, if the values that the INSERT had capture
    nothing more. -/
theorem resolutionDrafts_bind {n : Naming} {c c' : Context} (hc : c.Captures n)
    (hc' : c'.Captures n) {inserted : Draft → Draft}
    (hi : ∀ {d vs}, Binds fits d vs → (inserted d).Binds fits vs) :
    (rs : List Resolution) → (fits → resolutionsEverywhere Part.Fits rs) →
      BindsAll fits (resolutionDrafts c c' inserted rs) (resolutionBindings n rs)
  | [], _ => .nil
  | ⟨field, value⟩ :: rest, h => by
    have hfield := Term.draft_binds hc field fun hf => (h hf).1
    have hvalue := valueDraft_binds hc' value fun hf => (h hf).2.1
    exact .cons ((hfield.append_quiet (Binds.token .equals)).append
      (Binds.getD hvalue (hi hfield)))
        (resolutionDrafts_bind hc hc' hi rest fun hf => (h hf).2.2)

theorem valueDraft_binds {n : Naming} {ctx : Context} (hc : ctx.Captures n) :
    (t : Option Term) → (fits → optionEverywhere Part.Fits t) →
      Option.Rel (Binds fits) (valueDraft? ctx t) (valueBindings? n t)
  | none, _ => .none
  | some t, h => .some (Term.draft_binds hc t h)

/-- The parts of a conflict clause capture their constants. -/
theorem Conflict.parts_bind (n : Naming) :
    (c : Conflict) → (fits → c.Everywhere Part.Fits) → c.parts.Bind fits n c (c.bindings n)
  | ⟨_, fields, _, resolutions, targetFilter, updateFilter⟩, h =>
    { fields := fun hc => termDrafts_bind hc fields fun hf => (h hf).1
      resolutions := fun hc hc' _ hi =>
        resolutionDrafts_bind hc hc' hi resolutions fun hf => (h hf).2.1
      targetFilter := fun hc => Term.draft_binds hc targetFilter fun hf => (h hf).2.2.1
      updateFilter := fun hc => Term.draft_binds hc updateFilter fun hf => (h hf).2.2.2
      anyTarget := targetFilter.bindings_of_isEmpty n
      anyUpdate := updateFilter.bindings_of_isEmpty n }

/-- The parts of a statement capture their constants, in every context that names tables like
    `n`. -/
theorem Query.parts_bind (n : Naming) :
    (q : Query) → (fits → q.Below Part.Fits) →
      q.parts.Bind fits n q (fun name => namedBindings? n name q.selects) (q.partBindings n)
  | q@{
      sources, ctes, selects, distinctOn, insertTable, updateTable, columns, rows, assignments,
      joins, prefilter, filter, groups, groupFilter, orderings, conflict, returns, .. }, h => by
    simp only [Query.Below, imp_and] at h
    obtain ⟨hsources, hctes, hselects, hdistinctOn, hinsertTable, hupdateTable, hcolumns, hrows,
      hassignments, hjoins, hprefilter, hfilter, hgroups, hgroupFilter, horderings, hconflict,
      hreturns⟩ := h
    exact
      { ctes := fun hc => cteDrafts_bind hc ctes hctes
        sources := fun hc => itemDrafts_bind hc sources hsources
        joins := fun hc => joinDrafts_bind hc joins hjoins
        distinctOn := fun hc => termDrafts_bind hc distinctOn hdistinctOn
        selects := fun hc => termDrafts_bind hc selects hselects
        selected := fun hc name => namedDraft_binds hc name selects hselects
        insertTable := fun hc aliasName => targetDraft_binds hc aliasName insertTable hinsertTable
        updateTable := fun hc aliasName => targetDraft_binds hc aliasName updateTable hupdateTable
        columns := fun hc => termDrafts_bind hc columns hcolumns
        rows := fun hc => rowDrafts_bind hc rows hrows
        assignments := fun hc => assignmentDrafts_bind hc assignments hassignments
        prefilter := fun hc => Term.draft_binds hc prefilter hprefilter
        filter := fun hc => Term.draft_binds hc filter hfilter
        groups := fun hc _ hs => groupDrafts_bind hc hs groups hgroups
        groupFilter := fun hc => Term.draft_binds hc groupFilter hgroupFilter
        orderings := fun hc _ hs => orderingDrafts_bind hc hs orderings horderings
        conflict := Conflict.parts_bind n conflict hconflict
        returns := fun hc => termDrafts_bind hc returns hreturns
        anyRow := filter.bindings_of_isEmpty n
        anyPrior := prefilter.bindings_of_isEmpty n
        anyGroup := groupFilter.bindings_of_isEmpty n
        noTarget := by
          intro h
          cases h
          rfl }

/-- Operands capture theirs behind those in front, if all of them count the same terms. -/
theorem operandsDraft_binds {n : Naming} {ctx : Context} (hc : ctx.Captures n) (count : Nat)
    {main : Draft} {vs : List Value} (hmain : main.bound ⊆ vs) :
    (os : List Operand) → (fits → operandsEverywhere Part.Fits os) →
      (fits → (os.all fun o => o.query.selects.length == count) = true) →
        ∀ {front : Draft}, front.Binds fits vs →
          (front ++ operandsDraft ctx count main os).Binds fits (vs ++ operandBindings n os)
  | [], _, _, _, hfront => hfront.append .empty
  | ⟨operator, query⟩ :: rest, h, heven, front, hfront => by
    have hother := Clause.statement_binds
      (Query.parts_bind (n.inside query.dialect) query fun hf => (h hf).1.2) hc
    have hall := fun hf => Bool.and_eq_true_iff.mp (heven hf)
    show Binds fits (front ++ if _ then _ else _) (vs ++ (_ ++ _))
    rw [← List.append_assoc]
    -- an operand with other columns stops the rendering, and does not fit
    split
    · next hcount =>
      have hcount : (query.selects.length == count) = false := by simpa using hcount
      have hfits : ¬fits := fun hf => nomatch hcount.symm.trans (hall hf).1
      exact Binds.unequal hfits ctx hfront hmain hother (operandBindings n rest)
    · have hoperator : (space ++ raw operator.text).Binds fits [] :=
        (Binds.token .space).before (.raw operator.text)
      have hwritten := hfront.append ((hoperator.before .space).quiet_append hother)
      have hshown := List.subset_append_of_subset_left
        ((query.partBindings (n.inside query.dialect)).inOrder query) hmain
      rw [← append_assoc]
      exact operandsDraft_binds hc count hshown rest (fun hf => (h hf).2) (fun hf => (hall hf).2)
        hwritten

/-- A set operation captures the constants of its operands in their order, and then those behind
    them. -/
theorem SetOperation.draft_binds {n : Naming} {ctx : Context} (hc : ctx.Captures n) :
    (s : SetOperation) → (fits → Part.Fits (.setOperation s) ∧ s.Below Part.Fits) →
      (s.draft ctx).Binds fits (s.bindings n)
  | ⟨base, operands, orderings, limit, offset, slot⟩, h => by
    -- operands are drafted nested in some dialects, which binding does not depend on
    have hoperand : Context.Captures { ctx with
        dialect := base.dialect, identQuote := base.dialect.identQuote,
        nested := base.dialect.wrapsOperands } n := hc
    have hctx : Context.Captures { ctx with
        dialect := base.dialect, identQuote := base.dialect.identQuote } n := hc
    have hmain := Clause.statement_binds
      (Query.parts_bind (n.inside base.dialect) base fun hf => (h hf).2.1.2) hoperand
    have horderings := (orderingDrafts_bind hctx (Clause.identOf_binds base) orderings
      fun hf => (h hf).2.2.2).unlessNone [.orderBy]
    have hall := operandsDraft_binds hoperand base.selects.length hmain.among operands
      (fun hf => (h hf).2.2.1) (fun hf => (h hf).1) hmain
    refine ((hall.append horderings).append_quiet ?_).parensIf _ |>.declared _ _
    exact Binds.quiet.pagination base.dialect (!orderings.isEmpty) (Binds.quiet.count limit)
      (Binds.quiet.count offset)

end

end

/-! ## What is written by itself -/

namespace Node

/-- The constants bound in a node. -/
def bindings (n : Naming) : Node → List Value
  | term t => t.bindings n
  | query q => q.bindings n
  | setOperation s => s.bindings n

/-- A node binds what can be read off it; where its operands fit together, also as far as it is
    written. -/
theorem draft_binds_of {fits : Prop} {ctx : Context} (hb : ctx.binding = true) (node : Node)
    (h : fits → node.Everywhere Part.Fits) :
    (node.draft ctx).Binds fits (node.bindings ctx.naming) := by
  have hc : ctx.Captures ctx.naming := ⟨hb, rfl⟩
  cases node with
  | term t => exact Term.draft_binds hc t h
  | query q => exact Clause.statement_binds (Query.parts_bind _ q fun hf => (h hf).2) hc
  | setOperation s => exact SetOperation.draft_binds hc s h

/-- A node that is written to its end binds what can be read off it. -/
theorem draft_binds {ctx : Context} (hb : ctx.binding = true) (node : Node)
    (hcomplete : (node.draft ctx).stop = none) :
    Piece.values (node.draft ctx).pieces = node.bindings ctx.naming :=
  (node.draft_binds_of hb False.elim).whole hcomplete

/-- **Placeholders and bind values agree.** If a node can be written where constants are bound, then
    it can be with any parameters, and there is one text with gaps for all of them: the constants of
    the node are added to the values in the order of the tree, and the gaps are filled, from left
    to right, by the placeholders for the numbers that the constants get. -/
theorem finish_eq_weave {ctx : Context} (hb : ctx.binding = true) (node : Node)
    {p p' : Parameters} {ts : List Token} (h : (node.draft ctx).finish p = (.ok ts, p')) :
    ∃ segments : List (List Token),
      segments.length = (node.bindings ctx.naming).length + 1 ∧
      (∀ (held : List Value) (make : Nat → String),
        (node.draft ctx).finish ⟨held, some make⟩ =
          (.ok (weave segments ((List.range (node.bindings ctx.naming).length).map fun i =>
              [.raw (make (held.length + i + 1))])),
            ⟨held ++ node.bindings ctx.naming, some make⟩)) ∧
      ∃ dialects : List Dialect,
        dialects.length = (node.bindings ctx.naming).length ∧
        ∀ held : List Value,
          (node.draft ctx).finish ⟨held, none⟩ =
            (.ok (weave segments (dialects.mapIdx fun i d =>
                [.raw (d.placeholder (held.length + i + 1))])),
              ⟨held ++ node.bindings ctx.naming, none⟩) := by
  -- how far a draft is written does not depend on the parameters, nor do its texts and values
  have hcomplete := complete_of_finish h
  have hvalues := node.draft_binds hb hcomplete
  have hdialects := Piece.dialects_length (node.draft ctx).pieces
  rw [hvalues] at hdialects
  refine ⟨Piece.texts (node.draft ctx).pieces, ?_, ?_, Piece.dialects (node.draft ctx).pieces,
    hdialects, ?_⟩
  · rw [Piece.texts_length, hvalues]
  · intro held make
    rw [finish_of_complete hcomplete, Piece.number_eq_weave, Piece.placeholders_given, hvalues,
      hdialects]
  · intro held
    rw [finish_of_complete hcomplete, Piece.number_eq_weave, hvalues]
    rfl

/-- A page of SQL Server, which skips rows before it takes some; the parameters hold a value
    already. -/
theorem finish_page :
    let q : Query :=
      { Query.start 0 .mssql with
        sources := [.table (.named 1 "t")]
        selects := [.field "a"]
        filter := ⟨.comparison .eq (.field "b") (.value (.int 1)), none⟩
        limit := some 10
        offset := some 20 }
    let ctx := { Context.ofDialect .mssql with binding := true }
    ∃ segments : List (List Token), segments.length = 4 ∧ ∀ make : Nat → String,
      (q.draft ctx).finish ⟨[.null], some make⟩ =
        (.ok (weave segments [[.raw (make 2)], [.raw (make 3)], [.raw (make 4)]]),
          ⟨[.null, .int 1, .int 20, .int 10], some make⟩) := by
  intro q ctx
  have hbound : (query q).bindings ctx.naming = [.int 1, .int 20, .int 10] := by cbv
  have hstop : ((query q).draft ctx).stop = none :=
    Option.isNone_iff_eq_none.mp (by decide +kernel)
  obtain ⟨segments, hlength, hgiven, -⟩ :=
    finish_eq_weave rfl (query q) (finish_of_complete hstop {})
  rw [hbound] at hlength hgiven
  refine ⟨segments, by simpa using hlength, ?_⟩
  intro make
  exact hgiven [.null] make

end Node

end SqlCompose
