import SqlCompose.Proofs.Simulation

/-! # Lockstep — the drafts of a tree and of its exchange are related

    A simulation checks single constants and names. Here its checks are carried through all trees,
    one theorem for each function that drafts a part, by recursion over the part. What the contexts
    of the two sides have in common is kept on the way down by the fields of the simulation; what
    decides about brackets, and the names that terms go by, is not touched by the exchange.

    * `Term.draft_sim`, `SetOperation.draft_sim` and their like — the recursion.
    * `Node.draft_sim` — the drafts of a node and of its exchange are related. -/

namespace SqlCompose

open Draft

namespace Simulation

variable {S : Simulation} {c c' : Context}

/-- Contexts that are alike write an alias alike. -/
theorem aliasDraft (hc : S.alike c c') (aliasName : Option String) :
    S.rel (c.aliasDraft aliasName) (c'.aliasDraft aliasName) :=
  S.congruence.aliasDraft (S.flags hc).asKeyword aliasName

/-- They agree on whether it is declared at all. -/
theorem declaration (hc : S.alike c c') (aliasName : Option String) :
    S.rel (c.declaration aliasName) (c'.declaration aliasName) :=
  S.congruence.declaration (S.flags hc).asKeyword (S.flags hc).declares aliasName

/-- Parentheses that both sides ask for, or neither. -/
theorem parensIf {b b' : Bool} {d d' : Draft} (hb : b = b') (hd : S.rel d d') :
    S.rel (Draft.parensIf b d) (Draft.parensIf b' d') :=
  hb ▸ S.congruence.parensIf b hd

end Simulation

namespace ShortSim

variable {S : Simulation} {short short' : String → Option Draft}

/-- No shorter drafts at all. -/
theorem none : ShortSim S (fun _ => .none) (fun _ => .none) := fun _ => .none

/-- A term that may have a shorter draft or not. -/
theorem getD (hs : ShortSim S short short') {d d' : Draft} (hd : S.rel d d') {t t' : Term}
    (ht : t'.knownAs = t.knownAs) :
    S.rel ((t.knownAs.bind short).getD d) ((t'.knownAs.bind short').getD d') := by
  rw [ht]
  cases t.knownAs with
  | none => exact hd
  | some name => exact getD_of_rel (hs name) hd

end ShortSim

section

variable {S : Simulation}

/-- A table that is there is a part of the tree. -/
theorem targetEverywhere_part {t : Option Table} (ht : targetEverywhere S.part t) :
    ∀ table ∈ t, S.part (.table table) := by
  intro table hmem
  cases hmem
  exact ht.1

mutual

/-- A term and the exchanged one are written in lockstep. -/
theorem Term.draft_sim {c c' : Context} (hc : S.alike c c') :
    (t : Term) → t.Everywhere S.part → S.rel (t.draft c) ((t.exchange S.exchange).draft c')
  | ⟨expr, aliasName⟩, ht => Expr.draft_sim hc aliasName expr ht.1 ht.2

/-- So are their expressions, each with its alias. -/
theorem Expr.draft_sim {c c' : Context} (hc : S.alike c c') (aliasName : Option String) :
    (e : Expr) → S.part (.expr e) → e.Below S.part →
      S.rel (e.draft c aliasName) ((e.exchange S.exchange).draft c' aliasName)
  | .literal sql, _, _ => S.congruence.append (S.congruence.raw sql) (S.aliasDraft hc aliasName)
  | .value v mayBind, hpart, _ =>
    S.congruence.append (S.value hc hpart) (S.aliasDraft hc aliasName)
  | .field name source, hpart, _ => by
    have h := S.congruence
    have hsource := Source.qualifier?_congr (S.flags hc).qualified (S.names hc hpart)
    exact h.append (h.append (h.sourceQualifier hsource) (h.token (.ident name) rfl))
      (S.declaration hc aliasName)
  | .star source, hpart, _ => by
    have h := S.congruence
    have hsource := Source.qualifier?_congr (S.flags hc).qualified (S.names hc hpart)
    exact h.append (h.sourceQualifier hsource) (h.token .star rfl)
  | .tuple items, _, hbelow => by
    have h := S.congruence
    exact h.append (h.parens (h.commas (termDrafts_sim hc items hbelow)))
      (S.aliasDraft hc aliasName)
  | .array items, hpart, hbelow => S.array hc hpart aliasName (termDrafts_sim hc items hbelow)
  | .call call, _, hbelow =>
    S.congruence.append (Call.draft_sim hc call hbelow) (S.declaration hc aliasName)
  | .case branches otherwise, _, hbelow => by
    have h := S.congruence
    have hinner := S.declares hc false
    have hbranches := branchesDraft_sim hinner branches hbelow.1
    have helse := elseDraft_sim hinner otherwise hbelow.2
    have hcase := h.append (h.append (h.word .case) hbranches) helse
    show S.rel (if _ then _ else _) (if _ then _ else _)
    rw [exchangeBranches_isEmpty]
    split
    · exact h.fail _
    · exact h.append (h.beforeWord hcase .end_) (S.declaration hc aliasName)
  | .interval i, _, _ => by
    show S.rel (raw (c.dialect.intervalText _ _)) (raw (c'.dialect.intervalText _ _))
    rw [← (S.flags hc).dialect]
    exact S.congruence.raw _
  | .document d, hpart, _ => by
    have h := S.congruence
    refine h.append ?_ (S.aliasDraft hc aliasName)
    rw [← S.document hc hpart]
    exact h.raw _
  | .arithmetic op left right, _, hbelow => by
    have h := S.congruence
    have hleft : op.bracketsLeft left.arithmeticOp?
        = op.bracketsLeft (left.exchange S.exchange).arithmeticOp? := by
      rw [Term.exchange_arithmeticOp]
    have hright : op.bracketsRight right.arithmeticOp?
        = op.bracketsRight (right.exchange S.exchange).arithmeticOp? := by
      rw [Term.exchange_arithmeticOp]
    have hfirst := S.parensIf hleft (Term.draft_sim hc left hbelow.1)
    have hsecond := S.parensIf hright (Term.draft_sim hc right hbelow.2)
    exact h.append (h.operator hfirst op.text hsecond) (S.declaration hc aliasName)
  | .negative operand, _, hbelow =>
    S.congruence.append (S.congruence.token (.operator "-") rfl) (Term.draft_sim hc operand hbelow)
  | .parameter p, _, _ => by
    show S.rel (raw (p.text c.dialect)) (raw (p.text c'.dialect))
    rw [← (S.flags hc).dialect]
    exact S.congruence.raw _
  | .comparison op left right, _, hbelow => by
    have h := S.congruence
    have hleft := Term.draft_sim hc left hbelow.1
    have hright := Term.draft_sim hc right hbelow.2
    exact h.append (h.operator hleft op.text hright) (S.declaration hc aliasName)
  | .combination op left right, _, hbelow => by
    have h := S.congruence
    -- brackets depend on the combinators of the operands, which the exchange keeps
    have hleft : S.alike { c with bracketed := left.differsFrom op }
        { c' with bracketed := (left.exchange S.exchange).differsFrom op } := by
      rw [Term.exchange_differsFrom]
      exact S.bracketed hc _
    have hright : S.alike { c with bracketed := right.differsFrom op }
        { c' with bracketed := (right.exchange S.exchange).differsFrom op } := by
      rw [Term.exchange_differsFrom]
      exact S.bracketed hc _
    have hfirst := h.beforeWord (Term.draft_sim hleft left hbelow.1) op.keyword
    have hsecond := Term.draft_sim hright right hbelow.2
    exact S.parensIf (S.flags hc).bracketed (h.append (h.append hfirst h.space) hsecond)
  | .chain first second left middle right, _, hbelow => by
    have h := S.congruence
    have hleft := Term.draft_sim hc left hbelow.1
    have hmiddle := Term.draft_sim hc middle hbelow.2.1
    have hright := Term.draft_sim hc right hbelow.2.2
    have hchain := h.operator (h.operator hleft first.text hmiddle) second.text hright
    exact h.append hchain (S.declaration hc aliasName)
  | .membership operand container negated, _, hbelow => by
    have h := S.congruence
    have hnot := h.when negated (h.append (h.word .not) h.space)
    have hoperand := h.append (h.append (Term.draft_sim hc operand hbelow.1) h.space) hnot
    have hin := h.append (h.append hoperand (h.word .in_)) h.space
    have hcontainer := Term.draft_sim (S.nested hc true) container hbelow.2
    exact h.append (h.append hin hcontainer) (S.aliasDraft hc aliasName)
  | .between operand lower upper, _, hbelow => by
    have h := S.congruence
    have hoperand := Term.draft_sim hc operand hbelow.1
    have hlower := h.clause [.between] (Term.draft_sim hc lower hbelow.2.1)
    have hupper := h.clause [.and] (Term.draft_sim hc upper hbelow.2.2)
    exact h.append (h.append (h.append hoperand hlower) hupper) (S.aliasDraft hc aliasName)
  | .period operand start stop, _, hbelow => by
    have h := S.congruence
    have hoperand := Term.draft_sim hc operand hbelow.1
    have hstart := h.clause [.from_] (Term.draft_sim hc start hbelow.2.1)
    have hto := h.append (h.append (h.append hoperand hstart) h.space) (h.raw "TO")
    have hstop := Term.draft_sim hc stop hbelow.2.2
    exact h.append (h.append (h.append hto h.space) hstop) (S.aliasDraft hc aliasName)
  | .bitAnd operand mask, _, hbelow => by
    have h := S.congruence
    have hmask := h.operator (Term.draft_sim hc operand hbelow) " & " (h.token (.int mask) rfl)
    exact h.append (h.parens hmask) (S.aliasDraft hc aliasName)
  | .isNull operand, _, hbelow => by
    have h := S.congruence
    exact h.append (h.beforeWord (Term.draft_sim hc operand hbelow) .isNull)
      (S.aliasDraft hc aliasName)
  | .not operand, _, hbelow => by
    have h := S.congruence
    have hoperand := Term.draft_sim (S.bracketed hc true) operand hbelow
    exact h.append (h.append (h.append (h.word .not) h.space) hoperand) (S.aliasDraft hc aliasName)
  | .all operand, _, hbelow => by
    have h := S.congruence
    exact h.append (h.beforeWord (Term.draft_sim hc operand hbelow) .all)
      (S.aliasDraft hc aliasName)
  | .jsonPath column path, _, hbelow => by
    have h := S.congruence
    have hpath := h.jsonPath c.dialect (Term.draft_sim hc column hbelow) path
    have hdialect := (S.flags hc).dialect
    refine h.append ?_ (S.declaration hc aliasName)
    rw [← hdialect]
    exact hpath
  | .subquery q, _, hbelow => Clause.statement_sim (Query.parts_sim q hbelow.1 hbelow.2) hc
  | .setOperation s, _, hbelow => SetOperation.draft_sim hc s hbelow.1 hbelow.2
  | .insertedValue field, _, hbelow => by
    have h := S.congruence
    exact h.append (h.word .values) (h.parens (Term.draft_sim hc field hbelow))
  | .index name, _, _ => S.congruence.token (.ident name) rfl
  | .pseudoColumn name, _, _ => S.congruence.raw name
  | .atTimeZone operand zone isInterval, _, hbelow => by
    have h := S.congruence
    have hinterval := h.when isInterval (h.append (h.word .interval) h.space)
    have hzone := h.append (h.beforeWord (Term.draft_sim hc operand hbelow) .atTimeZone) h.space
    exact h.append (h.append (h.append hzone hinterval) (h.raw ("'" ++ zone ++ "'")))
      (S.aliasDraft hc aliasName)
  | .empty, _, _ => S.congruence.empty

/-- Terms are written in lockstep one by one. -/
theorem termDrafts_sim {c c' : Context} (hc : S.alike c c') :
    (ts : List Term) → termsEverywhere S.part ts →
      List.Forall₂ S.rel (termDrafts c ts) (termDrafts c' (exchangeTerms S.exchange ts))
  | [], _ => .nil
  | t :: rest, ht => .cons (Term.draft_sim hc t ht.1) (termDrafts_sim hc rest ht.2)

/-- Rows are written in lockstep, value by value. -/
theorem rowDrafts_sim {c c' : Context} (hc : S.alike c c') :
    (rows : List (List Term)) → rowsEverywhere S.part rows →
      List.Forall₂ S.rel (rowDrafts c rows) (rowDrafts c' (exchangeRows S.exchange rows))
  | [], _ => .nil
  | row :: rest, hrows => by
    have h := S.congruence
    exact .cons (h.parens (h.commas (termDrafts_sim hc row hrows.1)))
      (rowDrafts_sim hc rest hrows.2)

/-- The draft that a name is short for is there on both sides, or on neither. -/
theorem namedDraft_sim {c c' : Context} (hc : S.alike c c') (name : String) :
    (ts : List Term) → termsEverywhere S.part ts →
      Option.Rel S.rel (namedDraft? c name ts) (namedDraft? c' name (exchangeTerms S.exchange ts))
  | [], _ => .none
  | t :: rest, ht => by
    have hdraft := Term.draft_sim hc t ht.1
    have hrest := namedDraft_sim hc name rest ht.2
    show Option.Rel S.rel (if _ then _ else _) (if _ then _ else _)
    rw [Term.exchange_knownAs]
    split
    · exact .some hdraft
    · exact hrest

/-- Terms to group by are in lockstep, if what they may be short for is. -/
theorem groupDrafts_sim {c c' : Context} (hc : S.alike c c') {short short' : String → Option Draft}
    (hs : ShortSim S short short') :
    (ts : List Term) → termsEverywhere S.part ts →
      List.Forall₂ S.rel (groupDrafts c short ts)
        (groupDrafts c' short' (exchangeTerms S.exchange ts))
  | [], _ => .nil
  | t :: rest, ht =>
    .cons (hs.getD (Term.draft_sim hc t ht.1) (t.exchange_knownAs S.exchange))
      (groupDrafts_sim hc hs rest ht.2)

/-- The branches of a CASE are written in lockstep. -/
theorem branchesDraft_sim {c c' : Context} (hc : S.alike c c') :
    (bs : List Branch) → branchesEverywhere S.part bs →
      S.rel (branchesDraft c bs) (branchesDraft c' (exchangeBranches S.exchange bs))
  | [], _ => S.congruence.empty
  | ⟨condition, result⟩ :: rest, hbs => by
    have h := S.congruence
    exact h.append (h.append (h.clause [.when] (Term.draft_sim hc condition hbs.1))
      (h.clause [.then_] (Term.draft_sim hc result hbs.2.1))) (branchesDraft_sim hc rest hbs.2.2)

theorem elseDraft_sim {c c' : Context} (hc : S.alike c c') :
    (t : Option Term) → optionEverywhere S.part t →
      S.rel (elseDraft c t) (elseDraft c' (exchangeOption S.exchange t))
  | none, _ => S.congruence.empty
  | some t, ht => S.congruence.clause [.else_] (Term.draft_sim hc t ht)

/-- A call and the exchanged one are written in lockstep, with what stands behind them. -/
theorem Call.draft_sim {c c' : Context} (hc : S.alike c c') :
    (call : Call) → call.Everywhere S.part →
      S.rel (call.draft c) ((call.exchange S.exchange).draft c')
  | ⟨name, arguments, schema, suffix, bare, aggregate, distinct, filter, window, frame⟩, hcall => by
    have h := S.congruence
    have harguments := h.commas (termDrafts_sim (S.declares hc false) arguments hcall.1)
    have hsuffix := suffixDraft_sim hc suffix hcall.2.1
    have hfilter := filterDraft_sim hc filter hcall.2.2.1
    have hwindow := windowDraft_sim hc frame window hcall.2.2.2
    have hhead := h.append (h.schemaQualifier schema) (h.token (.function name) rfl)
    have hdistinct := h.when distinct (h.append (h.word .distinct) h.space)
    have hinside := h.parens (h.append (h.append hdistinct harguments) hsuffix)
    show S.rel (if _ then _ else _) (if _ then _ else _)
    split
    · exact hhead
    · exact h.append (h.append (h.append hhead hinside) hfilter) hwindow

theorem suffixDraft_sim {c c' : Context} (hc : S.alike c c') :
    (s : Option CallSuffix) → suffixEverywhere S.part s →
      S.rel (suffixDraft c s) (suffixDraft c' (exchangeSuffix S.exchange s))
  | none, _ => S.congruence.empty
  | some (.words text), _ => S.congruence.append S.congruence.space (S.congruence.raw text)
  | some .ignoreNulls, _ => S.congruence.append S.congruence.space (S.congruence.word .ignoreNulls)
  | some (.source t), ht => S.congruence.clause [.from_] (Term.draft_sim hc t ht)

theorem filterDraft_sim {c c' : Context} (hc : S.alike c c') :
    (t : Option Term) → optionEverywhere S.part t →
      S.rel (filterDraft c t) (filterDraft c' (exchangeOption S.exchange t))
  | none, _ => S.congruence.empty
  | some t, ht => by
    have h := S.congruence
    exact h.append (h.append h.space (h.word .filter))
      (h.parens (h.append (h.append (h.word .where_) h.space) (Term.draft_sim hc t ht)))

/-- A window is written in lockstep, with the same frame. -/
theorem windowDraft_sim {c c' : Context} (hc : S.alike c c') (frame : Option Frame) :
    (w : Option Window) → windowEverywhere S.part w →
      S.rel (windowDraft c frame w) (windowDraft c' frame (exchangeWindow S.exchange w))
  | none, _ => S.congruence.empty
  | some ⟨partition, orderings⟩, hw =>
    Clause.window_sim (termDrafts_sim hc partition hw.1)
      (orderingDrafts_sim hc ShortSim.none orderings hw.2) frame

/-- Orders are written in lockstep, if what their terms may be short for is. -/
theorem orderingDrafts_sim {c c' : Context} (hc : S.alike c c')
    {short short' : String → Option Draft} (hs : ShortSim S short short') :
    (os : List Ordering) → orderingsEverywhere S.part os →
      List.Forall₂ S.rel (orderingDrafts c short os)
        (orderingDrafts c' short' (exchangeOrderings S.exchange os))
  | [], _ => .nil
  | ⟨term, direction⟩ :: rest, hos => by
    have hterm := hs.getD (Term.draft_sim hc term hos.1) (term.exchange_knownAs S.exchange)
    exact .cons (S.congruence.append hterm (S.congruence.directionSuffix direction))
      (orderingDrafts_sim hc hs rest hos.2)

/-- Tables under the same alias are written in lockstep. -/
theorem Table.draftAs_sim {c c' : Context} (hc : S.alike c c') (aliasName : Option String) :
    (t : Table) → t.Below S.part →
      S.rel (t.draftAs c aliasName) ((t.exchange S.exchange).draftAs c' aliasName)
  | ⟨name, schema, _, temporal⟩, ht => by
    have h := S.congruence
    exact h.append (h.append (h.append (h.schemaQualifier schema) (h.token (.ident name) rfl))
      (temporalDraft_sim hc temporal ht)) (S.aliasDraft hc aliasName)

/-- So is the table that is changed, if there is one. -/
theorem targetDraft_sim {c c' : Context} (hc : S.alike c c') (aliasName : Option String) :
    (t : Option Table) → targetEverywhere S.part t →
      S.rel (targetDraft c aliasName t) (targetDraft c' aliasName (exchangeTarget S.exchange t))
  | none, _ => S.congruence.empty
  | some t, ht => Table.draftAs_sim hc aliasName t ht.2

theorem temporalDraft_sim {c c' : Context} (hc : S.alike c c') :
    (t : Option Temporal) → temporalEverywhere S.part t →
      S.rel (temporalDraft c t) (temporalDraft c' (exchangeTemporal S.exchange t))
  | none, _ => S.congruence.empty
  | some (.period t), ht => S.congruence.clause [.for_] (Term.draft_sim hc t ht)
  | some (.portion t), ht => S.congruence.clause [.for_, .portion, .of] (Term.draft_sim hc t ht)

/-- An item of FROM and the exchanged one are written in lockstep. -/
theorem FromItem.draft_sim {c c' : Context} (hc : S.alike c c') :
    (item : FromItem) → item.Everywhere S.part →
      S.rel (item.draft c) ((item.exchange S.exchange).draft c')
  | .table t, ht => by
    have hname : c.aliasOf t.slot = c'.aliasOf (t.exchange S.exchange).slot := by
      cases t
      exact S.names hc ht.1 _ (List.mem_cons_self ..)
    show S.rel (t.draftAs c (c.aliasOf t.slot)) _
    rw [hname]
    exact Table.draftAs_sim hc _ t ht.2
  | .query q, hq => Clause.statement_sim (Query.parts_sim q hq.1 hq.2) hc
  | .setOperation s, hs => SetOperation.draft_sim hc s hs.1 hs.2
  | .cte name, _ => S.congruence.raw name

theorem itemDrafts_sim {c c' : Context} (hc : S.alike c c') :
    (items : List FromItem) → itemsEverywhere S.part items →
      List.Forall₂ S.rel (itemDrafts c items) (itemDrafts c' (exchangeItems S.exchange items))
  | [], _ => .nil
  | item :: rest, hi => .cons (FromItem.draft_sim hc item hi.1) (itemDrafts_sim hc rest hi.2)

/-- Definitions are written in lockstep, under the same names. -/
theorem cteDrafts_sim {c c' : Context} (hc : S.alike c c') :
    (ctes : List Cte) → ctesEverywhere S.part ctes →
      List.Forall₂ S.rel (cteDrafts c ctes) (cteDrafts c' (exchangeCtes S.exchange ctes))
  | [], _ => .nil
  | ⟨name, body, columns⟩ :: rest, hctes => by
    have h := S.congruence
    have hcolumns := termDrafts_sim (S.qualified hc false) columns hctes.1
    have hbody := FromItem.draft_sim (S.declares (S.nested hc false) false) body hctes.2.1
    exact .cons (h.append (h.append (h.append (h.raw name)
      (h.whenAny hcolumns (h.parens (h.commas hcolumns)))) (h.clause [.as] (h.parens hbody)))
        h.space) (cteDrafts_sim hc rest hctes.2.2)

/-- The condition of a join and the exchanged one are written in lockstep. -/
theorem JoinCondition.draft_sim {c c' : Context} (hc : S.alike c c') :
    (j : JoinCondition) → j.Everywhere S.part →
      S.rel (j.draft c) ((j.exchange S.exchange).draft c')
  | .none, _ => S.congruence.empty
  | .on criterion collation, hj => by
    have h := S.congruence
    have hon := h.clause [.on] (Term.draft_sim (S.nested hc true) criterion hj)
    cases collation with
    | none => exact h.append hon h.empty
    | some collation => exact h.append hon (h.clause [.collate] (h.raw collation))
  | .using fields, hj => by
    have h := S.congruence
    exact h.clause [.using_] (h.parens (h.commas (termDrafts_sim hc fields hj)))

/-- Joins are written in lockstep, with the same words in front. -/
theorem joinDrafts_sim {c c' : Context} (hc : S.alike c c') :
    (joins : List Join) → joinsEverywhere S.part joins →
      List.Forall₂ S.rel (joinDrafts c joins) (joinDrafts c' (exchangeJoins S.exchange joins))
  | [], _ => .nil
  | ⟨item, kind, condition⟩ :: rest, hj => by
    have h := S.congruence
    have hitem := FromItem.draft_sim (S.declares (S.nested hc true) true) item hj.1
    exact .cons (h.append (h.append (h.joinHead kind) hitem)
      (JoinCondition.draft_sim hc condition hj.2.1)) (joinDrafts_sim hc rest hj.2.2)

/-- What is assigned is written in lockstep. -/
theorem assignmentDrafts_sim {c c' : Context} (hc : S.alike c c') :
    (as : List Assignment) → assignmentsEverywhere S.part as →
      List.Forall₂ S.rel (assignmentDrafts c as)
        (assignmentDrafts c' (exchangeAssignments S.exchange as))
  | [], _ => .nil
  | ⟨field, value⟩ :: rest, has => by
    have h := S.congruence
    have hfield := Term.draft_sim (S.qualified hc false) field has.1
    have hvalue := Term.draft_sim (S.nested hc true) value has.2.1
    exact .cons (h.append (h.append hfield (h.token .equals rfl)) hvalue)
      (assignmentDrafts_sim hc rest has.2.2)

/-- What is assigned because of a conflict is written in lockstep, if the values that the INSERT had
    are. -/
theorem resolutionDrafts_sim {c c' d d' : Context} (hc : S.alike c c') (hd : S.alike d d')
    {f f' : Draft → Draft} (hf : ∀ {a a'}, S.rel a a' → S.rel (f a) (f' a')) :
    (rs : List Resolution) → resolutionsEverywhere S.part rs →
      List.Forall₂ S.rel (resolutionDrafts c d f rs)
        (resolutionDrafts c' d' f' (exchangeResolutions S.exchange rs))
  | [], _ => .nil
  | ⟨field, value⟩ :: rest, hrs => by
    have h := S.congruence
    have hfield := Term.draft_sim hc field hrs.1
    have hvalue := getD_of_rel (valueDraft_sim hd value hrs.2.1) (hf hfield)
    exact .cons (h.append (h.append hfield (h.token .equals rfl)) hvalue)
      (resolutionDrafts_sim hc hd hf rest hrs.2.2)

theorem valueDraft_sim {c c' : Context} (hc : S.alike c c') :
    (t : Option Term) → optionEverywhere S.part t →
      Option.Rel S.rel (valueDraft? c t) (valueDraft? c' (exchangeOption S.exchange t))
  | none, _ => .none
  | some t, ht => .some (Term.draft_sim hc t ht)

/-- The parts of a conflict clause and of the exchanged one are in lockstep. -/
theorem Conflict.parts_sim :
    (c : Conflict) → c.Everywhere S.part → c.parts.Sim S (c.exchange S.exchange).parts
  | ⟨_, fields, _, resolutions, targetFilter, updateFilter⟩, hconflict =>
    { fields := fun hc => termDrafts_sim hc fields hconflict.1
      resolutions := fun hc hd _ _ hf =>
        resolutionDrafts_sim hc hd hf resolutions hconflict.2.1
      targetFilter := fun hc => Term.draft_sim hc targetFilter hconflict.2.2.1
      updateFilter := fun hc => Term.draft_sim hc updateFilter hconflict.2.2.2 }

/-- The parts of a statement and of the exchanged one are in lockstep. -/
theorem Query.parts_sim :
    (q : Query) → S.part (.query q) → q.Below S.part →
      q.parts.Sim S q (q.exchange S.exchange) (q.exchange S.exchange).parts
  | {
      sources, ctes, selects, distinctOn, insertTable, updateTable, columns, rows, assignments,
      joins, prefilter, filter, groups, groupFilter, orderings, conflict, returns, .. },
    hpart, ⟨hsources, hctes, hselects, hdistinctOn, hinsertTable, hupdateTable, hcolumns, hrows,
      hassignments, hjoins, hprefilter, hfilter, hgroups, hgroupFilter, horderings, hconflict,
      hreturns⟩ =>
    { layout := Query.exchange_sameLayout S.exchange _
      whole := hpart
      target := targetEverywhere_part hinsertTable
      changed := targetEverywhere_part hupdateTable
      limit := rfl
      offset := rfl
      ctes := fun hc => cteDrafts_sim hc ctes hctes
      sources := fun hc => itemDrafts_sim hc sources hsources
      joins := fun hc => joinDrafts_sim hc joins hjoins
      distinctOn := fun hc => termDrafts_sim hc distinctOn hdistinctOn
      selects := fun hc => termDrafts_sim hc selects hselects
      selected := fun hc name => namedDraft_sim hc name selects hselects
      insertTable := fun hc aliasName => targetDraft_sim hc aliasName insertTable hinsertTable
      updateTable := fun hc aliasName => targetDraft_sim hc aliasName updateTable hupdateTable
      columns := fun hc => termDrafts_sim hc columns hcolumns
      rows := fun hc => rowDrafts_sim hc rows hrows
      assignments := fun hc => assignmentDrafts_sim hc assignments hassignments
      prefilter := fun hc => Term.draft_sim hc prefilter hprefilter
      filter := fun hc => Term.draft_sim hc filter hfilter
      groups := fun hc _ _ hs => groupDrafts_sim hc hs groups hgroups
      groupFilter := fun hc => Term.draft_sim hc groupFilter hgroupFilter
      orderings := fun hc _ _ hs => orderingDrafts_sim hc hs orderings horderings
      conflict := Conflict.parts_sim conflict hconflict
      returns := fun hc => termDrafts_sim hc returns hreturns }

/-- Operands behind drafts in lockstep are in lockstep, as far as they count the same terms. -/
theorem operandsDraft_sim {c c' : Context} (hc : S.alike c c') (count : Nat) {main main' : Draft}
    (hmain : S.rel main main') :
    (os : List Operand) → operandsEverywhere S.part os →
      S.rel (operandsDraft c count main os)
        (operandsDraft c' count main' (exchangeOperands S.exchange os))
  | [], _ => S.congruence.empty
  | ⟨operator, query⟩ :: rest, hos => by
    have h := S.congruence
    have hother := Clause.statement_sim (Query.parts_sim query hos.1.1 hos.1.2) hc
    have hrest := operandsDraft_sim hc count hmain rest hos.2
    show S.rel (if _ then _ else _) (if _ then _ else _)
    rw [← (query.exchange_sameLayout S.exchange).selectCount]
    split
    · exact S.unequal hc hmain hother
    · exact h.append (h.append (h.append (h.append h.space (h.raw operator.text)) h.space) hother)
        hrest

/-- A set operation and the exchanged one are written in lockstep. -/
theorem SetOperation.draft_sim {c c' : Context} (hc : S.alike c c') :
    (s : SetOperation) → S.part (.setOperation s) → s.Below S.part →
      S.rel (s.draft c) ((s.exchange S.exchange).draft c')
  | ⟨base, operands, orderings, limit, offset, slot⟩, hpart, ⟨hbase, hoperands, horderings⟩ => by
    have h := S.congruence
    have hl := base.exchange_sameLayout S.exchange
    have hctx := S.inDialect hc base.dialect
    have hinner := S.nested hctx base.dialect.wrapsOperands
    have hmain := Clause.statement_sim (Query.parts_sim base hbase.1 hbase.2) hinner
    have hnames : ShortSim S
        (fun name => if base.selectedAliases.contains name then some (token (.ident name))
          else none)
        (fun name => if base.selectedAliases.contains name then some (token (.ident name))
          else none) := by
      intro name
      show Option.Rel S.rel (if _ then _ else _) (if _ then _ else _)
      split
      · exact .some (h.token (.ident name) rfl)
      · exact .none
    have horder := h.unlessNone [.orderBy] (orderingDrafts_sim hctx hnames orderings horderings)
    have hpage := h.pagination base.dialect (!orderings.isEmpty) (h.count limit) (h.count offset)
    have hname : c.aliasOf slot = c'.aliasOf slot := S.names hc hpart slot (List.mem_cons_self ..)
    -- the exchanged operation looks at its own first statement, which has the same layout
    rw [SetOperation.exchange, SetOperation.draft, SetOperation.draft]
    dsimp only
    rw [← hl.dialect, ← hl.selectCount, ← hl.selectedAliases, exchangeOrderings_isEmpty]
    refine h.append (S.parensIf (S.flags hc).nested ?_) ?_
    · have hothers := operandsDraft_sim hinner base.selects.length hmain operands hoperands
      exact h.append (h.append (h.append hmain hothers) horder) hpage
    · exact hname ▸ S.declaration hctx _

end

end

/-- The drafts of a node and of its exchange are related. -/
theorem Node.draft_sim {S : Simulation} {c c' : Context} (hc : S.alike c c') (node : Node)
    (hnode : node.Everywhere S.part) :
    S.rel (node.draft c) ((node.exchange S.exchange).draft c') := by
  cases node with
  | term t => exact Term.draft_sim hc t hnode
  | query q => exact Clause.statement_sim (Query.parts_sim q hnode.1 hnode.2) hc
  | setOperation s => exact SetOperation.draft_sim hc s hnode.1 hnode.2

end SqlCompose
