import SqlCompose.Proofs.Congruence
import SqlCompose.Proofs.Exchange

/-! # Simulation — two writings of trees that differ in their constants

    A tree is written in one context, and the tree with its constants exchanged in another. A
    `Simulation` says which contexts are alike, which parts the tree may have, and how the two
    drafts are to be related; its fields are what has to be checked, about single constants and
    names. Then the drafts of all trees are related.

    * `Simulation` — the checks.
    * `Parts.Sim` — two statements whose parts are related.
    * `Clause.statement_sim` — the statements are related then. -/

namespace SqlCompose

open Draft

/-! ## What has to be checked -/

/-- What the contexts ask of what is written is the same. -/
structure Context.SameFlags (c c' : Context) : Prop where
  dialect      : c.dialect = c'.dialect
  asKeyword    : c.asKeyword = c'.asKeyword
  nested       : c.nested = c'.nested
  declares     : c.declares = c'.declares
  qualified    : c.qualified = c'.qualified
  bracketed    : c.bracketed = c'.bracketed
  groupByAlias : c.groupByAlias = c'.groupByAlias
  orderByAlias : c.orderByAlias = c'.orderByAlias

/-- The places whose aliases are asked for when a source's columns are written. -/
def Source.slots : Option Source → List Slot
  | some (.table t) => [t.slot]
  | some (.derived slot) => [slot]
  | _ => []

/-- The places whose aliases are asked for when the part itself is written. -/
def Part.slots : Part → List Slot
  | expr (.field _ source) => Source.slots source
  | expr (.star source) => Source.slots source
  | expr _ => []
  | table t => [t.slot]
  | query q => [q.slot]
  | setOperation s => [s.slot]

/-- Arrays whose items are related are related if both are bound as a whole or neither is. -/
theorem Draft.Congruence.arrays {rel : Draft → Draft → Prop} (h : Congruence rel) {c c' : Context}
    (hc : c.SameFlags c') {items items' : List Term}
    (hconstants : Option.Rel
      (fun vs vs' => rel (hole (.list vs) c.dialect) (hole (.list vs') c'.dialect))
      (if c.binding then constants? items else none)
      (if c'.binding then constants? items' else none))
    (aliasName : Option String)
    (hitems : List.Forall₂ rel (termDrafts c items) (termDrafts c' items')) :
    rel ((Expr.array items).draft c aliasName) ((Expr.array items').draft c' aliasName) := by
  have hwritten := h.append (h.array c.dialect hitems) (h.aliasDraft hc.asKeyword aliasName)
  rw [hc.dialect] at hwritten hconstants
  rw [Expr.draft, Expr.draft, hc.dialect]
  generalize (if c.binding then constants? items else none) = vs at hconstants ⊢
  generalize (if c'.binding then constants? items' else none) = vs' at hconstants ⊢
  cases hconstants with
  | none => exact hwritten
  | some hbound => exact hbound

/-- Two ways to write trees: the second exchanges constants. -/
structure Simulation where
  exchange : Exchange
  /-- The parts that trees may have. -/
  part : Part → Prop
  /-- The contexts that a part may be written in on the two sides. -/
  alike : Context → Context → Prop
  /-- How the two drafts are related. -/
  rel : Draft → Draft → Prop
  congruence : Congruence rel
  flags : ∀ {c c' : Context}, alike c c' → c.SameFlags c'
  nested : ∀ {c c' : Context}, alike c c' → ∀ b,
    alike { c with nested := b } { c' with nested := b }
  declares : ∀ {c c' : Context}, alike c c' → ∀ b,
    alike { c with declares := b } { c' with declares := b }
  qualified : ∀ {c c' : Context}, alike c c' → ∀ b,
    alike { c with qualified := b } { c' with qualified := b }
  bracketed : ∀ {c c' : Context}, alike c c' → ∀ b,
    alike { c with bracketed := b } { c' with bracketed := b }
  grouping : ∀ {c c' : Context}, alike c c' → ∀ b,
    alike { c with groupByAlias := b } { c' with groupByAlias := b }
  inDialect : ∀ {c c' : Context}, alike c c' → ∀ d : Dialect,
    alike { c with dialect := d, identQuote := d.identQuote }
      { c' with dialect := d, identQuote := d.identQuote }
  enter : ∀ {c c' : Context}, alike c c' → ∀ scope : Scope,
    alike { c with scope := c.scope.enter scope } { c' with scope := c'.scope.enter scope }
  names : ∀ {c c' : Context}, alike c c' → ∀ {p : Part}, part p → ∀ slot ∈ p.slots,
    c.aliasOf slot = c'.aliasOf slot
  value : ∀ {c c' : Context}, alike c c' → ∀ {v : Value} {mayBind : Bool},
    part (.expr (.value v mayBind)) →
      rel (v.draft c mayBind) ((exchange.constant v mayBind).draft c' mayBind)
  count : ∀ {c c' : Context}, alike c c' → ∀ n : Int64,
    rel ((Value.int n).draft c true) ((Value.int (exchange.count n)).draft c' true)
  array : ∀ {c c' : Context}, alike c c' → ∀ {items : List Term}, part (.expr (.array items)) →
    ∀ aliasName : Option String,
      List.Forall₂ rel (termDrafts c items) (termDrafts c' (exchangeTerms exchange items)) →
        rel ((Expr.array items).draft c aliasName)
          ((Expr.array (exchangeTerms exchange items)).draft c' aliasName)
  document : ∀ {c c' : Context}, alike c c' → ∀ {d : Json}, part (.expr (.document d)) →
    c.textQuote = c'.textQuote
  unequal : ∀ {c c' : Context}, alike c c' → ∀ {a a' b b' : Draft}, rel a a' → rel b b' →
    rel (unequal c a b) (unequal c' a' b')

/-- Names in front of columns are those that the contexts know. -/
theorem Source.qualifier?_congr {c c' : Context} (hq : c.qualified = c'.qualified)
    {s : Option Source} (hs : ∀ slot ∈ Source.slots s, c.aliasOf slot = c'.aliasOf slot) :
    Source.qualifier? c s = Source.qualifier? c' s := by
  rcases s with _ | t | slot | name
  · rfl
  · have ht : c.aliasOf t.slot = c'.aliasOf t.slot := hs t.slot (List.mem_cons_self ..)
    show (if c.qualified || (c.aliasOf t.slot).isSome then some (t.nameIn c) else none) = _
    simp only [Table.nameIn]
    rw [hq, ht]
    rfl
  · have hslot : c.aliasOf slot = c'.aliasOf slot := hs slot (List.mem_cons_self ..)
    show (if c.qualified || (c.aliasOf slot).isSome then c.aliasOf slot else none) = _
    rw [hq, hslot]
    rfl
  · show (if c.qualified || true then some name else none) = _
    rw [hq]
    rfl

/-! ## Clauses -/

/-- What may be written in place of terms that go by a name is related. -/
def ShortSim (S : Simulation) (short short' : String → Option Draft) : Prop :=
  ∀ name, Option.Rel S.rel (short name) (short' name)

/-- The parts of two conflict clauses are related. -/
structure ConflictParts.Sim (S : Simulation) (p p' : ConflictParts) : Prop where
  fields       : ∀ {c c'}, S.alike c c' → List.Forall₂ S.rel (p.fields c) (p'.fields c')
  resolutions  : ∀ {c c' d d'}, S.alike c c' → S.alike d d' → ∀ {f f' : Draft → Draft},
    (∀ {a a'}, S.rel a a' → S.rel (f a) (f' a')) →
      List.Forall₂ S.rel (p.resolutions c d f) (p'.resolutions c' d' f')
  targetFilter : ∀ {c c'}, S.alike c c' → S.rel (p.targetFilter c) (p'.targetFilter c')
  updateFilter : ∀ {c c'}, S.alike c c' → S.rel (p.updateFilter c) (p'.updateFilter c')

/-- Two statements of one layout whose parts are related. -/
structure Parts.Sim (S : Simulation) (q q' : Query) (p p' : Parts) : Prop where
  layout      : q.SameLayout q'
  whole       : S.part (.query q)
  target      : ∀ t ∈ q.insertTable, S.part (.table t)
  changed     : ∀ t ∈ q.updateTable, S.part (.table t)
  limit       : q'.limit = q.limit.map S.exchange.count
  offset      : q'.offset = q.offset.map S.exchange.count
  ctes        : ∀ {c c'}, S.alike c c' → List.Forall₂ S.rel (p.ctes c) (p'.ctes c')
  sources     : ∀ {c c'}, S.alike c c' → List.Forall₂ S.rel (p.sources c) (p'.sources c')
  joins       : ∀ {c c'}, S.alike c c' → List.Forall₂ S.rel (p.joins c) (p'.joins c')
  distinctOn  : ∀ {c c'}, S.alike c c' → List.Forall₂ S.rel (p.distinctOn c) (p'.distinctOn c')
  selects     : ∀ {c c'}, S.alike c c' → List.Forall₂ S.rel (p.selects c) (p'.selects c')
  selected    : ∀ {c c'}, S.alike c c' → ShortSim S (p.selected c) (p'.selected c')
  insertTable : ∀ {c c'}, S.alike c c' → ∀ {aliasName},
    S.rel (p.insertTable c aliasName) (p'.insertTable c' aliasName)
  updateTable : ∀ {c c'}, S.alike c c' → ∀ {aliasName},
    S.rel (p.updateTable c aliasName) (p'.updateTable c' aliasName)
  columns     : ∀ {c c'}, S.alike c c' → List.Forall₂ S.rel (p.columns c) (p'.columns c')
  rows        : ∀ {c c'}, S.alike c c' → List.Forall₂ S.rel (p.rows c) (p'.rows c')
  assignments : ∀ {c c'}, S.alike c c' → List.Forall₂ S.rel (p.assignments c) (p'.assignments c')
  prefilter   : ∀ {c c'}, S.alike c c' → S.rel (p.prefilter c) (p'.prefilter c')
  filter      : ∀ {c c'}, S.alike c c' → S.rel (p.filter c) (p'.filter c')
  groups      : ∀ {c c'}, S.alike c c' → ∀ {short short'}, ShortSim S short short' →
    List.Forall₂ S.rel (p.groups c short) (p'.groups c' short')
  groupFilter : ∀ {c c'}, S.alike c c' → S.rel (p.groupFilter c) (p'.groupFilter c')
  orderings   : ∀ {c c'}, S.alike c c' → ∀ {short short'}, ShortSim S short short' →
    List.Forall₂ S.rel (p.orderings c short) (p'.orderings c' short')
  conflict    : p.conflict.Sim S p'.conflict
  returns     : ∀ {c c'}, S.alike c c' → List.Forall₂ S.rel (p.returns c) (p'.returns c')

/-- Related drafts are as many on both sides. -/
theorem isEmpty_of_forall₂ {rel : Draft → Draft → Prop} {ds ds' : List Draft}
    (h : List.Forall₂ rel ds ds') : ds.isEmpty = ds'.isEmpty := by
  cases h <;> rfl

/-- A shorter draft or else the full one. -/
theorem getD_of_rel {rel : Draft → Draft → Prop} {short short' : Option Draft} {d d' : Draft}
    (hs : Option.Rel rel short short') (hd : rel d d') : rel (short.getD d) (short'.getD d') := by
  cases hs with
  | none => exact hd
  | some hshort => exact hshort

/-- What may be missing is missing on both sides or on neither. -/
theorem isSome_of_rel {rel : Table → Table → Prop} {t t' : Option Table} (h : Option.Rel rel t t') :
    t.isSome = t'.isSome := by
  cases h <;> rfl

namespace Clause

variable {S : Simulation}

/-- Criteria that are empty together are written in lockstep, with their words. -/
theorem criterion_sim {c c' : Context} (hc : S.alike c c') (k : Keyword) {t t' : Term}
    (ht : t.isEmpty = t'.isEmpty) {part part' : Context → Draft}
    (hpart : ∀ {c c'}, S.alike c c' → S.rel (part c) (part' c')) :
    S.rel (criterion c k t part) (criterion c' k t' part') := by
  simp only [criterion]
  rw [← ht]
  exact S.congruence.when _ (S.congruence.clause [k] (hpart (S.nested hc true)))

/-- Windows with the same frame are. -/
theorem window_sim {partition partition' orderings orderings' : List Draft}
    (hpartition : List.Forall₂ S.rel partition partition')
    (horderings : List.Forall₂ S.rel orderings orderings') (frame : Option Frame) :
    S.rel (window partition orderings frame) (window partition' orderings' frame) := by
  have h := S.congruence
  have hpart : ∀ (k : Keyword) {ds ds' : List Draft}, List.Forall₂ S.rel ds ds' →
      List.Forall₂ S.rel (if ds.isEmpty then [] else [word k ++ space ++ commas ds])
        (if ds'.isEmpty then [] else [word k ++ space ++ commas ds']) := by
    intro k ds ds' hds
    rw [← isEmpty_of_forall₂ hds]
    split
    · exact .nil
    · exact .cons (h.append (h.append (h.word k) h.space) (h.commas hds)) .nil
  have hparts := List.rel_append (hpart .partitionBy hpartition) (hpart .orderBy horderings)
  refine h.append (h.append h.space (h.word .over))
    (h.parens (h.join h.space (List.rel_append hparts ?_)))
  cases frame with
  | none => exact .nil
  | some f => exact .cons (h.frame f) .nil

/-- A limit or an offset that is a constant of the statement. -/
theorem count_sim {c c' : Context} (hc : S.alike c c') {n n' : Option Int64}
    (hn : n' = n.map S.exchange.count) :
    Option.Rel S.rel (n.map fun n => Value.draft c (.int n) true)
      (n'.map fun n => Value.draft c' (.int n) true) := by
  subst hn
  cases n with
  | none => exact .none
  | some n => exact .some (S.count hc n)

/-- A limit is, with its number exchanged. -/
theorem limit_sim {c c' : Context} (hc : S.alike c c') {n n' : Option Int64}
    (hn : n' = n.map S.exchange.count) : S.rel (limit c n) (limit c' n') := by
  subst hn
  cases n with
  | none => exact S.congruence.empty
  | some n => exact S.congruence.clause [.limit] (S.count hc n)

variable {q q' : Query} {p p' : Parts} (hp : p.Sim S q q' p') {c c' : Context}
  (hc : S.alike c c')
include hp hc

/-- The definitions are. -/
theorem withs_sim : S.rel (withs c q p) (withs c' q' p') := by
  have h := S.congruence
  have hctes := hp.ctes hc
  have hhead := h.append (h.word .with_) h.space
  have hrec := h.when (q.ctes.any Cte.isRecursive) (h.append (h.word .recursive) h.space)
  simp only [withs]
  rw [← hp.layout.isRecursive]
  exact h.ifAny hctes (h.append (h.append hhead hrec) (h.commas hctes))

/-- FROM is, with further items in lockstep. -/
theorem from_sim {further further' : List Draft} (hf : List.Forall₂ S.rel further further') :
    S.rel (from_ c p further) (from_ c' p' further') := by
  have hinner := S.declares (S.nested hc true) true
  exact S.congruence.unlessNone [.from_] (List.rel_append (hp.sources hinner) hf)

/-- The joins are. -/
theorem joined_sim : S.rel (joined c p) (joined c' p') := by
  have h := S.congruence
  have hjoins := hp.joins hc
  exact h.whenAny hjoins (h.append h.space (h.join h.space hjoins))

/-- WHERE is. -/
theorem filtered_sim : S.rel (filtered c q p) (filtered c' q' p') :=
  criterion_sim hc .where_ hp.layout.filter hp.filter

omit hc in
/-- What an alias is short for is found on both sides, or on neither. -/
theorem aliasOf_sim (name : String) : Option.Rel S.rel (aliasOf? q name) (aliasOf? q' name) := by
  simp only [aliasOf?]
  rw [← hp.layout.selectedAliases]
  split
  · exact .some (S.congruence.token (.aliasName name) rfl)
  · exact .none

/-- GROUP BY is. -/
theorem grouped_sim : S.rel (grouped c q p) (grouped c' q' p') := by
  have h := S.congruence
  have hshort : ShortSim S
      (fun name => if c.groupByAlias then aliasOf? q name else p.selected c name)
      (fun name => if c'.groupByAlias then aliasOf? q' name else p'.selected c' name) := by
    intro name
    show Option.Rel S.rel (if _ then _ else _) (if _ then _ else _)
    rw [← (S.flags hc).groupByAlias]
    split
    · exact aliasOf_sim hp name
    · exact hp.selected hc name
  have hgroups := hp.groups hc hshort
  have htotals := h.when q.withTotals (h.append h.space (h.words [.with_, .totals]))
  have hrollup := h.when q.withRollup (h.append h.space (h.words [.with_, .rollup]))
  simp only [grouped]
  rw [← hp.layout.withTotals, ← hp.layout.withRollup]
  exact h.ifAny hgroups
    (h.append (h.append (h.clause [.groupBy] (h.commas hgroups)) htotals) hrollup)

/-- ORDER BY is. -/
theorem ordered_sim : S.rel (ordered c q p) (ordered c' q' p') := by
  refine S.congruence.unlessNone [.orderBy] (hp.orderings hc ?_)
  intro name
  show Option.Rel S.rel (if _ then _ else _) (if _ then _ else _)
  rw [← (S.flags hc).orderByAlias]
  split
  · exact aliasOf_sim hp name
  · exact .none

/-- A conflict clause is: both sides skip rows, update them or fail. -/
theorem onConflict_sim :
    S.rel (onConflict c q.conflict p.conflict) (onConflict c' q'.conflict p'.conflict) := by
  have h := S.congruence
  have hl := hp.layout.conflict
  have htarget := hp.conflict.fields (S.declares hc true)
  have hvalues := S.qualified hc true
  have hcolumns := S.qualified hc false
  have hfields := h.whenAny htarget
    (h.append h.space (h.parens (h.join (h.append (h.token .comma rfl) h.space) htarget)))
  have hwhere := criterion_sim hc .where_ hl.targetFilter hp.conflict.targetFilter
  have hupdate := criterion_sim hvalues .where_ hl.updateFilter hp.conflict.updateFilter
  have hexcluded : ∀ {a a' : Draft}, S.rel a a' →
      S.rel (word .excluded ++ token .dot ++ a) (word .excluded ++ token .dot ++ a') := by
    intro a a' ha
    exact h.append (h.append (h.word .excluded) (h.token .dot rfl)) ha
  have hset := h.clause [.do_, .update, .set]
    (h.commas (hp.conflict.resolutions hcolumns hvalues hexcluded))
  have hhead := h.append h.space (h.words [.on, .conflict])
  simp only [onConflict]
  -- both clauses have the same handlers and columns, so they take the same branch
  rw [← hl.doNothing, ← hl.resolutions, ← hl.fields]
  split
  · split
    · exact h.empty
    · exact h.fail _
  · split
    · exact h.fail _
    · refine h.append (h.append (h.append hhead hfields) hwhere) ?_
      split
      · exact h.append h.space (h.words [.do_, .nothing])
      · exact h.append hset hupdate

/-- ON DUPLICATE KEY UPDATE is, with the same name for the new row. -/
theorem onDuplicateKey_sim (row : Option String) :
    S.rel (onDuplicateKey c row p.conflict) (onDuplicateKey c' row p'.conflict) := by
  have h := S.congruence
  have hcolumns := S.qualified hc false
  refine h.append (h.aliasDraft rfl row)
    (h.unlessNone _ (hp.conflict.resolutions hcolumns hcolumns ?_))
  intro a a' ha
  cases row with
  | some name => exact h.append (h.append (h.token (.ident name) rfl) (h.token .dot rfl)) ha
  | none => exact h.append (h.word .values) (h.parens ha)

/-- What is done about conflicting rows is, in either style. -/
theorem resolved_sim : S.rel (resolved c q p) (resolved c' q' p') := by
  have hstyle : q.usesDuplicateKey = q'.usesDuplicateKey :=
    congrArg (·.conflictStyle == .onDuplicateKey) hp.layout.dialect
  simp only [resolved]
  rw [← hp.layout.conflict.isOpen, ← hstyle, ← hp.layout.slot]
  split
  · exact S.congruence.empty
  · split
    · exact onDuplicateKey_sim hp hc _
    · exact onConflict_sim hp hc

/-- RETURNING is. -/
theorem returned_sim : S.rel (returned c q p) (returned c' q' p') := by
  have hsome := isSome_of_rel hp.layout.updateTable
  simp only [returned]
  rw [← hsome]
  exact S.congruence.unlessNone [.returning]
    (hp.returns (S.qualified (S.declares hc true) q.updateTable.isSome))

/-! ## Statements -/

omit hp in
/-- A table is known by one name on both sides. -/
theorem nameIn_sim {t t' : Table} (hpart : S.part (.table t)) (ht : t.SameName t') :
    c.aliasOf t.slot = c'.aliasOf t'.slot ∧ t.nameIn c = t'.nameIn c' := by
  have halias : c.aliasOf t.slot = c'.aliasOf t.slot :=
    S.names hc hpart t.slot (List.mem_cons_self ..)
  simp only [Table.nameIn]
  rw [← ht.1, ← ht.2, halias]
  exact ⟨rfl, rfl⟩

/-- An UPDATE is, of tables with the same name. -/
theorem update_sim {t t' : Table} (hpart : S.part (.table t)) (ht : t.SameName t') :
    S.rel (update c q t p) (update c' q' t' p') := by
  have h := S.congruence
  obtain ⟨halias, hname⟩ := nameIn_sim hc hpart ht
  have hset := h.clause [.set] (h.commas (hp.assignments hc))
  have hjoined := joined_sim hp hc
  have hfrom := from_sim hp hc .nil
  have hfiltered := filtered_sim hp hc
  have hordered := ordered_sim hp hc
  have hlimit := limit_sim hc hp.limit
  have hinner := S.declares (S.nested hc true) true
  -- the table is written once more where others are joined to it
  have hagain : List.Forall₂ S.rel
      (if q.joins.isEmpty then []
      else [p.updateTable { c with nested := true, declares := true } (some (t.nameIn c ++ "_"))])
      (if q.joins.isEmpty then []
      else [p'.updateTable { c' with nested := true, declares := true }
        (some (t.nameIn c ++ "_"))]) := by
    split
    · exact .nil
    · exact .cons (hp.updateTable hinner) .nil
  have hhead := h.append (h.append (withs_sim hp hc) (h.word .update)) h.space
  simp only [update]
  rw [← halias, ← hname, ← hp.layout.dialect, ← hp.layout.joins]
  refine h.append (h.append (h.append hhead (hp.updateTable hc)) ?_) (returned_sim hp hc)
  cases q.dialect.updateLayout with
  | standard => exact h.append (h.append (h.append hjoined hset) hfrom) hfiltered
  | trailingOrderLimit =>
    exact h.append (h.append (h.append (h.append (h.append hjoined hset) hfrom) hfiltered)
      hordered) hlimit
  | fromAfterSet =>
    exact h.append (h.append (h.append (h.append (h.append hset (from_sim hp hc hagain)) hjoined)
      hfiltered) hordered) hlimit

/-- The table that rows are inserted into is. -/
theorem target_sim : S.rel (target c q p) (target c' q' p') := by
  have hname : (q.insertTable.bind fun t => c.aliasOf t.slot)
      = q'.insertTable.bind fun t => c'.aliasOf t.slot := by
    -- the tables are there on both sides or on neither
    have hsame := hp.layout.insertTable
    have hpart := hp.target
    generalize q.insertTable = t at hsame hpart ⊢
    generalize q'.insertTable = t' at hsame ⊢
    cases hsame with
    | none => rfl
    | some ht => exact (nameIn_sim hc (hpart _ rfl) ht).1
  simp only [target]
  rw [← hname]
  exact hp.insertTable hc

theorem inserting_sim : S.rel (inserting c q p) (inserting c' q' p') := by
  have h := S.congruence
  have hcolumns := hp.columns (S.qualified hc false)
  have hstyle : q.usesDuplicateKey = q'.usesDuplicateKey :=
    congrArg (·.conflictStyle == .onDuplicateKey) hp.layout.dialect
  have hlist := h.whenAny hcolumns (h.append h.space (h.parens (h.commas hcolumns)))
  simp only [inserting]
  rw [← hp.layout.replaces, ← hstyle, ← hp.layout.conflict.doNothing]
  refine h.append (h.append (h.append (h.append (h.append ?_ h.space) (h.word .into)) h.space)
    (target_sim hp hc)) hlist
  split
  · exact h.word .replace
  · exact h.append (h.word .insert) (h.when _ (h.append h.space (h.word .ignore)))

/-- An INSERT is, up to its rows. -/
theorem insertion_sim : S.rel (insertion c q p) (insertion c' q' p') := by
  have h := S.congruence
  have hrows := h.clause [.values] (h.commas (hp.rows (S.declares (S.nested hc true) true)))
  exact h.append (h.append (h.append (h.append (withs_sim hp hc) (inserting_sim hp hc)) hrows)
    (resolved_sim hp hc)) (returned_sim hp hc)

theorem selectHead_sim : S.rel (selectHead c q p) (selectHead c' q' p') := by
  have h := S.congruence
  have hterms := hp.distinctOn (S.declares hc true)
  have hmodifiers := h.when (!q.modifiers.isEmpty)
    (h.append (h.raw (" ".intercalate q.modifiers)) h.space)
  simp only [selectHead]
  rw [← hp.layout.distinct, ← hp.layout.top, ← hp.layout.modifiers]
  refine h.append (h.append ?_ ?_) hmodifiers
  · rw [← isEmpty_of_forall₂ hterms]
    split
    · exact h.append (h.append (h.words [.distinct, .on]) (h.parens (h.commas hterms))) h.space
    · exact h.when _ (h.append (h.word .distinct) h.space)
  · cases q.top with
    | none => exact h.empty
    | some n =>
      exact h.when _ (h.append (h.append (h.append (h.word .top) h.space)
        (h.parens (h.token (.int n) rfl))) h.space)

/-- What is selected is. -/
theorem selecting_sim : S.rel (selecting c q p) (selecting c' q' p') := by
  have h := S.congruence
  have hsome := isSome_of_rel hp.layout.insertTable
  have hinner := S.declares (S.nested hc true) true
  have hhead := h.append (h.append (h.word .select) h.space) (selectHead_sim hp hc)
  simp only [selecting]
  rw [← hp.layout.selectsInto, ← hsome]
  exact h.append (h.append hhead (h.commas (hp.selects hinner)))
    (h.when _ (h.clause [.into] (target_sim hp hc)))

/-- The page is. -/
theorem pagination_sim : S.rel (pagination c q) (pagination c' q') := by
  have hcounts := S.congruence.pagination q.dialect (!q.orderings.isEmpty) (count_sim hc hp.limit)
    (count_sim hc hp.offset)
  simp only [pagination]
  rw [← hp.layout.dialect, ← hp.layout.orderings]
  exact hcounts

/-- A SELECT is written in lockstep, all its clauses together. -/
theorem selection_sim : S.rel (selection c q p) (selection c' q' p') := by
  have h := S.congruence
  have hprior := criterion_sim hc .prewhere hp.layout.prefilter hp.prefilter
  have hgroup := criterion_sim hc .having hp.layout.groupFilter hp.groupFilter
  simp only [selection]
  rw [← hp.layout.deletes, ← hp.layout.inserts, ← hp.layout.forcedIndexes,
    ← hp.layout.usedIndexes, ← hp.layout.lock]
  have hverb : S.rel
      (if q.deletes then word .delete
      else when q.inserts (inserting c q p ++ space) ++ selecting c q p)
      (if q.deletes then word .delete
      else when q.inserts (inserting c' q' p' ++ space) ++ selecting c' q' p') := by
    split
    · exact h.word .delete
    · exact h.append (h.when _ (h.append (inserting_sim hp hc) h.space)) (selecting_sim hp hc)
  have hread := h.append (h.append (h.append (h.append (withs_sim hp hc) hverb)
    (from_sim hp hc .nil)) (h.indexHint .force q.forcedIndexes)) (h.indexHint .use q.usedIndexes)
  have hkept := h.append (h.append (h.append hread (joined_sim hp hc)) hprior)
    (filtered_sim hp hc)
  exact h.append (h.append (h.append (h.append (h.append hkept (grouped_sim hp hc)) hgroup)
    (ordered_sim hp hc)) (pagination_sim hp hc)) (h.locking q.lock)

omit hc in
/-- Statements whose parts are related are related. -/
theorem statement_sim {outer outer' : Context} (ho : S.alike outer outer') :
    S.rel (statement outer q p) (statement outer' q' p') := by
  have h := S.congruence
  have hl := hp.layout
  have hin : S.alike { outer with scope := outer.scope.enter q.scope }
      { outer' with scope := outer'.scope.enter q.scope } := S.enter ho q.scope
  have hflags := S.flags hin
  have hctx : S.alike (q.clauseContext { outer with scope := outer.scope.enter q.scope })
      (q.clauseContext { outer' with scope := outer'.scope.enter q.scope }) := by
    -- clauses start with these flags whatever is around the statement
    have hreset := S.grouping (S.qualified (S.declares (S.nested hin false) false) q.isQualified)
      (q.dialect.groupsByAlias && outer.groupByAlias)
    have hgroups : outer.groupByAlias = outer'.groupByAlias := hflags.groupByAlias
    simp only [Query.clauseContext]
    rw [← hgroups]
    exact hreset
  have hname : Context.aliasOf { outer with scope := outer.scope.enter q.scope } q.slot
      = Context.aliasOf { outer' with scope := outer'.scope.enter q.scope } q.slot :=
    S.names hin hp.whole q.slot (List.mem_cons_self ..)
  have hnested : outer.nested = outer'.nested := hflags.nested
  have hclauses : ∀ outer : Context, q'.clauseContext outer = q.clauseContext outer := by
    intro outer
    simp only [Query.clauseContext]
    rw [hl.isQualified, hl.dialect]
  -- both sides decide alike what is written; the table is generalized to split on both at once
  unfold statement
  dsimp only
  rw [← hl.scope, ← hl.isBlank, hclauses, ← hl.inserts, ← hl.rows, ← hl.slot, ← hname, ← hnested]
  split
  · exact h.empty
  · have hpart := hp.changed
    have hsame := hl.updateTable
    generalize q.updateTable = t at hsame hpart ⊢
    generalize q'.updateTable = t' at hsame ⊢
    cases hsame with
    | some ht => exact update_sim hp hctx (hpart _ rfl) ht
    | none =>
      show S.rel (if _ then _ else _) (if _ then _ else _)
      split
      · exact insertion_sim hp hctx
      · exact h.append (h.append (h.append (h.parensIf _ (selection_sim hp hctx))
          (resolved_sim hp hctx)) (h.declaration hflags.asKeyword hflags.declares _))
            (returned_sim hp hctx)

end Clause

end SqlCompose
