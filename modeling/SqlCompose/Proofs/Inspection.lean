import SqlCompose.Proofs.Closure
import SqlCompose.Proofs.Everywhere
import SqlCompose.Proofs.Upserts

/-! # Inspection — what holds of all that is written of a tree

    Whether a property holds of what is written of a tree depends on few of its parts: on constants,
    on CASE without branches, on conflict clauses and operands that are not written, and on criteria
    behind their words. An `Inspection` says which parts trees may have and which property is to
    hold; its fields are what has to be checked about these. Everything else is put together by
    composition.

    * `Part.criteria` — the criteria of a part, each with its place.
    * `Inspection` — the checks.
    * `Parts.Hold`, `ConflictParts.Hold` — the property holds of all parts of a statement.
    * `Clause.statement_holds` — it holds of the statement then. -/

namespace SqlCompose

open Draft

/-! ## What has to be checked -/

/-- The criterion that decides which rows are joined. -/
def JoinCondition.criterion? : JoinCondition → Option Term
  | .on criterion _ => some criterion
  | .none | .using _ => Option.none

/-- The criteria of a part, each with its place. -/
def Part.criteria : Part → List (CriterionPlace × Term)
  | expr (.call c) => c.filter.toList.map fun t => (.aggregate, t)
  | expr _ | table _ | setOperation _ => []
  | query q =>
    [(.rows, q.filter), (.priorRows, q.prefilter), (.groups, q.groupFilter),
      (.conflicts, q.conflict.targetFilter), (.updates, q.conflict.updateFilter)] ++
        (q.joins.filterMap fun j => j.condition.criterion?).map fun t => (.joined, t)

/-- Whether all statements of a set operation select equally many terms. -/
def SetOperation.isEven (s : SetOperation) : Bool :=
  s.operands.all fun o => o.query.selects.length == s.base.selects.length

/-- A property that is to hold of all that is written of a tree. -/
structure Inspection where
  /-- The parts that trees may have. -/
  part : Part → Prop
  /-- What is to hold of drafts. -/
  holds : Draft → Prop
  closure : Closure holds
  value : ∀ (ctx : Context) {v : Value} {mayBind : Bool}, part (.expr (.value v mayBind)) →
    holds (v.draft ctx mayBind)
  branchless : ∀ {otherwise : Option Term}, part (.expr (.case [] otherwise)) →
    holds (fail .caseWithoutBranch)
  refusal : ∀ {q : Query}, part (.query q) → q.conflict.isOpen = true →
    q.usesDuplicateKey = false → ∀ e ∈ q.conflict.refusal?, holds (fail e)
  unequal : ∀ (ctx : Context) {s : SetOperation} {a b : Draft}, part (.setOperation s) →
    s.isEven = false → holds a → holds b → holds (unequal ctx a b)
  /-- A criterion behind its words. Where it is guarded, it asks for something. -/
  criterion : ∀ {p : Part} {place : CriterionPlace} {t : Term} {ctx : Context}, part p →
    (place, t) ∈ p.criteria → (place.isGuarded = true → t.isEmpty = false) →
      holds (t.draft ctx) → holds (place.introduce (t.draft ctx))
  /-- The words ON that are for no criterion. -/
  distinctOn : holds (words [.distinct, .on])
  onConflict : holds (space ++ words [.on, .conflict])
  onDuplicateKey : ∀ {d : Draft}, holds d → holds (clause [.on, .duplicateKey, .update] d)

variable {S : Inspection}

/-- The filter of a call is that of an aggregate. -/
theorem Call.filter_holds {c : Call} (h : S.part (.expr (.call c))) {t : Term} {ctx : Context}
    (ht : c.filter = some t) (hd : S.holds (t.draft ctx)) :
    S.holds (CriterionPlace.aggregate.introduce (t.draft ctx)) := by
  refine S.criterion h ?_ (fun hguarded => absurd hguarded Bool.false_ne_true) hd
  show _ ∈ c.filter.toList.map _
  rw [ht]
  exact List.mem_singleton_self _

/-- The criterion of a join is one of its statement. -/
theorem Join.criterion_holds {q : Query} (h : S.part (.query q)) {j : Join} (hj : j ∈ q.joins)
    {t : Term} (ht : t ∈ j.condition.criterion?) {ctx : Context} (hd : S.holds (t.draft ctx)) :
    S.holds (CriterionPlace.joined.introduce (t.draft ctx)) := by
  refine S.criterion h ?_ (fun hguarded => absurd hguarded Bool.false_ne_true) hd
  exact List.mem_append_right _ (List.mem_map_of_mem (List.mem_filterMap.mpr ⟨j, hj, ht⟩))

/-- A criterion of a statement's own that is guarded and asks for something. -/
theorem Query.criterion_holds (place : CriterionPlace) {q : Query} {t : Term}
    (h : S.part (.query q)) (ht : (place, t) ∈ (Part.query q).criteria) (hasks : t.isEmpty = false)
    {ctx : Context} (hd : S.holds (t.draft ctx)) : S.holds (place.introduce (t.draft ctx)) :=
  S.criterion h ht (fun _ => hasks) hd

/-! ## Parts -/

/-- The property holds of the parts of a conflict clause, and of its criteria with their words. -/
structure ConflictParts.Hold (S : Inspection) (c : Conflict) (p : ConflictParts) : Prop where
  fields       : ∀ ctx, ∀ d ∈ p.fields ctx, S.holds d
  resolutions  : ∀ fieldCtx valueCtx {inserted : Draft → Draft},
    (∀ {d}, S.holds d → S.holds (inserted d)) →
      ∀ d ∈ p.resolutions fieldCtx valueCtx inserted, S.holds d
  targetFilter : c.targetFilter.isEmpty = false →
    ∀ ctx, S.holds (clause [.where_] (p.targetFilter ctx))
  updateFilter : c.updateFilter.isEmpty = false →
    ∀ ctx, S.holds (clause [.where_] (p.updateFilter ctx))

/-- The property holds of the parts of a statement, and of its criteria with their words. -/
structure Parts.Hold (S : Inspection) (q : Query) (p : Parts) : Prop where
  whole       : S.part (.query q)
  ctes        : ∀ ctx, ∀ d ∈ p.ctes ctx, S.holds d
  sources     : ∀ ctx, ∀ d ∈ p.sources ctx, S.holds d
  joins       : ∀ ctx, ∀ d ∈ p.joins ctx, S.holds d
  distinctOn  : ∀ ctx, ∀ d ∈ p.distinctOn ctx, S.holds d
  selects     : ∀ ctx, ∀ d ∈ p.selects ctx, S.holds d
  selected    : ∀ ctx name, ∀ d ∈ p.selected ctx name, S.holds d
  insertTable : ∀ ctx aliasName, S.holds (p.insertTable ctx aliasName)
  updateTable : ∀ ctx aliasName, S.holds (p.updateTable ctx aliasName)
  columns     : ∀ ctx, ∀ d ∈ p.columns ctx, S.holds d
  rows        : ∀ ctx, ∀ d ∈ p.rows ctx, S.holds d
  assignments : ∀ ctx, ∀ d ∈ p.assignments ctx, S.holds d
  prefilter   : q.prefilter.isEmpty = false → ∀ ctx, S.holds (clause [.prewhere] (p.prefilter ctx))
  filter      : q.filter.isEmpty = false → ∀ ctx, S.holds (clause [.where_] (p.filter ctx))
  groups      : ∀ ctx {short}, (∀ name, ∀ d ∈ short name, S.holds d) →
    ∀ d ∈ p.groups ctx short, S.holds d
  groupFilter : q.groupFilter.isEmpty = false →
    ∀ ctx, S.holds (clause [.having] (p.groupFilter ctx))
  orderings   : ∀ ctx {short}, (∀ name, ∀ d ∈ short name, S.holds d) →
    ∀ d ∈ p.orderings ctx short, S.holds d
  conflict    : p.conflict.Hold S q.conflict
  returns     : ∀ ctx, ∀ d ∈ p.returns ctx, S.holds d

namespace Clause

/-! ## Clauses -/

/-- A criterion that asks for nothing is left out with its word. -/
theorem criterion_holds (ctx : Context) {k : Keyword} {t : Term} {part : Context → Draft}
    (hpart : t.isEmpty = false → ∀ ctx, S.holds (clause [k] (part ctx))) :
    S.holds (criterion ctx k t part) := by
  simp only [criterion]
  cases hasks : t.isEmpty with
  | true => exact S.closure.empty
  | false => exact hpart hasks _

/-- An OVER clause. -/
theorem window_holds {partition orderings : List Draft} (hpartition : ∀ d ∈ partition, S.holds d)
    (horderings : ∀ d ∈ orderings, S.holds d) (frame : Option Frame) :
    S.holds (window partition orderings frame) := by
  have h := S.closure
  have hpart {k : Keyword} (hk : (word k ++ space).isPlain = true) {ds : List Draft}
      (hds : ∀ d ∈ ds, S.holds d) :
      ∀ d ∈ (if ds.isEmpty then [] else [word k ++ space ++ commas ds]), S.holds d :=
    Closure.onlyIf (List.forall_mem_singleton.mpr (h.behind hk (h.commas hds)))
  refine h.behind rfl (h.parens (h.join rfl ?_))
  rw [List.forall_mem_append, List.forall_mem_append]
  refine ⟨⟨hpart rfl hpartition, hpart rfl horderings⟩, ?_⟩
  cases frame with
  | none => exact List.forall_mem_nil _
  | some f => exact List.forall_mem_singleton.mpr (h.frame f)

/-- ON CONFLICT, or what it is not written for. -/
theorem onConflict_holds (ctx : Context) {c : Conflict} {p : ConflictParts} (hp : p.Hold S c)
    (hrefusal : ∀ e ∈ c.refusal?, S.holds (fail e)) : S.holds (onConflict ctx c p) := by
  have h := S.closure
  have hinserted : ∀ {d : Draft}, S.holds d → S.holds (word .excluded ++ token .dot ++ d) :=
    fun hd => h.behind rfl hd
  simp only [onConflict]
  split
  · next hnone =>
    split
    · exact h.empty
    · next hfields =>
      refine hrefusal _ ?_
      simp_all [Conflict.refusal?]
  · next hsome =>
    split
    · next hmissing =>
      refine hrefusal _ ?_
      simp_all [Conflict.refusal?]
    · have htarget : S.holds (Draft.parens (join (tokens [.comma, .space])
          (p.fields { ctx with declares := true }))) :=
        h.parens (h.join rfl (hp.fields _))
      have hset : S.holds (clause [.do_, .update, .set] (commas (p.resolutions
          { ctx with qualified := false } { ctx with qualified := true } _))) :=
        h.clause rfl (h.commas (hp.resolutions _ _ hinserted))
      refine h.append (h.append (h.append S.onConflict (h.when _ (h.behind rfl htarget)))
        (criterion_holds ctx hp.targetFilter)) ?_
      split
      · exact h.plain rfl
      · exact h.append hset (criterion_holds _ hp.updateFilter)

/-- ON DUPLICATE KEY. -/
theorem onDuplicateKey_holds (ctx : Context) (row : Option String) {c : Conflict}
    {p : ConflictParts} (hp : p.Hold S c) : S.holds (onDuplicateKey ctx row p) := by
  have h := S.closure
  refine h.append (h.aliasDraft _ _) (h.emptyOr _ (S.onDuplicateKey (h.commas ?_)))
  refine hp.resolutions _ _ ?_
  intro d hd
  cases row with
  | some name => exact h.behind rfl hd
  | none => exact h.behind rfl (h.parens hd)

section

variable {q : Query} {p : Parts} (hp : p.Hold S q) (ctx : Context)
include hp

/-- WITH. -/
theorem withs_holds : S.holds (withs ctx q p) := by
  have h := S.closure
  have hrecursive : S.holds (when (q.ctes.any Cte.isRecursive) (word .recursive ++ space)) :=
    h.when _ (h.plain rfl)
  exact h.emptyOr _ (h.append (h.behind rfl hrecursive) (h.commas (hp.ctes ctx)))

/-- FROM, with further sources. -/
theorem from_holds {further : List Draft} (hf : ∀ d ∈ further, S.holds d) :
    S.holds (from_ ctx p further) :=
  S.closure.unlessNone rfl (List.forall_mem_append.mpr ⟨hp.sources _, hf⟩)

/-- The joins. -/
theorem joined_holds : S.holds (joined ctx p) :=
  S.closure.when _ (S.closure.behind rfl (S.closure.join rfl (hp.joins ctx)))

/-- WHERE. -/
theorem filtered_holds : S.holds (filtered ctx q p) := criterion_holds ctx hp.filter

omit hp in
/-- An alias that stands for a selected term is one token. -/
theorem aliasOf_holds (name : String) : ∀ d ∈ aliasOf? q name, S.holds d := by
  simp only [aliasOf?]
  split
  · exact Closure.some (S.closure.plain rfl)
  · exact Closure.none

/-- GROUP BY. -/
theorem grouped_holds : S.holds (grouped ctx q p) := by
  have h := S.closure
  have hshort : ∀ name,
      ∀ d ∈ (if ctx.groupByAlias then aliasOf? q name else p.selected ctx name), S.holds d := by
    intro name
    split
    · exact aliasOf_holds name
    · exact hp.selected ctx name
  have hgroups : S.holds (clause [.groupBy] (commas (p.groups ctx _))) :=
    h.clause rfl (h.commas (hp.groups ctx hshort))
  exact h.emptyOr _ (h.append (h.append hgroups (h.when _ (h.plain rfl))) (h.when _ (h.plain rfl)))

/-- ORDER BY. -/
theorem ordered_holds : S.holds (ordered ctx q p) := by
  refine S.closure.unlessNone rfl (hp.orderings ctx ?_)
  intro name
  split
  · exact aliasOf_holds name
  · exact Closure.none

/-- The conflict clause. -/
theorem resolved_holds : S.holds (resolved ctx q p) := by
  simp only [resolved]
  split
  · exact S.closure.empty
  · next hopen =>
    split
    · exact onDuplicateKey_holds ctx _ hp.conflict
    · next hstyle =>
      have hopen : q.conflict.isOpen = true := by simpa using hopen
      have hstyle : q.usesDuplicateKey = false := by simpa using hstyle
      exact onConflict_holds ctx hp.conflict (S.refusal hp.whole hopen hstyle)

/-- RETURNING. -/
theorem returned_holds : S.holds (returned ctx q p) := S.closure.unlessNone rfl (hp.returns _)

/-! ## Statements -/

/-- UPDATE, in the layout of the dialect. -/
theorem update_holds (table : Table) : S.holds (update ctx q table p) := by
  have h := S.closure
  have hset : S.holds (clause [.set] (commas (p.assignments ctx))) :=
    h.clause rfl (h.commas (hp.assignments ctx))
  have hjoined := joined_holds hp ctx
  have hfrom := from_holds hp ctx (List.forall_mem_nil _)
  have hfiltered := filtered_holds hp ctx
  have hordered := ordered_holds hp ctx
  have hlimit : S.holds (limit ctx q.limit) := h.limit ctx q.limit
  have hhead : S.holds (withs ctx q p ++ word .update ++ space) :=
    h.before (h.before (withs_holds hp ctx) rfl) rfl
  refine h.append (h.append (h.append hhead (hp.updateTable ctx _)) ?_) (returned_holds hp ctx)
  cases q.dialect.updateLayout with
  | standard => exact h.append (h.append (h.append hjoined hset) hfrom) hfiltered
  | trailingOrderLimit =>
    exact h.append (h.append (h.append (h.append (h.append hjoined hset) hfrom) hfiltered) hordered)
      hlimit
  | fromAfterSet =>
    -- the table is written once more where others are joined to it
    have hagain : ∀ d ∈ (if q.joins.isEmpty then []
        else [p.updateTable { ctx with nested := true, declares := true }
          (some (table.nameIn ctx ++ "_"))]), S.holds d :=
      Closure.onlyIf (List.forall_mem_singleton.mpr (hp.updateTable _ _))
    have hsources := from_holds hp ctx hagain
    exact h.append (h.append (h.append (h.append (h.append hset hsources) hjoined) hfiltered)
      hordered) hlimit

/-- INSERT or REPLACE, up to where the rows come from. -/
theorem inserting_holds : S.holds (inserting ctx q p) := by
  have h := S.closure
  have hcolumns := h.parens (h.commas (hp.columns { ctx with qualified := false }))
  have hverb : S.holds (if q.replaces then word .replace
      else word .insert ++
        when (q.usesDuplicateKey && q.conflict.doNothing) (space ++ word .ignore)) := by
    split
    · exact h.plain rfl
    · exact h.behind rfl (h.when _ (h.plain rfl))
  have hinto := h.before (b := space) (h.before (b := word .into) (h.before (b := space) hverb rfl)
    rfl) rfl
  exact h.append (h.append hinto (hp.insertTable ctx _)) (h.when _ (h.behind rfl hcolumns))

/-- INSERT or REPLACE of rows. -/
theorem insertion_holds : S.holds (insertion ctx q p) := by
  have h := S.closure
  have hrows : S.holds (clause [.values] (commas
      (p.rows { ctx with nested := true, declares := true }))) :=
    h.clause rfl (h.commas (hp.rows _))
  exact h.append (h.append (h.append (h.append (withs_holds hp ctx) (inserting_holds hp ctx)) hrows)
    (resolved_holds hp ctx)) (returned_holds hp ctx)

/-- What stands in front of the select list. -/
theorem selectHead_holds : S.holds (selectHead ctx q p) := by
  have h := S.closure
  have hdistinctOn := h.parens (h.commas (hp.distinctOn { ctx with declares := true }))
  refine h.append (h.append ?_ ?_) (h.when _ (h.plain rfl))
  · split
    · exact h.before (h.append S.distinctOn hdistinctOn) rfl
    · exact h.when _ (h.plain rfl)
  · cases q.top with
    | none => exact h.empty
    | some n => exact h.when _ (h.plain rfl)

/-- SELECT with its list. -/
theorem selecting_holds : S.holds (selecting ctx q p) := by
  have h := S.closure
  have hselects := h.commas (hp.selects { ctx with nested := true, declares := true })
  have hinto : S.holds (clause [.into] (target ctx q p)) := h.clause rfl (hp.insertTable ctx _)
  exact h.append (h.append (h.behind rfl (selectHead_holds hp ctx)) hselects) (h.when _ hinto)

/-- SELECT, DELETE or INSERT of selected rows. -/
theorem selection_holds : S.holds (selection ctx q p) := by
  have h := S.closure
  have hverb : S.holds (if q.deletes then word .delete
      else when q.inserts (inserting ctx q p ++ space) ++ selecting ctx q p) := by
    split
    · exact h.plain rfl
    · exact h.append (h.when _ (h.before (inserting_holds hp ctx) rfl)) (selecting_holds hp ctx)
  have hfrom := from_holds hp ctx (List.forall_mem_nil _)
  have hforced : S.holds (indexHint .force q.forcedIndexes) := h.indexHint rfl _
  have hused : S.holds (indexHint .use q.usedIndexes) := h.indexHint rfl _
  have hread := h.append (h.append (h.append (h.append (withs_holds hp ctx) hverb) hfrom) hforced)
    hused
  have hprior : S.holds (criterion ctx .prewhere q.prefilter p.prefilter) :=
    criterion_holds ctx hp.prefilter
  have hkept := h.append (h.append (h.append hread (joined_holds hp ctx)) hprior)
    (filtered_holds hp ctx)
  have hgroups : S.holds (criterion ctx .having q.groupFilter p.groupFilter) :=
    criterion_holds ctx hp.groupFilter
  have harranged := h.append (h.append (h.append hkept (grouped_holds hp ctx)) hgroups)
    (ordered_holds hp ctx)
  exact h.append (h.append harranged (h.page ctx q)) (h.locking q.lock)

omit ctx in
/-- The property holds of a statement if it does of its parts. -/
theorem statement_holds (outer : Context) : S.holds (statement outer q p) := by
  have h := S.closure
  unfold statement
  dsimp only
  split
  · exact h.empty
  · split
    · next table _ => exact update_holds hp _ table
    · split
      · exact insertion_holds hp _
      · exact h.append (h.append (h.append (h.parensIf _ (selection_holds hp _))
          (resolved_holds hp _)) (h.declaration _ _)) (returned_holds hp _)

end

end Clause

end SqlCompose
