import SqlCompose.Proofs.Building
import SqlCompose.Proofs.ClauseLeaves

/-! # Upserts — an INSERT does one thing about conflicting rows

    The calls about conflicts share one record, and where a criterion goes depends on the calls
    before it. Whatever their order, a statement that skips conflicting rows does not update them,
    and no filter is set before what it filters. So an INSERT of rows with an open conflict clause
    is written with one handler or none, and there are two reasons for which it is not written.

    * `Step.Affects`, `Step.affects` — what a call can do to what a statement changes.
    * `Conflict.Sound`, `Query.Built.sound` — what holds of the conflict clause of every statement.
    * `Step.resolutions`, `Step.resolutions_run` — the updates of a statement are those of the
      calls, in the order of the calls.
    * `Conflict.refusal?` — why a conflict clause is not written.
    * `Clause.setting`, `Clause.Handles` — what one update sets, and how a conflict clause is
      written.
    * `Query.upsert_written` — the theorem. -/

namespace SqlCompose

open Draft

/-! ## What a call does about conflicts -/

/-- A criterion for conflicts goes to the one filter that is being built. -/
theorem Conflict.filterBy_eq {criterion : Term} {c d : Conflict}
    (h : c.filterBy criterion = .ok d) :
    c.doNothing = false ∧ c.fields ≠ [] ∧
      ((c.resolutions = [] ∧ d = { c with targetFilter := c.targetFilter.and criterion }) ∨
        (c.resolutions ≠ [] ∧ d = { c with updateFilter := c.updateFilter.and criterion })) := by
  simp only [Conflict.filterBy] at h
  split at h
  · exact nomatch h
  · next hnothing =>
    split at h
    · exact nomatch h
    · next hfields =>
      refine ⟨by simpa using hnothing, by simpa using hfields, ?_⟩
      split at h
      · next hnone => exact .inl ⟨by simpa using hnone, (Except.ok.inj h).symm⟩
      · next hsome => exact .inr ⟨by simpa using hsome, (Except.ok.inj h).symm⟩

/-- What a statement changes, and what it does about conflicts. -/
structure Effect where
  dialect     : Dialect
  insertTable : Option Table
  updateTable : Option Table
  deletes     : Bool
  selectsInto : Bool
  conflict    : Conflict

/-- What the statement changes. -/
def Query.effect (q : Query) : Effect where
  dialect := q.dialect
  insertTable := q.insertTable
  updateTable := q.updateTable
  deletes := q.deletes
  selectsInto := q.selectsInto
  conflict := q.conflict

/-- An update of conflicting rows with its columns bound to the new table. -/
def Resolution.replaceTable (current new : Table) (r : Resolution) : Resolution :=
  ⟨r.field.replaceTable current new, r.value.map (Term.replaceTable current new)⟩

namespace Step

/-- The update of conflicting rows that a call adds. -/
def resolution? (q : Query) : Step → Option Resolution
  | doUpdate column value | onDuplicateKeyUpdate column value =>
    some ⟨column.boundTo q.insertSource?, value⟩
  | _ => none

/-- What a call makes of an update that is there already. -/
def rebind : Step → Resolution → Resolution
  | replaceTable current new => Resolution.replaceTable current new
  | _ => id

/-- What a call can do to what a statement changes. The verb can be set only as long as the
    statement does not insert. -/
inductive Affects (s : Step) (q r : Query) : Prop
  /-- The call is about something else. -/
  | kept (hresolution : s.resolution? q = none) (hrebind : s.rebind = id)
      (heffect : r.effect = q.effect)
  /-- The verb is set. -/
  | verb (hresolution : s.resolution? q = none) (hrebind : s.rebind = id)
      (hnone : q.insertTable = none) (hconflict : r.conflict = q.conflict)
  /-- The conflict clause is opened, or gets more columns. -/
  | opened {t : Table} {fields : List Term} (hresolution : s.resolution? q = none)
      (hrebind : s.rebind = id) (htable : q.insertTable = some t)
      (heffect : r.effect = { q.effect with
        conflict := { q.conflict with isOpen := true, fields := q.conflict.fields ++ fields } })
  /-- Conflicting rows are to be skipped. -/
  | skipped (hresolution : s.resolution? q = none) (hrebind : s.rebind = id)
      (hnone : q.conflict.resolutions = [])
      (heffect : r.effect = { q.effect with conflict := { q.conflict with doNothing := true } })
  /-- One more column of conflicting rows is updated. -/
  | updated {resolution : Resolution} {isOpen : Bool}
      (hresolution : s.resolution? q = some resolution) (hrebind : s.rebind = id)
      (hopen : isOpen = q.conflict.isOpen ∨ q.insertTable ≠ none)
      (hnothing : q.conflict.doNothing = false)
      (heffect : r.effect = { q.effect with
        conflict := { q.conflict with
          isOpen := isOpen
          resolutions := q.conflict.resolutions ++ [resolution] } })
  /-- A filter of the conflict clause gets a criterion. -/
  | filtered {criterion : Term} {c : Conflict} (hresolution : s.resolution? q = none)
      (hrebind : s.rebind = id) (hfilter : q.conflict.filterBy criterion = .ok c)
      (heffect : r.effect = { q.effect with conflict := c })
  /-- A table is replaced. -/
  | rebound {current new : Table} (hstep : s = replaceTable current new)
      (hr : r = q.replaceTable current new)

/-- What each call can do, by the calls. -/
theorem affects {s : Step} {q r : Query} (h : s.apply q = .ok r) : s.Affects q r := by
  cases makes h with
  | into hnone => exact .verb rfl rfl hnone.1 rfl
  | selectInto hnone => exact .verb rfl rfl hnone rfl
  | update hverb | delete hverb =>
    exact .verb rfl rfl (Query.insertTable_of_hasVerb hverb) rfl
  | onConflict htable => exact .opened rfl rfl htable rfl
  | doNothing hnone | onDuplicateKeyIgnore hnone => exact .skipped rfl rfl hnone rfl
  | doUpdate hnothing => exact .updated rfl rfl (.inl rfl) hnothing rfl
  | onDuplicateKeyUpdate htable hnothing => exact .updated rfl rfl (.inr htable) hnothing rfl
  | conflictFiltered _ _ hfilter => exact .filtered rfl rfl hfilter rfl
  | replaceTable => exact .rebound rfl rfl
  | _ => exact .kept rfl rfl rfl

end Step

/-! ## What holds of every conflict clause -/

/-- Rows are not both skipped and updated, and filters are there only with what they filter. -/
structure Conflict.Sound (c : Conflict) : Prop where
  exclusive : c.doNothing = true → c.resolutions = []
  target : c.targetFilter.isEmpty = false → c.fields ≠ []
  update : c.updateFilter.isEmpty = false → c.fields ≠ [] ∧ c.resolutions ≠ []

/-- Binding columns to another table makes no criterion of the empty one. -/
theorem Term.isEmpty_replaceTable (current new : Table) (t : Term) :
    (t.replaceTable current new).isEmpty = t.isEmpty := by
  obtain ⟨expr, aliasName⟩ := t
  cases expr <;> rfl

namespace Conflict.Sound

variable {c : Conflict}

/-- Without a conflict clause, nothing is said. -/
theorem none : Conflict.none.Sound := ⟨fun _ => rfl, nofun, nofun⟩

/-- More columns may conflict. -/
theorem addFields (h : c.Sound) (fields : List Term) :
    { c with isOpen := true, fields := c.fields ++ fields : Conflict }.Sound where
  exclusive := h.exclusive
  target hfilter := List.append_ne_nil_of_left_ne_nil (h.target hfilter) _
  update hfilter := ⟨List.append_ne_nil_of_left_ne_nil (h.update hfilter).1 _, (h.update hfilter).2⟩

/-- Rows may be skipped where none are updated. -/
theorem skip (h : c.Sound) (hnone : c.resolutions = []) :
    { c with doNothing := true : Conflict }.Sound where
  exclusive _ := hnone
  target := h.target
  update := h.update

/-- Rows may be updated where none are skipped. -/
theorem addResolution (h : c.Sound) (hnothing : c.doNothing = false) (isOpen : Bool)
    (resolution : Resolution) :
    { c with
      isOpen := isOpen
      resolutions := c.resolutions ++ [resolution] : Conflict }.Sound where
  exclusive hskips := nomatch hnothing.symm.trans hskips
  target := h.target
  update hfilter := ⟨(h.update hfilter).1, List.append_ne_nil_of_left_ne_nil (h.update hfilter).2 _⟩

/-- A filter is set only behind what it filters. -/
theorem filterBy (h : c.Sound) {criterion : Term} {d : Conflict}
    (hfilter : c.filterBy criterion = .ok d) : d.Sound := by
  obtain ⟨hnothing, hfields, ⟨hnone, rfl⟩ | ⟨hsome, rfl⟩⟩ := Conflict.filterBy_eq hfilter
  · exact ⟨h.exclusive, fun _ => hfields, h.update⟩
  · exact ⟨h.exclusive, h.target, fun _ => ⟨hfields, hsome⟩⟩

/-- Replacing a table takes no column, no update and no filter away. -/
theorem replaceTable (h : c.Sound) (current new : Table) :
    (c.replaceTable current new).Sound where
  exclusive hskips := by
    show c.resolutions.map _ = []
    rw [h.exclusive hskips, List.map_nil]
  target hfilter := by
    have hfilter : (c.targetFilter.replaceTable current new).isEmpty = false := hfilter
    rw [Term.isEmpty_replaceTable] at hfilter
    exact mt List.map_eq_nil_iff.mp (h.target hfilter)
  update hfilter := by
    have hfilter : (c.updateFilter.replaceTable current new).isEmpty = false := hfilter
    rw [Term.isEmpty_replaceTable] at hfilter
    obtain ⟨hfields, hresolutions⟩ := h.update hfilter
    exact ⟨mt List.map_eq_nil_iff.mp hfields, mt List.map_eq_nil_iff.mp hresolutions⟩

end Conflict.Sound

/-- The conflict clause is sound, and open only where something is inserted. -/
structure Effect.Sound (e : Effect) : Prop where
  conflict : e.conflict.Sound
  inserts : e.conflict.isOpen = true → e.insertTable ≠ none

/-- Something is inserted, and nothing else is changed. -/
structure Effect.InsertsOnly (e : Effect) : Prop where
  inserts : e.insertTable ≠ none
  updates : e.updateTable = none
  deletes : e.deletes = false
  selects : e.selectsInto = false

namespace Step

variable {s : Step} {q r : Query}

/-- Every call leaves a sound conflict clause sound. -/
theorem sound (h : s.apply q = .ok r) (hq : q.effect.Sound) : r.effect.Sound := by
  cases affects h with
  | kept _ _ heffect =>
    rw [heffect]
    exact hq
  | verb _ _ hnone hconflict =>
    -- where nothing was inserted the clause is not open
    have hconflict : r.effect.conflict = q.effect.conflict := hconflict
    constructor
    · rw [hconflict]
      exact hq.conflict
    · rw [hconflict]
      intro hopen
      exact absurd hnone (hq.inserts hopen)
  | @opened t fields _ _ htable heffect =>
    rw [heffect]
    have hinserts : q.insertTable ≠ none := by
      rw [htable]
      exact nofun
    exact ⟨hq.conflict.addFields fields, fun _ => hinserts⟩
  | skipped _ _ hnone heffect =>
    rw [heffect]
    exact ⟨hq.conflict.skip hnone, hq.inserts⟩
  | @updated resolution isOpen _ _ hopen hnothing heffect =>
    rw [heffect]
    refine ⟨hq.conflict.addResolution hnothing isOpen resolution, ?_⟩
    rcases hopen with rfl | hinserts
    · exact hq.inserts
    · exact fun _ => hinserts
  | @filtered criterion c _ _ hfilter heffect =>
    rw [heffect]
    refine ⟨hq.conflict.filterBy hfilter, ?_⟩
    have hopen : c.isOpen = q.conflict.isOpen := by
      obtain ⟨-, -, ⟨-, rfl⟩ | ⟨-, rfl⟩⟩ := Conflict.filterBy_eq hfilter <;> rfl
    show c.isOpen = true → q.insertTable ≠ none
    rw [hopen]
    exact hq.inserts
  | @rebound current new _ hr =>
    subst hr
    exact ⟨hq.conflict.replaceTable current new,
      fun hopen => mt Option.map_eq_none_iff.mp (hq.inserts hopen)⟩

/-- A statement that inserts gets no other verb. -/
theorem insertsOnly (h : s.apply q = .ok r) (hq : q.effect.InsertsOnly) :
    r.effect.InsertsOnly := by
  cases affects h with
  | verb _ _ hnone _ => exact absurd hnone hq.inserts
  | @rebound current new _ hr =>
    subst hr
    have hupdates : q.updateTable = none := hq.updates
    refine ⟨mt Option.map_eq_none_iff.mp hq.inserts, ?_, hq.deletes, hq.selects⟩
    show q.updateTable.map _ = none
    rw [hupdates]
    rfl
  | kept _ _ heffect | opened _ _ _ heffect | skipped _ _ _ heffect | updated _ _ _ _ heffect
  | filtered _ _ _ heffect =>
    rw [heffect]
    exact ⟨hq.inserts, hq.updates, hq.deletes, hq.selects⟩

end Step

/-- The conflict clause of every statement is sound. -/
theorem Query.Built.sound {q : Query} (hq : q.Built) : q.effect.Sound := by
  have hstart : ∀ (identity : Identity) (dialect : Dialect),
      (start identity dialect).effect.Sound := fun _ _ => ⟨.none, nofun⟩
  exact hq.invariant (P := fun q => q.effect.Sound) hstart Step.sound

/-! ## The updates in the order of the calls -/

namespace Step

/-- The updates of conflicting rows that calls add, each as the calls behind it leave it. -/
def resolutions (q : Query) : List Step → List Resolution
  | [] => []
  | s :: rest =>
    match s.apply q with
    | .ok r =>
      (s.resolution? q).toList.map (fun a => rest.foldl (fun a s => s.rebind a) a) ++
        resolutions r rest
    | .error _ => []

/-- A call adds its update behind those that are there. -/
theorem resolutions_apply {s : Step} {q r : Query} (h : s.apply q = .ok r) :
    r.conflict.resolutions =
      q.conflict.resolutions.map s.rebind ++ (s.resolution? q).toList := by
  have hconflict : ∀ e : Effect, r.effect = e →
      r.conflict.resolutions = e.conflict.resolutions := by
    rintro _ rfl
    rfl
  -- only an update adds to the list, and only a replaced table changes what is in it
  cases affects h with
  | kept hresolution hrebind heffect | opened hresolution hrebind _ heffect
  | skipped hresolution hrebind _ heffect =>
    rw [hresolution, hrebind, List.map_id, hconflict _ heffect]
    exact (List.append_nil _).symm
  | verb hresolution hrebind _ hverb =>
    rw [hresolution, hrebind, List.map_id, hverb]
    exact (List.append_nil _).symm
  | updated hresolution hrebind _ _ heffect =>
    rw [hresolution, hrebind, List.map_id, hconflict _ heffect]
    rfl
  | filtered hresolution hrebind hfilter heffect =>
    rw [hresolution, hrebind, List.map_id, hconflict _ heffect]
    obtain ⟨-, -, ⟨-, rfl⟩ | ⟨-, rfl⟩⟩ := Conflict.filterBy_eq hfilter <;>
      exact (List.append_nil _).symm
  | rebound hstep hr =>
    subst hstep hr
    exact (List.append_nil _).symm

/-- The updates of a statement are those it had, and behind them those that the calls add. -/
theorem resolutions_run {steps : List Step} {q r : Query} (h : run q steps = .ok r) :
    r.conflict.resolutions =
      q.conflict.resolutions.map (fun a => steps.foldl (fun a s => s.rebind a) a) ++
        resolutions q steps := by
  induction steps generalizing q with
  | nil =>
    obtain rfl : q = r := Except.ok.inj h
    show _ = q.conflict.resolutions.map id ++ []
    rw [List.map_id, List.append_nil]
  | cons s rest ih =>
    obtain ⟨q', hs, hrest⟩ := run_cons_ok h
    rw [ih hrest, resolutions_apply hs, List.map_append, List.map_map, List.append_assoc]
    simp only [resolutions, hs]
    rfl

end Step

/-! ## How a conflict clause is written -/

/-- Why a conflict clause is not written: it does not say what is done, or it updates rows without
    saying which columns conflict. -/
def Conflict.refusal? (c : Conflict) : Option BuildError :=
  if !c.fields.isEmpty && !c.doNothing && c.resolutions.isEmpty then some .conflictUnhandled
  else if !c.resolutions.isEmpty && c.fields.isEmpty then some .conflictUpdateWithoutFields
  else Option.none

namespace Clause

/-- What counts as a conflict: the columns that conflict, and in which rows. -/
def conflictTarget (ctx : Context) (c : Conflict) : Draft :=
  let fields := termDrafts { ctx with declares := true } c.fields
  space ++ words [.on, .conflict] ++
    when (!fields.isEmpty) (space ++ parens (join (tokens [.comma, .space]) fields)) ++
    criterion ctx .where_ c.targetFilter fun ctx => c.targetFilter.draft ctx

/-- Conflicting rows are skipped. -/
def skipping : Draft := space ++ words [.do_, .nothing]

/-- The value that the INSERT had for a column. -/
def excluded (column : Draft) : Draft := word .excluded ++ token .dot ++ column

/-- What an update sets: its column, without the table, to the value that the call gave, or else to
    the one that the INSERT had. -/
def setting (ctx : Context) (r : Resolution) : Draft :=
  let column := r.field.draft { ctx with qualified := false }
  let value := r.value.map fun t => t.draft { ctx with qualified := true }
  column ++ token .equals ++ value.getD (excluded column)

/-- The renderer writes what every update sets, in the order of the updates. -/
theorem resolutionDrafts_eq_map (ctx : Context) (resolutions : List Resolution) :
    resolutionDrafts { ctx with qualified := false } { ctx with qualified := true } excluded
      resolutions = resolutions.map (setting ctx) := by
  induction resolutions with
  | nil => rfl
  | cons r rest ih =>
    obtain ⟨field, value⟩ := r
    have hsetting : setting ctx ⟨field, value⟩ = field.draft { ctx with qualified := false } ++
        token .equals ++ (valueDraft? { ctx with qualified := true } value).getD
          (excluded (field.draft { ctx with qualified := false })) := by
      cases value <;> rfl
    rw [List.map_cons, ← ih, hsetting]
    rfl

/-- Conflicting rows are updated: each update sets its column, in the order of the updates. -/
def updating (ctx : Context) (c : Conflict) : Draft :=
  let valueCtx := { ctx with qualified := true }
  clause [.do_, .update, .set] (commas (c.resolutions.map (setting ctx))) ++
    criterion valueCtx .where_ c.updateFilter fun ctx => c.updateFilter.draft ctx

/-- A conflict clause as it is written: nothing where nothing is said, and otherwise with one of two
    handlers. -/
inductive Handles (ctx : Context) (c : Conflict) : Draft → Prop
  | nothing (hfields : c.fields = []) (hskips : c.doNothing = false)
      (hupdates : c.resolutions = []) : Handles ctx c empty
  | skips (hskips : c.doNothing = true) (hupdates : c.resolutions = []) :
      Handles ctx c (conflictTarget ctx c ++ skipping)
  | updates (hfields : c.fields ≠ []) (hskips : c.doNothing = false)
      (hupdates : c.resolutions ≠ []) : Handles ctx c (conflictTarget ctx c ++ updating ctx c)

/-- A sound conflict clause is refused, or written with one handler at most. -/
theorem onConflict_cases (ctx : Context) {c : Conflict} (hc : c.Sound) :
    (∃ e, c.refusal? = some e ∧ onConflict ctx c c.parts = fail e) ∨
      (c.refusal? = none ∧ Handles ctx c (onConflict ctx c c.parts)) := by
  -- rows are skipped, updated or neither, and the columns decide whether that can be written
  by_cases hskips : c.doNothing = true
  · have hupdates := hc.exclusive hskips
    have hrefusal : c.refusal? = none := by simp [Conflict.refusal?, hskips, hupdates]
    have hwritten : onConflict ctx c c.parts = conflictTarget ctx c ++ skipping := by
      simp only [onConflict, c.parts_eq, hskips, hupdates]
      rfl
    rw [hwritten]
    exact .inr ⟨hrefusal, .skips hskips hupdates⟩
  have hskips : c.doNothing = false := by simpa using hskips
  by_cases hupdates : c.resolutions = []
  · by_cases hfields : c.fields = []
    · have hrefusal : c.refusal? = none := by simp [Conflict.refusal?, hupdates, hfields]
      have hwritten : onConflict ctx c c.parts = empty := by
        simp only [onConflict, hskips, hupdates, hfields]
        rfl
      rw [hwritten]
      exact .inr ⟨hrefusal, .nothing hfields hskips hupdates⟩
    · refine .inl ⟨.conflictUnhandled, ?_, ?_⟩
      · simp [Conflict.refusal?, hskips, hupdates, hfields]
      · simp [onConflict, hskips, hupdates, hfields]
  · by_cases hfields : c.fields = []
    · refine .inl ⟨.conflictUpdateWithoutFields, ?_, ?_⟩
      · simp [Conflict.refusal?, hupdates, hfields]
      · simp [onConflict, hupdates, hfields]
    · have hrefusal : c.refusal? = none := by simp [Conflict.refusal?, hupdates, hfields]
      have hwritten : onConflict ctx c c.parts = conflictTarget ctx c ++ updating ctx c := by
        simp only [onConflict, c.parts_eq, hskips, Bool.false_eq_true, if_false]
        rw [if_neg (by simpa using hupdates), if_neg (by simpa using fun _ => hfields), updating,
          ← resolutionDrafts_eq_map]
        rfl
      rw [hwritten]
      exact .inr ⟨hrefusal, .updates hfields hskips hupdates⟩

end Clause

/-! ## Parts that do not stop -/

/-- Terms that are written to their ends are drafted so. -/
theorem complete_termDrafts {ctx : Context} {ts : List Term}
    (h : ∀ t ∈ ts, (t.draft ctx).stop = none) : ∀ d ∈ termDrafts ctx ts, d.stop = none := by
  induction ts with
  | nil => exact fun _ hd => absurd hd List.not_mem_nil
  | cons t rest ih =>
    intro d hd
    rcases List.mem_cons.mp hd with rfl | hd
    · exact h t List.mem_cons_self
    · exact ih (fun t ht => h t (List.mem_cons_of_mem _ ht)) d hd

/-- Rows of terms that are written to their ends are drafted so. -/
theorem complete_rowDrafts {ctx : Context} {rows : List (List Term)}
    (h : ∀ row ∈ rows, ∀ t ∈ row, (t.draft ctx).stop = none) :
    ∀ d ∈ rowDrafts ctx rows, d.stop = none := by
  induction rows with
  | nil => exact fun _ hd => absurd hd List.not_mem_nil
  | cons row rest ih =>
    intro d hd
    rcases List.mem_cons.mp hd with rfl | hd
    · have hrow := complete_termDrafts (h row List.mem_cons_self)
      exact complete_parens (complete_commas hrow)
    · exact ih (fun row hrow => h row (List.mem_cons_of_mem _ hrow)) d hd

/-- Updates of conflicting rows are written to their ends if their columns and values are. -/
theorem Clause.complete_settings {ctx : Context} {resolutions : List Resolution}
    (h : ∀ r ∈ resolutions, (r.field.draft { ctx with qualified := false }).stop = none ∧
      ∀ t, r.value = some t → (t.draft { ctx with qualified := true }).stop = none) :
    ∀ d ∈ resolutions.map (setting ctx), d.stop = none := by
  refine List.forall_mem_map.mpr fun r hr => ?_
  obtain ⟨field, value⟩ := r
  obtain ⟨hfield, hvalue⟩ := h _ hr
  refine complete_append (complete_append hfield rfl) ?_
  cases value with
  | none => exact complete_append rfl hfield
  | some t => exact hvalue t rfl

/-- A criterion that is written to its end is so as a clause. -/
theorem Clause.complete_criterion {ctx : Context} (k : Keyword) {t : Term}
    (h : (t.draft { ctx with nested := true }).stop = none) :
    (criterion ctx k t fun ctx => t.draft ctx).stop = none :=
  complete_when _ (complete_clause [k] h)

/-! ## The theorem -/

namespace Query

/-- All terms of an INSERT of rows are written to their ends in the contexts of their clauses. -/
structure TermsComplete (ctx : Context) (q : Query) : Prop where
  ctes : ∀ d ∈ cteDrafts ctx q.ctes, d.stop = none
  table : ∀ t, q.insertTable = some t → (temporalDraft ctx t.temporal).stop = none
  columns : ∀ t ∈ q.columns, (t.draft { ctx with qualified := false }).stop = none
  rows : ∀ row ∈ q.rows, ∀ t ∈ row,
    (t.draft { ctx with nested := true, declares := true }).stop = none
  fields : ∀ t ∈ q.conflict.fields, (t.draft { ctx with declares := true }).stop = none
  resolutions : ∀ r ∈ q.conflict.resolutions,
    (r.field.draft { ctx with qualified := false }).stop = none ∧
      ∀ t, r.value = some t → (t.draft { ctx with qualified := true }).stop = none
  targetFilter : (q.conflict.targetFilter.draft { ctx with nested := true }).stop = none
  updateFilter :
    (q.conflict.updateFilter.draft { ctx with nested := true, qualified := true }).stop = none
  returns : ∀ t ∈ q.returns,
    (t.draft { ctx with declares := true, qualified := q.updateTable.isSome }).stop = none

/-- An INSERT of rows, up to its conflict clause. -/
def insertedRows (ctx : Context) (q : Query) : Draft :=
  Clause.withs ctx q q.parts ++ Clause.inserting ctx q q.parts ++
    clause [.values] (commas (q.parts.rows { ctx with nested := true, declares := true }))

/-- With rows and no other verb, a statement is an INSERT of rows. -/
theorem draft_of_insertsOnly {q : Query} (hq : q.effect.InsertsOnly) (hrows : q.rows ≠ [])
    (outer : Context) :
    q.draft outer = q.insertedRows (q.innerContext outer) ++
      Clause.resolved (q.innerContext outer) q q.parts ++
        Clause.returned (q.innerContext outer) q q.parts := by
  obtain ⟨t, htable⟩ := Option.ne_none_iff_exists'.mp hq.inserts
  have htable : q.insertTable = some t := htable
  have hupdate : q.updateTable = none := hq.updates
  have hdeletes : q.deletes = false := hq.deletes
  have hselects : q.selectsInto = false := hq.selects
  have hsome : q.rows.isEmpty = false := List.isEmpty_eq_false_iff.mpr hrows
  have hblank : q.isBlank = false := by simp [isBlank, htable, hupdate, hsome]
  have hinserts : (q.inserts && !q.rows.isEmpty) = true := by
    simp [inserts, htable, hdeletes, hselects, hsome]
  show Clause.statement outer q q.parts = _
  simp only [Clause.statement, hblank, hupdate, hinserts, Bool.false_eq_true, if_false, if_true]
  rfl

variable {ctx : Context} {q : Query}

theorem complete_withs (h : q.TermsComplete ctx) : (Clause.withs ctx q q.parts).stop = none := by
  simp only [Clause.withs, q.parts_eq]
  split
  · rfl
  · exact complete_append (complete_append rfl (complete_when _ rfl)) (complete_commas h.ctes)

theorem complete_inserting (h : q.TermsComplete ctx) :
    (Clause.inserting ctx q q.parts).stop = none := by
  have htarget : (Clause.target ctx q q.parts).stop = none := by
    simp only [Clause.target, q.parts_eq]
    cases htable : q.insertTable with
    | none => rfl
    | some t =>
      have htemporal := h.table t htable
      obtain ⟨name, schema, slot, temporal⟩ := t
      have hschema : (Schema.qualifier schema).stop = none := by cases schema <;> rfl
      exact complete_append (complete_append (complete_append hschema rfl) htemporal)
        (ctx.complete_aliasDraft _)
  have hcolumns : (commas (termDrafts { ctx with qualified := false } q.columns)).stop = none :=
    complete_commas (complete_termDrafts h.columns)
  simp only [Clause.inserting]
  refine complete_append (complete_append (complete_append (complete_append (complete_append
    ?_ rfl) rfl) rfl) htarget) (complete_when _ (complete_append rfl (complete_parens ?_)))
  · split
    · rfl
    · exact complete_append rfl (complete_when _ rfl)
  · rw [q.parts_eq]
    exact hcolumns

/-- The rows of an INSERT are written to their ends, with all that stands in front of them. -/
theorem complete_insertedRows (h : q.TermsComplete ctx) : (q.insertedRows ctx).stop = none := by
  refine complete_append (complete_append (complete_withs h) (complete_inserting h))
    (complete_clause _ ?_)
  rw [q.parts_eq]
  exact complete_commas (complete_rowDrafts h.rows)

theorem complete_returned (h : q.TermsComplete ctx) :
    (Clause.returned ctx q q.parts).stop = none := by
  simp only [Clause.returned, Clause.unlessNone, q.parts_eq]
  split
  · rfl
  · exact complete_clause _ (complete_commas (complete_termDrafts h.returns))

/-- Both handlers are written to their ends. -/
theorem complete_handles (h : q.TermsComplete ctx) {upsert : Draft}
    (hupsert : Clause.Handles ctx q.conflict upsert) : upsert.stop = none := by
  have htarget : (Clause.conflictTarget ctx q.conflict).stop = none := by
    have hfields : (Draft.join (tokens [.comma, .space])
        (termDrafts { ctx with declares := true } q.conflict.fields)).stop = none :=
      complete_join rfl (complete_termDrafts h.fields)
    exact complete_append (complete_append rfl (complete_when _ (complete_append rfl
      (complete_parens hfields)))) (Clause.complete_criterion .where_ h.targetFilter)
  cases hupsert with
  | nothing => rfl
  | skips => exact complete_append htarget rfl
  | updates =>
    have hupdates := complete_commas (Clause.complete_settings h.resolutions)
    exact complete_append htarget (complete_append (complete_clause _ hupdates)
      (Clause.complete_criterion .where_ h.updateFilter))

/-- **An upsert does one thing about conflicting rows.** Let calls succeed on an empty statement,
    the first of which inserts into a table, the others in any order.
    * Conflicting rows are not both skipped and updated; a filter for conflicts is there only with
      columns that conflict, and one for updates also only with updates; an open conflict clause is
      in a statement that inserts.
    * The updates are those of the calls, in the order of the calls.
    * Where the dialect is not MySQL, a statement with rows and an open conflict clause, all of
      whose terms are written to their ends, is not written for two reasons only: there are columns
      that conflict and no handler, or updates and no such columns. Otherwise its rows are followed
      by nothing, by `DO NOTHING`, or by `DO UPDATE SET` with all updates. -/
theorem upsert_written {identity : Identity} {dialect : Dialect} {t : Table} {steps : List Step}
    {q : Query} (h : Step.run (.start identity dialect) (.into t :: steps) = .ok q) :
    (q.conflict.Sound ∧ (q.conflict.isOpen = true → q.insertTable ≠ none)) ∧
    q.conflict.resolutions = Step.resolutions (.start identity dialect) (.into t :: steps) ∧
    ∀ {outer : Context}, q.dialect ≠ .mysql → q.rows ≠ [] → q.conflict.isOpen = true →
      q.TermsComplete (q.innerContext outer) →
        (q.draft outer).stop = q.conflict.refusal?.map Stop.error ∧
        (q.conflict.refusal? = none → ∃ upsert : Draft,
          Clause.Handles (q.innerContext outer) q.conflict upsert ∧
            q.draft outer = q.insertedRows (q.innerContext outer) ++ upsert ++
              Clause.returned (q.innerContext outer) q q.parts) := by
  have hsound : q.effect.Sound := Built.sound ⟨identity, dialect, _, h⟩
  refine ⟨⟨hsound.conflict, hsound.inserts⟩, Step.resolutions_run h, ?_⟩
  intro outer hdialect hrows hopen hterms
  have hconflict : q.conflict.Sound := hsound.conflict
  have hstyle : q.usesDuplicateKey = false := by
    simp only [usesDuplicateKey]
    cases hd : q.dialect with
    | mysql => exact absurd hd hdialect
    | _ => rfl
  -- the first call inserts, and none that succeeds behind it updates or deletes
  have hinserts : q.effect.InsertsOnly := by
    obtain ⟨q₀, hinto, hrest⟩ := Step.run_cons_ok h
    obtain ⟨-, rfl⟩ := into_eq hinto
    exact Step.run_invariant (P := fun q => q.effect.InsertsOnly) Step.insertsOnly hrest
      ⟨nofun, rfl, rfl, rfl⟩
  have hresolved : Clause.resolved (q.innerContext outer) q q.parts =
      Clause.onConflict (q.innerContext outer) q.conflict q.conflict.parts := by
    simp only [Clause.resolved, hopen, hstyle, q.parts_eq]
    rfl
  have hbefore := complete_insertedRows hterms
  have hbehind := complete_returned hterms
  rw [draft_of_insertsOnly hinserts hrows, hresolved]
  rcases Clause.onConflict_cases (q.innerContext outer) hconflict with
    ⟨e, hrefusal, hwritten⟩ | ⟨hrefusal, hhandles⟩
  · rw [hwritten, hrefusal, append_assoc, append_of_complete hbefore]
    exact ⟨rfl, fun h => by cases h⟩
  · rw [hrefusal]
    exact ⟨complete_append (complete_append hbefore (complete_handles hterms hhandles)) hbehind,
      fun _ => ⟨_, hhandles, rfl⟩⟩

/-- A conflict clause with a filter for conflicts, two updates and a filter for updates. -/
theorem upsert_written_filtered :
    let t : Table := .named 1 "t"
    let column (name : String) : Term := .column name (some (.table t))
    let rows : List (List Term) := [[.value (.int 1), .value (.int 2)]]
    let steps : List Step :=
      [.insertRows rows, .onConflict [.name "a"], .filterBy (column "a").isNull,
        .doUpdate (.name "b") none, .doUpdate (.name "c") (some (column "d")),
        .filterBy (column "b").isNull]
    let q : Query :=
      { start 0 .postgres with
        insertTable := some t
        rows := rows
        conflict :=
          { isOpen := true
            fields := [column "a"]
            resolutions := [⟨column "b", none⟩, ⟨column "c", some (column "d")⟩]
            targetFilter := (column "a").isNull
            updateFilter := (column "b").isNull } }
    let ctx := Context.ofDialect .postgres
    Step.run (.start 0 .postgres) (.into t :: steps) = .ok q ∧
      q.conflict.resolutions = Step.resolutions (.start 0 .postgres) (.into t :: steps) ∧
      (q.draft ctx).stop = none ∧ ∃ upsert : Draft,
        Clause.Handles (q.innerContext ctx) q.conflict upsert ∧
          q.draft ctx = q.insertedRows (q.innerContext ctx) ++ upsert ++
            Clause.returned (q.innerContext ctx) q q.parts := by
  intro t column rows steps q ctx
  have hrun : Step.run (.start 0 .postgres) (.into t :: steps) = .ok q := rfl
  have htable : ∀ t', q.insertTable = some t' →
      (temporalDraft (q.innerContext ctx) t'.temporal).stop = none := by
    intro t' ht
    obtain rfl : t = t' := Option.some.inj ht
    rfl
  have hresolutions : ∀ r ∈ q.conflict.resolutions,
      (r.field.draft { q.innerContext ctx with qualified := false }).stop = none ∧
        ∀ v, r.value = some v →
          (v.draft { q.innerContext ctx with qualified := true }).stop = none := by
    refine List.forall_mem_cons.mpr ⟨⟨rfl, nofun⟩, List.forall_mem_cons.mpr ⟨⟨rfl, ?_⟩, nofun⟩⟩
    intro v hv
    obtain rfl : column "d" = v := Option.some.inj hv
    rfl
  have hterms : q.TermsComplete (q.innerContext ctx) :=
    ⟨fun _ hd => absurd hd List.not_mem_nil, htable, nofun, by decide +kernel, by decide +kernel,
      hresolutions, rfl, rfl, nofun⟩
  obtain ⟨-, hupdates, hwritten⟩ := upsert_written hrun
  obtain ⟨hstop, hhandles⟩ := hwritten nofun (List.cons_ne_nil _ _) rfl hterms
  exact ⟨hrun, hupdates, hstop, hhandles rfl⟩

end Query

end SqlCompose
