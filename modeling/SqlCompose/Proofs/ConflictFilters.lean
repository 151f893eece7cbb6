import Mathlib.Data.List.Induction
import SqlCompose.Proofs.Verbs
import SqlCompose.Proofs.WrittenLists

/-! # Conflict filters — where the criteria for conflicts end up

    While a conflict clause is open, a criterion for rows is one for conflicts: which rows count as
    conflicting as long as there are no updates, and which of them are updated once there are. Both
    filters are written with the clause, criterion by criterion. A dialect that has
    `ON DUPLICATE KEY` in the place of `ON CONFLICT` takes the same criteria, but has no place for
    them: whatever the filters are, the same is written.

    * `Step.conflictCriteria` — the criteria of the calls, by the filter that they belong to.
    * `Step.conflict_apply`, `Step.filterOf_run` — what a call and a list of calls make of the
      filters.
    * `Term.WriteConjoined`, `Term.writeConjoined_of_writes` — criteria with `AND` between them.
    * `Conflict.ShowsFilters`, `Query.showsFilters_of_writes` — where the filters stand.
    * `Query.draft_filters` — with `ON DUPLICATE KEY`, a statement is written alike with all
      filters.
    * `Step.filters_written` — the theorem. -/

namespace SqlCompose

open Draft

/-! ## The criteria of the calls -/

/-- The filter for conflicts or, if it is about updates, the one for updates. -/
def Conflict.filterOf (updating : Bool) (c : Conflict) : Term :=
  if updating then c.updateFilter else c.targetFilter

namespace Step

/-- The criterion for rows that a call gives, if it asks for anything. -/
def criterion? : Step → Option Term
  | filterBy criterion => if criterion.isEmpty then none else some criterion
  | _ => none

/-- Whether the call opens a conflict clause. -/
def opensConflict : Step → Bool
  | onConflict _ | onDuplicateKeyUpdate _ _ => true
  | _ => false

/-- Whether the call updates conflicting rows. -/
def updatesConflict : Step → Bool
  | doUpdate _ _ | onDuplicateKeyUpdate _ _ => true
  | _ => false

/-- What a call makes of a criterion that is there already. -/
def rebindTerm : Step → Term → Term
  | replaceTable current new => Term.replaceTable current new
  | _ => id

/-- A criterion as the calls leave it. -/
def rebound (steps : List Step) (t : Term) : Term := steps.foldl (fun t s => s.rebindTerm t) t

/-- The criteria that calls give while a conflict clause is open, before there are updates or, if it
    is about updates, once there are; each as the calls behind it leave it. -/
def conflictCriteria (updating : Bool) : (isOpen updates : Bool) → List Step → List Term
  | _, _, [] => []
  | isOpen, updates, s :: rest =>
    (if isOpen && updates == updating then s.criterion?.toList else []).map
        (rebound rest) ++
      conflictCriteria updating (isOpen || s.opensConflict) (updates || s.updatesConflict) rest

variable {s : Step} {steps : List Step} {q r : Query}

/-- What a call makes of the conflict clause: whether it is open, whether there are updates, and
    what a filter is. -/
theorem conflict_apply (h : s.apply q = .ok r) (updating : Bool) :
    r.conflict.isOpen = (q.conflict.isOpen || s.opensConflict) ∧
    (!r.conflict.resolutions.isEmpty) =
      (!q.conflict.resolutions.isEmpty || s.updatesConflict) ∧
    r.conflict.filterOf updating =
      (if q.conflict.isOpen && (!q.conflict.resolutions.isEmpty) == updating then
          s.criterion?.toList else []).foldl Term.and
        (s.rebindTerm (q.conflict.filterOf updating)) := by
  cases makes h with
  | skipped hempty =>
    simp [opensConflict, updatesConflict, criterion?, rebindTerm, hempty]
  | filtered _ hopen =>
    simp [opensConflict, updatesConflict, rebindTerm, hopen, Query.noteSources]
  | conflictFiltered hempty hopen hfilter =>
    -- the criterion goes to one filter while there are no updates, and then to the other one
    obtain ⟨-, -, ⟨hnone, rfl⟩ | ⟨hupdates, rfl⟩⟩ := Conflict.filterBy_eq hfilter <;>
      cases updating <;>
        simp [opensConflict, updatesConflict, criterion?, rebindTerm, Conflict.filterOf, *]
  | replaceTable =>
    refine ⟨(Bool.or_false _).symm, ?_, ?_⟩
    · simp [updatesConflict, Query.replaceTable, Conflict.replaceTable]
    · cases updating <;> simp [criterion?] <;> rfl
  | onConflict | doNothing | doUpdate | onDuplicateKeyUpdate | onDuplicateKeyIgnore =>
    simp [opensConflict, updatesConflict, criterion?, rebindTerm, Conflict.filterOf]
  | _ =>
    show q.conflict.isOpen = _ ∧ (!q.conflict.resolutions.isEmpty) = _ ∧
      q.conflict.filterOf updating = _
    simp [opensConflict, updatesConflict, criterion?, rebindTerm]

end Step

/-! ## Conjunctions -/

namespace Term

/-- A criterion with another one is a criterion. -/
theorem isEmpty_and {t : Term} (h : t.isEmpty = false) (u : Term) : (t.and u).isEmpty = false := by
  simp only [and, combine, h, Bool.false_eq_true, if_false]
  split
  · exact h
  · rfl

theorem isEmpty_foldl_and {t : Term} (h : t.isEmpty = false) (us : List Term) :
    (us.foldl and t).isEmpty = false := by
  induction us generalizing t with
  | nil => exact h
  | cons u rest ih => exact ih (isEmpty_and h u)

/-- Criteria ask for something as soon as there is one. -/
theorem isEmpty_conjunction {ts : List Term} (h : ∀ t ∈ ts, t.isEmpty = false) :
    (conjunction ts).isEmpty = ts.isEmpty := by
  cases ts with
  | nil => rfl
  | cons t rest => exact isEmpty_foldl_and (h t List.mem_cons_self) rest

theorem replaceTable_and (current new : Table) (t u : Term) :
    (t.and u).replaceTable current new =
      (t.replaceTable current new).and (u.replaceTable current new) := by
  simp only [and, combine, isEmpty_replaceTable]
  split
  · rfl
  · split <;> rfl

end Term

namespace Step

variable {s : Step} {steps : List Step} {q r : Query}

theorem rebindTerm_and (s : Step) (t u : Term) :
    s.rebindTerm (t.and u) = (s.rebindTerm t).and (s.rebindTerm u) := by
  cases s with
  | replaceTable current new => exact Term.replaceTable_and current new t u
  | _ => rfl

theorem rebindTerm_foldl_and (s : Step) (t : Term) (us : List Term) :
    s.rebindTerm (us.foldl Term.and t) = (us.map s.rebindTerm).foldl Term.and (s.rebindTerm t) := by
  induction us generalizing t with
  | nil => rfl
  | cons u rest ih =>
    rw [List.foldl_cons, ih, rebindTerm_and]
    rfl

/-- Criteria are left as each of them is left. -/
theorem rebound_foldl_and (steps : List Step) (t : Term) (us : List Term) :
    rebound steps (us.foldl Term.and t) =
      (us.map (rebound steps)).foldl Term.and (rebound steps t) := by
  induction steps generalizing t us with
  | nil =>
    show _ = (us.map id).foldl Term.and t
    rw [List.map_id]
    rfl
  | cons s rest ih =>
    show rebound rest (s.rebindTerm _) = _
    rw [rebindTerm_foldl_and, ih, List.map_map]
    rfl

theorem isEmpty_rebound (steps : List Step) (t : Term) :
    (rebound steps t).isEmpty = t.isEmpty := by
  induction steps generalizing t with
  | nil => rfl
  | cons s rest ih =>
    refine (ih (s.rebindTerm t)).trans ?_
    cases s with
    | replaceTable current new => exact Term.isEmpty_replaceTable current new t
    | _ => rfl

/-- Nothing is left of no criterion. -/
theorem rebound_empty (steps : List Step) : rebound steps .empty = .empty := by
  induction steps with
  | nil => rfl
  | cons s rest ih => cases s <;> exact ih

/-- A criterion that a call gives asks for something. -/
theorem isEmpty_of_criterion? {t : Term} (h : s.criterion? = some t) : t.isEmpty = false := by
  cases s with
  | filterBy criterion =>
    simp only [criterion?, Option.ite_none_left_eq_some] at h
    obtain ⟨hsome, h⟩ := h
    obtain rfl := Option.some.inj h
    simpa using hsome
  | _ => exact nomatch h

/-- All criteria for conflicts ask for something. -/
theorem isEmpty_of_mem_conflictCriteria {updating isOpen updates : Bool} {t : Term}
    (h : t ∈ conflictCriteria updating isOpen updates steps) : t.isEmpty = false := by
  induction steps generalizing isOpen updates with
  | nil => exact nomatch h
  | cons s rest ih =>
    rcases List.mem_append.mp h with hown | hlater
    · obtain ⟨u, hmem, rfl⟩ := List.mem_map.mp hown
      rw [isEmpty_rebound]
      split at hmem
      · exact isEmpty_of_criterion? (Option.mem_toList.mp hmem)
      · exact nomatch hmem
    · exact ih hlater

/-- A filter for conflicts is the one there was, with the criteria of the calls behind it. -/
theorem filterOf_run (h : run q steps = .ok r) (updating : Bool) :
    r.conflict.filterOf updating =
      (conflictCriteria updating q.conflict.isOpen (!q.conflict.resolutions.isEmpty) steps).foldl
        Term.and (rebound steps (q.conflict.filterOf updating)) := by
  induction steps generalizing q with
  | nil =>
    obtain rfl : q = r := Except.ok.inj h
    rfl
  | cons s rest ih =>
    obtain ⟨q', hs, hrest⟩ := run_cons_ok h
    obtain ⟨hopen, hupdates, hfilter⟩ := conflict_apply hs updating
    rw [ih hrest, hopen, hupdates, hfilter, rebound_foldl_and, conflictCriteria, List.foldl_append]
    rfl

/-- On an empty statement, a filter for conflicts is made of the criteria of the calls. -/
theorem filterOf_run_start {identity : Identity} {dialect : Dialect}
    (h : run (.start identity dialect) steps = .ok q) (updating : Bool) :
    q.conflict.filterOf updating =
      Term.conjunction (conflictCriteria updating false false steps) := by
  have hstart : (Query.start identity dialect).conflict.filterOf updating = .empty := by
    cases updating <;> rfl
  rw [filterOf_run h, hstart, rebound_empty]
  rfl

end Step

/-! ## Written conjunctions -/

namespace Term

/-- A criterion is written as the tokens where it stands between others, with `AND` between them. -/
def WriteOperand (ctx : Context) (t : Term) (ts : List Token) : Prop :=
  (t.draft { ctx with bracketed := t.differsFrom .and }).Writes ts

/-- The tokens of criteria behind another one. -/
def furtherTokens (lists : List (List Token)) : List Token :=
  lists.flatMap fun ts => .space :: .keyword .and :: .space :: ts

/-- The tokens are those of the criteria, with `AND` between each two. -/
def WriteConjoined (ctx : Context) : List Term → List Token → Prop
  | [], ts => ts = []
  | [t], ts => (t.draft ctx).Writes ts
  | first :: rest, ts => ∃ (us : List Token) (lists : List (List Token)),
    WriteOperand ctx first us ∧ List.Forall₂ (WriteOperand ctx) rest lists ∧
      ts = enclosedIf ctx.bracketed (us ++ furtherTokens lists)

variable {ctx : Context} {first : Term} {rest : List Term} {ts : List Token}

theorem and_eq {t u : Term} (ht : t.isEmpty = false) (hu : u.isEmpty = false) :
    t.and u = ⟨.combination .and t u, none⟩ := by
  simp only [and, combine, ht, hu, Bool.false_eq_true, if_false]

/-- Two criteria are written with `AND` between them. -/
theorem draft_and (ctx : Context) (t u : Term) :
    Term.draft ctx ⟨.combination .and t u, none⟩ =
      parensIf ctx.bracketed (t.draft { ctx with bracketed := t.differsFrom .and } ++
        (tokens [.space, .keyword .and, .space] ++
          u.draft { ctx with bracketed := u.differsFrom .and })) := by
  refine congrArg (parensIf ctx.bracketed) ?_
  simp only [append_assoc]
  rfl

/-- Where a conjunction stands between others, its criteria do too. -/
theorem writeOperands_of_foldl (hfirst : first.isEmpty = false)
    (hrest : ∀ t ∈ rest, t.isEmpty = false) (h : WriteOperand ctx (rest.foldl and first) ts) :
    ∃ (us : List Token) (lists : List (List Token)),
      WriteOperand ctx first us ∧ List.Forall₂ (WriteOperand ctx) rest lists ∧
        ts = us ++ furtherTokens lists := by
  -- the last criterion is the right operand of all others
  induction rest using List.reverseRecOn generalizing ts with
  | nil => exact ⟨ts, [], h, .nil, (List.append_nil ts).symm⟩
  | append_singleton rest last ih =>
    have hlast : last.isEmpty = false := hrest last (by simp)
    have hbefore : ∀ t ∈ rest, t.isEmpty = false := fun t ht => hrest t (by simp [ht])
    rw [List.foldl_append, List.foldl_cons, List.foldl_nil,
      and_eq (isEmpty_foldl_and hfirst rest) hlast, WriteOperand, draft_and] at h
    obtain ⟨vs, ws, hvs, hws, rfl⟩ := Writes.of_append h
    obtain ⟨ls, hls, rfl⟩ := hws.of_behind
    obtain ⟨us, lists, hus, hlists, rfl⟩ := ih hbefore hvs
    exact ⟨us, lists ++ [ls], hus, List.rel_append hlists (.cons hls .nil), by simp [furtherTokens]⟩

/-- Two criteria and more are two that are combined. -/
theorem foldl_and_eq {second : Term} (hfirst : first.isEmpty = false)
    (hrest : ∀ t ∈ second :: rest, t.isEmpty = false) :
    ∃ t u : Term, (second :: rest).foldl and first = ⟨.combination .and t u, none⟩ := by
  have hsecond : second.isEmpty = false := hrest second List.mem_cons_self
  induction rest generalizing first second with
  | nil => exact ⟨first, second, and_eq hfirst hsecond⟩
  | cons third rest ih =>
    have hbehind : ∀ t ∈ third :: rest, t.isEmpty = false :=
      fun t ht => hrest t (List.mem_cons_of_mem second ht)
    exact ih (isEmpty_and hfirst second) hbehind (hbehind third List.mem_cons_self)

/-- The criteria of a conjunction are written one behind the other. -/
theorem writeConjoined_of_writes {terms : List Term} (hterms : ∀ t ∈ terms, t.isEmpty = false)
    (hsome : terms ≠ []) (h : ((conjunction terms).draft ctx).Writes ts) :
    WriteConjoined ctx terms ts := by
  match terms with
  | [] => exact absurd rfl hsome
  | [t] => exact h
  | first :: second :: rest =>
    have hfirst : first.isEmpty = false := hterms first List.mem_cons_self
    have hrest : ∀ t ∈ second :: rest, t.isEmpty = false :=
      fun t ht => hterms t (List.mem_cons_of_mem first ht)
    have h : (((second :: rest).foldl and first).draft ctx).Writes ts := h
    obtain ⟨t, u, heq⟩ := foldl_and_eq hfirst hrest
    rw [heq, draft_and] at h
    obtain ⟨body, hbody, rfl⟩ := h.of_parensIf
    have hoperand : WriteOperand ctx ((second :: rest).foldl and first) body := by
      rw [heq, WriteOperand, draft_and]
      exact hbody
    obtain ⟨us, lists, hus, hlists, rfl⟩ := writeOperands_of_foldl hfirst hrest hoperand
    exact ⟨us, lists, hus, hlists, rfl⟩

/-- The tokens are those of a filter with the criteria, if there are any. -/
def WriteFilter (ctx : Context) (terms : List Term) (ts : List Token) : Prop :=
  if terms.isEmpty then ts = []
  else ∃ us : List Token, WriteConjoined { ctx with nested := true } terms us ∧
    ts = .space :: .keyword .where_ :: .space :: us

/-- A filter is written with all its criteria. -/
theorem writeFilter_of_writes {terms : List Term} (hterms : ∀ t ∈ terms, t.isEmpty = false)
    (h : (Clause.criterion ctx .where_ (conjunction terms)
      fun ctx => (conjunction terms).draft ctx).Writes ts) : WriteFilter ctx terms ts := by
  rw [Clause.criterion, isEmpty_conjunction hterms] at h
  cases terms with
  | nil => exact Writes.of_tokens h
  | cons t rest =>
    obtain ⟨us, hus, rfl⟩ := Writes.of_behind [.space, .keyword .where_, .space] h
    exact ⟨us, writeConjoined_of_writes hterms (List.cons_ne_nil t rest) hus, rfl⟩

end Term

/-! ## Where the filters stand -/

namespace Clause

/-- The columns that conflict. -/
def conflictColumns (ctx : Context) (c : Conflict) : Draft :=
  let fields := termDrafts { ctx with declares := true } c.fields
  when (!fields.isEmpty) (space ++ parens (join (tokens [.comma, .space]) fields))

/-- What is done about conflicting rows: they are skipped, or each update sets its column. -/
def conflictAction (ctx : Context) (c : Conflict) : Draft :=
  if c.doNothing then skipping
  else clause [.do_, .update, .set] (commas (c.resolutions.map (setting ctx)))

end Clause

/-- The tokens are those of a conflict clause with the criteria in its filters: those for conflicts
    behind the columns, and those for updates behind the updates. -/
def Conflict.ShowsFilters (ctx : Context) (c : Conflict) (target update : List Term)
    (ts : List Token) : Prop :=
  ∃ columns first action second : List Token,
    (Clause.conflictColumns ctx c).Writes columns ∧ Term.WriteFilter ctx target first ∧
    (Clause.conflictAction ctx c).Writes action ∧
    Term.WriteFilter { ctx with qualified := true } update second ∧
    ts = .space :: .keyword .on :: .space :: .keyword .conflict :: columns ++ first ++ action ++
      second

namespace Conflict

variable {ctx : Context} {c : Conflict} {target update : List Term} {ts : List Token}

/-- What counts as a conflict is written with the filter for it. -/
theorem writes_target (htarget : ∀ t ∈ target, t.isEmpty = false)
    (hfilter : c.targetFilter = Term.conjunction target)
    (h : (Clause.conflictTarget ctx c).Writes ts) :
    ∃ columns first : List Token, (Clause.conflictColumns ctx c).Writes columns ∧
      Term.WriteFilter ctx target first ∧
        ts = .space :: .keyword .on :: .space :: .keyword .conflict :: columns ++ first := by
  have hsplit : Clause.conflictTarget ctx c =
      tokens [.space, .keyword .on, .space, .keyword .conflict] ++
        (Clause.conflictColumns ctx c ++
          Clause.criterion ctx .where_ c.targetFilter fun ctx => c.targetFilter.draft ctx) := by
    rw [← append_assoc]
    rfl
  rw [hsplit, hfilter] at h
  obtain ⟨us, hus, rfl⟩ := h.of_behind
  obtain ⟨columns, first, hcolumns, hfirst, rfl⟩ := hus.of_append
  exact ⟨columns, first, hcolumns, Term.writeFilter_of_writes htarget hfirst, rfl⟩

/-- Where conflicting rows are skipped, there are no criteria for updates. -/
theorem update_eq_nil_of_skips (hc : c.Sound) (hupdate : ∀ t ∈ update, t.isEmpty = false)
    (hfilter : c.updateFilter = Term.conjunction update) (hnone : c.resolutions = []) :
    update = [] := by
  refine Classical.byContradiction fun hsome => ?_
  have hfiltered : c.updateFilter.isEmpty = false := by
    rw [hfilter, Term.isEmpty_conjunction hupdate]
    exact List.isEmpty_eq_false_iff.mpr hsome
  exact (hc.update hfiltered).2 hnone

/-- A handled conflict is written with its filters. -/
theorem showsFilters_of_handles (hc : c.Sound) (htarget : ∀ t ∈ target, t.isEmpty = false)
    (hupdate : ∀ t ∈ update, t.isEmpty = false)
    (hfirst : c.targetFilter = Term.conjunction target)
    (hsecond : c.updateFilter = Term.conjunction update)
    (hhandler : c.doNothing = true ∨ c.resolutions ≠ []) {upsert : Draft}
    (hhandles : Clause.Handles ctx c upsert) (h : upsert.Writes ts) :
    c.ShowsFilters ctx target update ts := by
  -- a handler is there, so one of the two ways to write it is left
  cases hhandles with
  | nothing _ hskips hnone =>
    rcases hhandler with hskips' | hupdates
    · exact absurd hskips' (Bool.eq_false_iff.mp hskips)
    · exact absurd hnone hupdates
  | skips hskips hnone =>
    obtain ⟨us, action, hus, haction, rfl⟩ := h.of_append
    obtain ⟨columns, first, hcolumns, hwritten, rfl⟩ := writes_target htarget hfirst hus
    obtain rfl := update_eq_nil_of_skips hc hupdate hsecond hnone
    have hskipping : Clause.conflictAction ctx c = Clause.skipping := if_pos hskips
    refine ⟨columns, first, action, [], hcolumns, hwritten, ?_, rfl, (List.append_nil _).symm⟩
    rw [hskipping]
    exact haction
  | updates _ hskips _ =>
    obtain ⟨us, vs, hus, hvs, rfl⟩ := h.of_append
    obtain ⟨columns, first, hcolumns, hwritten, rfl⟩ := writes_target htarget hfirst hus
    have hupdating : Clause.updating ctx c = Clause.conflictAction ctx c ++
        Clause.criterion { ctx with qualified := true } .where_ c.updateFilter
          fun ctx => c.updateFilter.draft ctx := by
      rw [Clause.conflictAction, hskips]
      rfl
    rw [hupdating, hsecond] at hvs
    obtain ⟨action, second, haction, hrest, rfl⟩ := hvs.of_append
    exact ⟨columns, first, action, second, hcolumns, hwritten, haction,
      Term.writeFilter_of_writes hupdate hrest, (List.append_assoc _ _ _).symm⟩

end Conflict

namespace Query

/-- The conflict clause is written wherever anything is, if no table is updated. -/
theorem holds_resolved {q : Query} (hblank : q.isBlank = false) (hupdate : q.updateTable = none)
    (outer : Context) :
    Holds (Clause.resolved (q.innerContext outer) q q.parts) (q.draft outer) := by
  show Holds _ (Clause.statement outer q q.parts)
  simp only [Clause.statement, hblank, hupdate, Bool.false_eq_true, if_false]
  split
  · exact ((Holds.refl _).behind _).before _
  · exact (((Holds.refl _).behind _).before _).before _

/-- A statement with an open conflict clause updates no table. -/
theorem Built.updateTable_eq_none {q : Query} (hq : q.Built) (hopen : q.conflict.isOpen = true) :
    q.updateTable = none := by
  have hinto : q.Asked .into := hq.sound.inserts hopen
  obtain ⟨_, _, _, h⟩ := hq
  refine Classical.byContradiction fun hupdate => ?_
  exact nomatch Step.exclusive_run h .update .into nofun nofun hupdate hinto

/-- What is written of a statement has its handled conflict clause in it, with all filters. -/
theorem showsFilters_of_writes {q : Query} (hq : q.Built) (hopen : q.conflict.isOpen = true)
    (hblank : q.isBlank = false) (hstyle : q.usesDuplicateKey = false)
    (hhandler : q.conflict.doNothing = true ∨ q.conflict.resolutions ≠ [])
    {target update : List Term} (htarget : ∀ t ∈ target, t.isEmpty = false)
    (hupdate : ∀ t ∈ update, t.isEmpty = false)
    (hfirst : q.conflict.targetFilter = Term.conjunction target)
    (hsecond : q.conflict.updateFilter = Term.conjunction update) {outer : Context}
    {ts : List Token} (h : (q.draft outer).Writes ts) :
    ∃ before us after : List Token,
      q.conflict.ShowsFilters (q.innerContext outer) target update us ∧
        ts = before ++ us ++ after := by
  have hholds := holds_resolved hblank (hq.updateTable_eq_none hopen) outer
  obtain ⟨before, us, after, hus, rfl⟩ := h.of_holds hholds
  have hresolved : Clause.resolved (q.innerContext outer) q q.parts =
      Clause.onConflict (q.innerContext outer) q.conflict q.conflict.parts := by
    simp only [Clause.resolved, hopen, hstyle, q.parts_eq]
    rfl
  rw [hresolved] at hus
  have hsound : q.conflict.Sound := hq.sound.conflict
  -- a clause that is refused does not write tokens
  rcases Clause.onConflict_cases (q.innerContext outer) hsound with
    ⟨e, -, hwritten⟩ | ⟨-, hhandles⟩
  · rw [hwritten] at hus
    obtain ⟨p, p', hfinish⟩ := hus
    cases congrArg Prod.fst hfinish
  · exact ⟨before, us, after, Conflict.showsFilters_of_handles hsound htarget hupdate hfirst hsecond
      hhandler hhandles hus, rfl⟩

/-- The statement with other filters for conflicts. -/
def withFilters (q : Query) (target update : Term) : Query :=
  { q with conflict := { q.conflict with targetFilter := target, updateFilter := update } }

/-- With `ON DUPLICATE KEY`, a statement is written alike with all filters for conflicts. -/
theorem draft_filters {q : Query} (hstyle : q.usesDuplicateKey = true) (target update : Term)
    (outer : Context) : (q.withFilters target update).draft outer = q.draft outer := by
  have hresolved (ctx : Context) :
      Clause.resolved ctx (q.withFilters target update) (q.withFilters target update).parts =
        Clause.resolved ctx q q.parts := by
    have hstyle' : (q.withFilters target update).usesDuplicateKey = true := hstyle
    simp only [Clause.resolved, hstyle, hstyle', if_true, parts_eq, Conflict.parts_eq]
    rfl
  show Clause.statement outer (q.withFilters target update) (q.withFilters target update).parts =
    Clause.statement outer q q.parts
  unfold Clause.statement Clause.insertion
  simp only [hresolved]
  rw [parts_eq, parts_eq]
  rfl

end Query

/-! ## The theorem -/

namespace Step

/-- **Filters for conflicts are written, except with `ON DUPLICATE KEY`.** Let calls on an empty
    statement succeed.
    * The filter for conflicts is made of all criteria that calls gave while the conflict clause was
      open and there were no updates, and the filter for updates of those given once there were; in
      the order of the calls, with the tables in the place of others that later calls put there.
    * Where the dialect is not MySQL and the open clause says what is done, whatever is written of
      the statement has the conflict clause in it: both filters are there, each behind what it
      filters, with all their criteria and `AND` between each two. Only of a statement without
      enough in it nothing at all is written.
    * Where the dialect is MySQL, the statement is written as with any other filters. -/
theorem filters_written {identity : Identity} {dialect : Dialect} {steps : List Step} {q : Query}
    (h : run (.start identity dialect) steps = .ok q) :
    (∀ updating, q.conflict.filterOf updating =
        Term.conjunction (conflictCriteria updating false false steps) ∧
      ∀ t ∈ conflictCriteria updating false false steps, t.isEmpty = false) ∧
    (q.dialect ≠ .mysql → q.conflict.isOpen = true →
      q.conflict.doNothing = true ∨ q.conflict.resolutions ≠ [] → ∀ outer : Context,
        (q.isBlank = true → q.draft outer = .empty) ∧
        (q.isBlank = false → ∀ (p : Parameters) (ts : List Token),
          ((q.draft outer).finish p).1 = .ok ts → ∃ before us after : List Token,
            q.conflict.ShowsFilters (q.innerContext outer)
              (conflictCriteria false false false steps)
              (conflictCriteria true false false steps) us ∧
            ts = before ++ us ++ after)) ∧
    (q.dialect = .mysql → ∀ (target update : Term) (outer : Context),
      (q.withFilters target update).draft outer = q.draft outer) := by
  have hsome (updating : Bool) :
      ∀ t ∈ conflictCriteria updating false false steps, t.isEmpty = false :=
    fun _ => isEmpty_of_mem_conflictCriteria
  refine ⟨fun updating => ⟨filterOf_run_start h updating, hsome updating⟩, ?_, ?_⟩
  · intro hdialect hopen hhandler outer
    have hstyle : q.usesDuplicateKey = false := by
      cases hd : q.dialect with
      | mysql => exact absurd hd hdialect
      | _ => simp [Query.usesDuplicateKey, hd, Dialect.conflictStyle]
    refine ⟨fun hblank => ?_, fun hblank p ts hfinish => ?_⟩
    · show Clause.statement outer q q.parts = .empty
      simp only [Clause.statement, hblank, if_true]
    · exact Query.showsFilters_of_writes ⟨identity, dialect, steps, h⟩ hopen hblank hstyle hhandler
        (hsome false) (hsome true) (filterOf_run_start h false) (filterOf_run_start h true)
        ⟨p, _, Prod.ext hfinish rfl⟩
  · intro hdialect target update outer
    have hstyle : q.usesDuplicateKey = true := by
      rw [Query.usesDuplicateKey, hdialect]
      rfl
    exact Query.draft_filters hstyle target update outer

/-- Two criteria for conflicts, one of them an `OR`, and one for updates. -/
theorem filters_written_upsert :
    let t := Table.named 1 "t"
    let missing (name : String) : Term := (Term.column name (some (.table t))).isNull
    let target : List Term := [(missing "a").or (missing "b"), missing "c"]
    let steps : List Step :=
      [.into t, .insertRows [[.value (.int 1), .value (.int 2)]], .onConflict [.name "a"]] ++
        target.map .filterBy ++ [.doUpdate (.name "b") none, .filterBy (missing "b")]
    let ctx := Context.ofDialect .postgres
    let text := "INSERT INTO \"t\" VALUES (1,2) ON CONFLICT (\"a\") WHERE " ++
      "(\"a\" IS NULL OR \"b\" IS NULL) AND \"c\" IS NULL " ++
      "DO UPDATE SET \"b\"=EXCLUDED.\"b\" WHERE \"t\".\"b\" IS NULL"
    ∃ q, run (.start 2 .postgres) steps = .ok q ∧
      q.conflict.targetFilter = Term.conjunction target ∧
      q.conflict.updateFilter = missing "b" ∧
      ∃ ts, ((q.draft ctx).finish {}).1 = .ok ts ∧ Token.texts ctx ts = text ∧
        ∃ before us after : List Token,
          q.conflict.ShowsFilters (q.innerContext ctx) target [missing "b"] us ∧
            ts = before ++ us ++ after := by
  intro t missing target steps ctx text
  let q : Query :=
    { Query.start 2 .postgres with
      insertTable := some t
      rows := [[.value (.int 1), .value (.int 2)]]
      conflict :=
        { isOpen := true
          fields := [.column "a" (some (.table t))]
          resolutions := [⟨.column "b" (some (.table t)), none⟩]
          targetFilter := Term.conjunction target
          updateFilter := missing "b" } }
  have hrun : run (.start 2 .postgres) steps = .ok q := rfl
  have htext : ((q.draft ctx).finish {}).1.toOption.map (Token.texts ctx) = some text := by
    decide +kernel
  obtain ⟨ts, hts, htext⟩ := exists_ok_of_map htext
  obtain ⟨hfilters, hwritten, -⟩ := filters_written hrun
  have hshown := (hwritten nofun rfl (.inr (List.cons_ne_nil _ _)) ctx).2 rfl {} ts hts
  exact ⟨q, hrun, (hfilters false).1, (hfilters true).1, ts, hts, htext, hshown⟩

/-- A criterion for conflicts that is not written. -/
theorem filter_unwritten_on_duplicate_key :
    let t := Table.named 1 "t"
    let criterion : Term := (Term.field "b").compare .eq (.value (.int 1))
    let steps : List Step :=
      [.into t, .insertColumns [.name "a"], .insertRows [[.value (.int 1)]],
        .onConflict [.name "a"], .filterBy criterion,
        .doUpdate (.name "c") (some (.value (.int 2)))]
    let q : Query :=
      { Query.start 2 .mysql with
        insertTable := some t
        columns := [.column "a" (some (.table t))]
        rows := [[.value (.int 1)]]
        conflict :=
          { isOpen := true
            fields := [.column "a" (some (.table t))]
            resolutions := [⟨.column "c" (some (.table t)), some (.value (.int 2))⟩]
            targetFilter := criterion
            updateFilter := .empty } }
    run (.start 2 .mysql) steps = .ok q ∧
      conflictCriteria false false false steps = [criterion] ∧
      q.sql = .ok "INSERT INTO `t` (`a`) VALUES (1) ON DUPLICATE KEY UPDATE `c`=2" :=
  ⟨rfl, rfl, by decide +kernel⟩

end Step

end SqlCompose
