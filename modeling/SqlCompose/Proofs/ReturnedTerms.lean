import SqlCompose.Proofs.ConflictFilters
import SqlCompose.Proofs.ReturningTargets
import SqlCompose.Proofs.SelectLists

/-! # Returned terms — what is left of the arguments in RETURNING

    Terms that are neither columns nor stars are returned as they are asked for. Columns are, as
    long as no star is among the arguments. One mark stands for all stars: with the first of them
    all columns that were returned so far go, and no other column or star is added behind it. Only a
    bare `*` takes its place. So columns of one source are lost where the star is of another one.

    * `Column.returned`, `Step.newReturns` — the arguments of the calls, as they would be returned.
    * `Query.returnOne_cases` — what one argument does.
    * `Query.Gathers`, `Step.gathers_run` — what is left of the arguments.
    * `Query.Returning`, `Query.Gathers.returning_iff` — a column is returned, or a star that stands
      for it; which columns are.
    * `Query.ShowsReturns`, `Query.showsReturns_of_writes` — where RETURNING is written, by every
      kind of statement.
    * `Step.columns_returned` — the theorem. -/

namespace SqlCompose

open Draft

/-! ## The arguments of the calls -/

namespace Column

/-- The argument as it is returned: `*` is all columns, and another bare name a column of the source
    that is changed. -/
def returned (source : Option Source) : Column → Term
  | .name bare => if bare = "*" then .star else .column bare source
  | .term t => t

/-- Whether the argument is a bare `*`. -/
def isAll : Column → Bool
  | .name bare => bare == "*"
  | .term _ => false

end Column

namespace Step

/-- The terms that a call asks to be returned. -/
def ownReturns (q : Query) : Step → List Term
  | returning columns => columns.map (Column.returned q.targetSource?)
  | _ => []

/-- Whether a bare `*` is among the arguments that the call asks to be returned. -/
def returnsAll : Step → Bool
  | returning columns => columns.any Column.isAll
  | _ => false

/-- The terms that calls ask to be returned, each as the calls behind it leave it. -/
def newReturns (q : Query) : List Step → List Term
  | [] => []
  | s :: rest =>
    (s.ownReturns q).map (rebound rest) ++
      match s.apply q with
      | .ok r => newReturns r rest
      | .error _ => []

theorem newReturns_cons {s : Step} {q r : Query} (h : s.apply q = .ok r) (rest : List Step) :
    newReturns q (s :: rest) = (s.ownReturns q).map (rebound rest) ++ newReturns r rest := by
  rw [newReturns, h]

end Step

/-! ## One argument -/

namespace Term

/-- The star that takes the place of all columns among terms: `*` for a bare one, else the first
    star. -/
def leadingStar? (all : Bool) (ts : List Term) : Option Term :=
  if all then some .star else ts.find? isStar

theorem leadingStar?_append (all : Bool) (ts us : List Term) :
    leadingStar? all (ts ++ us) = (leadingStar? all ts).or (us.find? isStar) := by
  simp only [leadingStar?]
  split
  · rfl
  · exact List.find?_append

theorem isStar_of_leadingStar? {all : Bool} {ts : List Term} {star : Term}
    (h : leadingStar? all ts = some star) : star.isStar = true := by
  simp only [leadingStar?] at h
  split at h
  · obtain rfl := Option.some.inj h
    rfl
  · exact List.find?_some h

theorem isColumn_replaceTable (current new : Table) (t : Term) :
    (t.replaceTable current new).isColumn = t.isColumn := by
  obtain ⟨expr, aliasName⟩ := t
  cases expr <;> rfl

end Term

namespace Query

variable {q r : Query} {c : Column} {asked : List Term} {all : Bool}

/-- A column or star behind a star is passed over, a star that is not takes the place of all
    columns, and all other terms but aggregates are added. -/
theorem returnOne_cases (h : q.returnOne c = .ok r) :
    (c.isAll = false ∧ (c.returned q.targetSource?).isColumn = true ∧ q.returnsAll = true ∧ r = q) ∨
    ((c.isAll = true ∨ q.returnsAll = false) ∧ (c.returned q.targetSource?).isStar = true ∧
      r = { q.returnAll with returns := q.returnAll.returns ++ [c.returned q.targetSource?] }) ∨
    (c.isAll = false ∧ (c.returned q.targetSource?).isStar = false ∧
      ((c.returned q.targetSource?).isColumn = true → q.returnsAll = false) ∧
      (c.returned q.targetSource?).isAggregate = false ∧
      r = { q with returns := q.returns ++ [c.returned q.targetSource?] }) := by
  -- bare names other than `*` and columns that are given as terms go the same way
  have hcolumn {t : Term} (hc : c.isAll = false) (ht : t.isColumn = true)
      (h : q.returnColumn t = .ok r) :
      (c.isAll = false ∧ t.isColumn = true ∧ q.returnsAll = true ∧ r = q) ∨
      ((c.isAll = true ∨ q.returnsAll = false) ∧ t.isStar = true ∧
        r = { q.returnAll with returns := q.returnAll.returns ++ [t] }) ∨
      (c.isAll = false ∧ t.isStar = false ∧ (t.isColumn = true → q.returnsAll = false) ∧
        t.isAggregate = false ∧ r = { q with returns := q.returns ++ [t] }) := by
    simp only [returnColumn] at h
    split at h
    · next hall => exact .inl ⟨hc, ht, hall, (Except.ok.inj h).symm⟩
    · next hall =>
      have hall : q.returnsAll = false := by simpa using hall
      cases hcheck : q.checkReturned t with
      | error e =>
        rw [hcheck] at h
        cases h
      | ok _ =>
        rw [hcheck] at h
        obtain rfl := Except.ok.inj h
        cases hstar : t.isStar with
        | true => exact .inr (.inl ⟨.inr hall, rfl, rfl⟩)
        | false =>
          exact .inr (.inr ⟨hc, rfl, fun _ => hall, Term.isAggregate_of_isColumn ht, rfl⟩)
  cases c with
  | name bare =>
    simp only [returnOne, returnName] at h
    split at h
    · next hstar =>
      obtain rfl := Except.ok.inj h
      refine .inr (.inl ⟨.inl (beq_iff_eq.mpr hstar), ?_, ?_⟩) <;>
        simp [Column.returned, hstar, Term.star, Term.isStar]
    · next hname =>
      split at h
      · cases h
      · next source htarget =>
        simp only [Column.returned, if_neg hname, htarget]
        exact hcolumn (beq_eq_false_iff_ne.mpr hname) rfl h
  | term t =>
    simp only [returnOne] at h
    split at h
    · next ht => exact hcolumn rfl ht h
    · next ht =>
      have ht : t.isColumn = false := by simpa using ht
      have hstar : t.isStar = false := by
        by_contra hstar
        simp [Term.isColumn_of_isStar (by simpa using hstar)] at ht
      split at h
      · cases h
      · next haggregate =>
        cases hcheck : q.checkReturned t with
        | error e =>
          rw [hcheck] at h
          cases h
        | ok _ =>
          rw [hcheck] at h
          have hcolumn : t.isColumn = true → q.returnsAll = false :=
            fun h => absurd (ht.symm.trans h) Bool.false_ne_true
          exact .inr (.inr ⟨rfl, hstar, hcolumn, by simpa [Column.returned] using haggregate,
            (Except.ok.inj h).symm⟩)

/-! ## What is left of the arguments -/

/-- What is left of terms that were asked for, with or without a bare `*` among them: all that are
    not columns, and all columns as long as no star takes their place. -/
structure Gathers (asked : List Term) (all : Bool) (q : Query) : Prop where
  expressions : q.returns.filter (!·.isColumn) = asked.filter (!·.isColumn)
  columns     : ∀ star, Term.leadingStar? all asked = some star →
    q.returns.filter (·.isColumn) = [star]
  unstarred   : Term.leadingStar? all asked = none → q.returns = asked
  mark        : q.returnsAll = (Term.leadingStar? all asked).isSome

theorem Gathers.returnOne (hq : q.Gathers asked all) (h : q.returnOne c = .ok r) :
    r.Gathers (asked ++ [c.returned q.targetSource?]) (all || c.isAll) := by
  rcases returnOne_cases h with ⟨hall, hcolumn, hmark, rfl⟩ | ⟨hfirst, hstar, rfl⟩ |
    ⟨hall, hstar, hcolumn, -, rfl⟩
  · -- a column or star that is passed over: there is a star in front already
    obtain ⟨star, hleading⟩ := Option.isSome_iff_exists.mp (hq.mark.symm.trans hmark)
    have hleading' : Term.leadingStar? (all || c.isAll) (asked ++ [c.returned r.targetSource?]) =
        some star := by
      rw [hall, Bool.or_false, Term.leadingStar?_append, hleading]
      rfl
    refine ⟨?_, ?_, ?_, ?_⟩
    · rw [hq.expressions, List.filter_append, List.filter_cons_of_neg (by simp [hcolumn])]
      exact (List.append_nil _).symm
    · intro star' hstar'
      obtain rfl := Option.some.inj (hleading'.symm.trans hstar')
      exact hq.columns star hleading
    · exact fun hnone => absurd (hleading'.symm.trans hnone) (Option.some_ne_none _)
    · rw [hmark, hleading']
      rfl
  · -- a star that is not passed over is the one in front of all columns from now on
    have hleading : Term.leadingStar? (all || c.isAll) (asked ++ [c.returned q.targetSource?]) =
        some (c.returned q.targetSource?) := by
      cases hall : c.isAll with
      | true =>
        cases c with
        | term t => cases hall
        | name bare =>
          have hname : bare = "*" := beq_iff_eq.mp hall
          simp [Term.leadingStar?, Column.returned, hname]
      | false =>
        have hmark : q.returnsAll = false := hfirst.resolve_left (by simp [hall])
        have hnone : Term.leadingStar? all asked = none := by
          simpa [hmark] using hq.mark.symm
        rw [Bool.or_false, Term.leadingStar?_append, hnone]
        simp [hstar]
    have hcolumn := Term.isColumn_of_isStar hstar
    refine ⟨?_, ?_, ?_, ?_⟩
    · simp [returnAll, hcolumn, hq.expressions]
    · intro star' hstar'
      obtain rfl := Option.some.inj (hleading.symm.trans hstar')
      simp [returnAll, hcolumn]
    · exact fun hnone => absurd (hleading.symm.trans hnone) (Option.some_ne_none _)
    · rw [hleading]
      rfl
  · -- any other term leaves the star in front as it is
    have hleading : Term.leadingStar? (all || c.isAll) (asked ++ [c.returned q.targetSource?]) =
        Term.leadingStar? all asked := by
      rw [hall, Bool.or_false, Term.leadingStar?_append]
      simp [hstar]
    refine ⟨?_, ?_, ?_, ?_⟩
    · simp only [List.filter_append, hq.expressions]
    · intro star hsome
      rw [hleading] at hsome
      have hnone : (c.returned q.targetSource?).isColumn = false := by
        by_contra hne
        have hmark := hcolumn (by simpa using hne)
        rw [hq.mark, hsome] at hmark
        cases hmark
      simp [hq.columns star hsome, hnone]
    · intro hnone
      rw [hleading] at hnone
      simp only [hq.unstarred hnone]
    · rw [hleading]
      exact hq.mark

/-- Returned terms change nothing that is changed. -/
theorem targetSource?_of_returnOne (h : q.returnOne c = .ok r) :
    r.targetSource? = q.targetSource? := by
  obtain ⟨returns, mark, rfl⟩ := returnOne_eq h
  rfl

/-- A list of arguments that is taken. -/
theorem Gathers.returnAll {columns : List Column} (hq : q.Gathers asked all)
    (h : columns.foldlM Query.returnOne q = .ok r) :
    r.Gathers (asked ++ columns.map (Column.returned q.targetSource?))
      (all || columns.any Column.isAll) := by
  induction columns generalizing q asked all with
  | nil =>
    obtain rfl := Except.ok.inj h
    simpa using hq
  | cons c rest ih =>
    rw [List.foldlM_cons] at h
    cases hone : q.returnOne c with
    | error e =>
      rw [hone] at h
      exact nomatch h
    | ok q' =>
      rw [hone] at h
      have hrest := ih (hq.returnOne hone) h
      rw [targetSource?_of_returnOne hone, List.append_assoc, Bool.or_assoc] at hrest
      exact hrest

/-- Putting a table in the place of another one does so in what was asked for. -/
theorem Gathers.replaceTable (current new : Table) (hq : q.Gathers asked all) :
    (q.replaceTable current new).Gathers (asked.map (Term.replaceTable current new)) all := by
  have hleading : Term.leadingStar? all (asked.map (Term.replaceTable current new)) =
      (Term.leadingStar? all asked).map (Term.replaceTable current new) := by
    simp only [Term.leadingStar?]
    split
    · rfl
    · rw [List.find?_map]
      exact congrArg (fun p => (asked.find? p).map _)
        (funext fun t => t.isStar_replaceTable current new)
  have hfilter (p : Bool → Bool) (ts : List Term) :
      (ts.map (Term.replaceTable current new)).filter (fun t => p t.isColumn) =
        (ts.filter fun t => p t.isColumn).map (Term.replaceTable current new) := by
    rw [List.filter_map]
    refine congrArg (List.map _) (List.filter_congr fun t _ => ?_)
    exact congrArg p (t.isColumn_replaceTable current new)
  refine ⟨?_, ?_, ?_, ?_⟩
  · exact (hfilter not q.returns).trans
      ((congrArg (List.map _) hq.expressions).trans (hfilter not asked).symm)
  · intro star hstar
    rw [hleading] at hstar
    obtain ⟨star, hbefore, rfl⟩ := Option.map_eq_some_iff.mp hstar
    exact (hfilter id q.returns).trans (congrArg (List.map _) (hq.columns star hbefore))
  · intro hnone
    rw [hleading, Option.map_eq_none_iff] at hnone
    exact congrArg (List.map _) (hq.unstarred hnone)
  · rw [hleading, Option.isSome_map]
    exact hq.mark

end Query

namespace Step

variable {s : Step} {steps : List Step} {q r : Query} {asked : List Term} {all : Bool}

theorem gathers_apply (h : s.apply q = .ok r) (hq : q.Gathers asked all) :
    r.Gathers (asked.map s.rebindTerm ++ s.ownReturns q) (all || s.returnsAll) := by
  cases s with
  | returning columns =>
    have htaken : columns.foldlM Query.returnOne q = .ok r := by
      have h : q.returning columns = .ok r := h
      simp only [Query.returning] at h
      split at h
      · exact h
      · cases h
    have hr := hq.returnAll htaken
    rw [← List.map_id asked] at hr
    exact hr
  | replaceTable current new =>
    obtain rfl := Except.ok.inj h
    show Query.Gathers (asked.map (Term.replaceTable current new) ++ []) (all || false) _
    rw [List.append_nil, Bool.or_false]
    exact hq.replaceTable current new
  | _ =>
    obtain ⟨hterms, hmark⟩ := returns_eq h rfl
    show Query.Gathers (asked.map id ++ []) (all || false) r
    rw [List.map_id, List.append_nil, Bool.or_false]
    exact ⟨hterms ▸ hq.expressions, hterms ▸ hq.columns, hterms ▸ hq.unstarred, hmark ▸ hq.mark⟩

/-- What is left of the arguments of calls, and of what was asked for before them. -/
theorem gathers_run (h : run q steps = .ok r) (hq : q.Gathers asked all) :
    r.Gathers (asked.map (rebound steps) ++ newReturns q steps)
      (all || steps.any returnsAll) := by
  induction steps generalizing q asked all with
  | nil =>
    obtain rfl : q = r := Except.ok.inj h
    show Query.Gathers (asked.map id ++ []) (all || false) q
    rw [List.map_id, List.append_nil, Bool.or_false]
    exact hq
  | cons s rest ih =>
    obtain ⟨q', hs, hrest⟩ := run_cons_ok h
    have hr := ih hrest (gathers_apply hs hq)
    rw [List.map_append, List.map_map, List.append_assoc, Bool.or_assoc] at hr
    rw [newReturns_cons hs]
    exact hr

/-- What is left of the arguments of calls on an empty statement. -/
theorem gathers_run_start {identity : Identity} {dialect : Dialect}
    (h : run (.start identity dialect) steps = .ok q) :
    q.Gathers (newReturns (.start identity dialect) steps) (steps.any returnsAll) := by
  have hstart : Query.Gathers [] false (.start identity dialect) :=
    ⟨rfl, nofun, fun _ => rfl, rfl⟩
  exact gathers_run h hstart

end Step

namespace Query

variable {q : Query} {asked : List Term} {all : Bool}

/-! ## Which columns are returned -/

/-- The column is returned, or a star that stands for it: one for everything or for the source that
    the column is from. -/
def Returning (q : Query) (t : Term) : Prop :=
  t ∈ q.returns ∨ ∃ s ∈ q.returns, s.isStar = true ∧
    (s.source? = none ∨ Source.sameOption s.source? t.source? = true)

/-- A column that was asked for is returned unless a star takes its place that does not stand for
    it. -/
theorem Gathers.returning_iff (hq : q.Gathers asked all) {t : Term} (ht : t ∈ asked)
    (hcolumn : t.isColumn = true) :
    q.Returning t ↔ ∀ star, Term.leadingStar? all asked = some star →
      star.source? = none ∨ Source.sameOption star.source? t.source? = true := by
  constructor
  · intro hreturning star hstar
    have hcolumns := hq.columns star hstar
    have hleft {u : Term} (hu : u ∈ q.returns) (hc : u.isColumn = true) : u = star := by
      have hmem : u ∈ q.returns.filter (·.isColumn) := List.mem_filter.mpr ⟨hu, hc⟩
      rw [hcolumns] at hmem
      exact List.mem_singleton.mp hmem
    rcases hreturning with hmem | ⟨s, hs, hstar', hsource⟩
    · obtain rfl := hleft hmem hcolumn
      cases t.source? with
      | none => exact .inl rfl
      | some source => exact .inr (Source.same_refl source)
    · obtain rfl := hleft hs (Term.isColumn_of_isStar hstar')
      exact hsource
  · intro hstands
    cases hleading : Term.leadingStar? all asked with
    | none => exact .inl ((hq.unstarred hleading).symm ▸ ht)
    | some star =>
      have hmem : star ∈ q.returns.filter (·.isColumn) := by
        rw [hq.columns star hleading]
        exact List.mem_singleton_self star
      exact .inr ⟨star, List.mem_of_mem_filter hmem, Term.isStar_of_leadingStar? hleading,
        hstands star hleading⟩

/-! ## What is written -/

/-- The context of what a statement returns. -/
def returnedContext (outer : Context) (q : Query) : Context :=
  { q.innerContext outer with declares := true, qualified := q.updateTable.isSome }

/-- The tokens end with RETURNING and all returned terms, with a comma between each two. -/
def ShowsReturns (outer : Context) (q : Query) (ts : List Token) : Prop :=
  ∃ (before : List Token) (lists : List (List Token)),
    Term.WriteAll (q.returnedContext outer) q.returns lists ∧
    ts = before ++ .space :: .keyword .returning :: .space :: Token.joined .comma lists

/-- Every statement that is written and returns something has that at its end. -/
theorem draft_eq_returning (hblank : q.isBlank = false) (hsome : q.returns ≠ [])
    (outer : Context) : ∃ front : Draft, q.draft outer = front ++ q.returningDraft outer := by
  have hreturned : Clause.returned (q.innerContext outer) q q.parts = q.returningDraft outer := by
    obtain ⟨t, rest, hterms⟩ := List.exists_cons_of_ne_nil hsome
    rw [parts_eq, returningDraft, hterms]
    rfl
  rw [← hreturned]
  show ∃ front, Clause.statement outer q q.parts = front ++ _
  simp only [Clause.statement, hblank, Bool.false_eq_true, if_false]
  split
  · exact ⟨_, rfl⟩
  · split
    · exact ⟨_, rfl⟩
    · exact ⟨_, rfl⟩

theorem showsReturns_of_writes (hblank : q.isBlank = false) (hsome : q.returns ≠ [])
    {outer : Context} {ts : List Token} (h : (q.draft outer).Writes ts) :
    q.ShowsReturns outer ts := by
  obtain ⟨front, hfront⟩ := draft_eq_returning hblank hsome outer
  rw [hfront] at h
  obtain ⟨before, us, -, hus, rfl⟩ := h.of_append
  obtain ⟨list, hlist, rfl⟩ := Writes.of_behind [.space, .keyword .returning, .space] hus
  obtain ⟨lists, hlists, rfl⟩ := Term.writeAll_of_commas hlist
  exact ⟨before, lists, hlists, rfl⟩

end Query

/-! ## The theorem -/

namespace Step

/-- **Which columns RETURNING keeps.** Let calls succeed on an empty statement.
    * All terms among their arguments that are neither columns nor stars are returned, in the order
      of the calls, with the tables in the place of others that later calls put there; without a
      star among the arguments, all of them are.
    * With a star, it is the only column: a bare `*` if there is one, else the first star.
    * So a column that was asked for is returned, by itself or by a star for everything or for its
      source, unless that one star is of another source.
    * What is written of the statement, be it an INSERT, an UPDATE or a selection, ends with
      RETURNING and all that is returned, in its order. -/
theorem columns_returned {identity : Identity} {dialect : Dialect} {steps : List Step} {q : Query}
    (h : run (.start identity dialect) steps = .ok q) :
    let asked := newReturns (.start identity dialect) steps
    let star? := Term.leadingStar? (steps.any returnsAll) asked
    q.returns.filter (!·.isColumn) = asked.filter (!·.isColumn) ∧
    (star? = none → q.returns = asked) ∧
    (∀ star, star? = some star → q.returns.filter (·.isColumn) = [star]) ∧
    (∀ t ∈ asked, t.isColumn = true →
      (q.Returning t ↔ ∀ star, star? = some star →
        star.source? = none ∨ Source.sameOption star.source? t.source? = true)) ∧
    (q.isBlank = false → q.returns ≠ [] →
      ∀ (outer : Context) (p : Parameters) (ts : List Token),
        ((q.draft outer).finish p).1 = .ok ts → q.ShowsReturns outer ts) := by
  have hq := gathers_run_start h
  refine ⟨hq.expressions, hq.unstarred, hq.columns, fun t => hq.returning_iff, ?_⟩
  intro hblank hsome outer p ts hfinish
  exact Query.showsReturns_of_writes hblank hsome ⟨p, _, Prod.ext hfinish rfl⟩

/-- A sum and two columns of one source, and a star for it between the two. -/
theorem columns_returned_star :
    let t := Table.named 1 "t"
    let source : Source := .table t
    let x := Term.column "x" (some source)
    let sum := Term.arithmetic .add x (.value (.int 1))
    let columns : List Column := [.term x, .term sum, .term (.starOf source), .name "y"]
    let steps : List Step := [.into t, .insertRows [[.value (.int 1)]], .returning columns]
    let ctx := Context.ofDialect .postgres
    ∃ q, run (.start 2 .postgres) steps = .ok q ∧ q.returns.filter (!·.isColumn) = [sum] ∧
      q.returns.filter (·.isColumn) = [.starOf source] ∧ q.Returning x ∧
      ∃ ts, ((q.draft ctx).finish {}).1 = .ok ts ∧
        Token.texts ctx ts = "INSERT INTO \"t\" VALUES (1) RETURNING \"x\"+1,*" ∧
        q.ShowsReturns ctx ts := by
  intro t source x sum columns steps ctx
  let q : Query :=
    { Query.start 2 .postgres with
      insertTable := some t
      rows := [[.value (.int 1)]]
      returns := [sum, .starOf source]
      returnsAll := true }
  have hrun : run (.start 2 .postgres) steps = .ok q := rfl
  have htext : ((q.draft ctx).finish {}).1.toOption.map (Token.texts ctx) =
      some "INSERT INTO \"t\" VALUES (1) RETURNING \"x\"+1,*" := by decide +kernel
  obtain ⟨ts, hts, htext⟩ := exists_ok_of_map htext
  obtain ⟨hexpressions, -, hcolumns, hreturning, hwritten⟩ := columns_returned hrun
  refine ⟨q, hrun, hexpressions, hcolumns _ rfl, ?_, ts, hts, htext, ?_⟩
  · refine (hreturning x List.mem_cons_self rfl).mpr fun star hstar => ?_
    obtain rfl := Option.some.inj hstar
    exact .inr (Source.same_refl source)
  · exact hwritten rfl nofun ctx {} ts hts

/-- A column of one table that the star of another one takes away, before it or behind it. -/
theorem returned_column_lost :
    let t := Table.named 1 "t"
    let u := Table.named 2 "u"
    let x := Term.column "x" (some (.table u))
    let star := Term.starOf (.table t)
    let equal := (Term.column "id" (some (.table t))).compare .eq (.column "id" (some (.table u)))
    let steps (first second : Term) : List Step :=
      [.update t, .join (.table u) .inner (.on equal none), .set (.name "a") (.value (.int 1)),
        .returning [.term first, .term second]]
    let text := "UPDATE \"t\" SET \"a\"=1 FROM \"t\" \"t_\" JOIN \"u\" ON " ++
      "\"t\".\"id\"=\"u\".\"id\" RETURNING \"t\".*"
    ∃ q, run (.start 3 .postgres) (steps x star) = .ok q ∧
      run (.start 3 .postgres) (steps star x) = .ok q ∧ ¬q.Returning x ∧ q.sql = .ok text := by
  intro t u x star equal steps text
  obtain ⟨q, hbefore, hbehind, hreturned⟩ : ∃ q, run (.start 3 .postgres) (steps x star) = .ok q ∧
      run (.start 3 .postgres) (steps star x) = .ok q ∧ q.returns = [star] := ⟨_, rfl, rfl, rfl⟩
  have htext : (run (.start 3 .postgres) (steps x star)).bind Query.sql = .ok text := by
    decide +kernel
  rw [hbefore] at htext
  refine ⟨q, hbefore, hbehind, ?_, htext⟩
  rintro (hmem | ⟨s, hs, -, hsource⟩)
  · rw [hreturned] at hmem
    exact nomatch congrArg Term.isStar (List.mem_singleton.mp hmem)
  · rw [hreturned] at hs
    obtain rfl := List.mem_singleton.mp hs
    exact absurd hsource (by decide)

end Step

end SqlCompose
