import Mathlib.Data.List.ReduceOption
import SqlCompose.Proofs.ClauseOrder
import SqlCompose.Proofs.ConflictFilters

/-! # Folded filters — criteria one by one, and all at once

    Criteria add up, however they are given: in calls of their own or as one conjunction. The terms
    that a statement holds then differ in how they are nested, and where nothing is asked for, in
    what stands for it; neither is seen in what is written.

    * `Term.WrittenAlike` — criteria that are written alike, or ask for nothing.
    * `Term.and_assoc_alike`, `Term.foldl_and_alike` — how a conjunction is nested does not matter.
    * `FilterClause` — the clauses that criteria add up in; `FilterClause.apply_step` and
      `FilterClause.run_steps` say what calls make of one.
    * `FilterClause.draft_put` — a statement is written alike with criteria that are.
    * `FilterClause.isEmpty_apply`, `FilterClause.isEmpty_run` — a clause is empty as long as no
      call gave it a criterion that asks for anything.
    * `FilterClause.render_fold` — the theorem. -/

namespace SqlCompose

open Draft

/-- What is put between parentheses under a condition has them in front and behind. -/
theorem Draft.parensIf_append (condition : Bool) (a b c : Draft) :
    parensIf condition (a ++ b ++ c) =
      when condition (token .lparen) ++ a ++ b ++ (c ++ when condition (token .rparen)) := by
  cases condition with
  | false =>
    show a ++ b ++ c = empty ++ a ++ b ++ (c ++ empty)
    rw [empty_append, append_empty]
  | true =>
    simp only [parensIf, parens, when, if_true, append_assoc]

/-! ## Criteria that are written alike -/

/-- Both criteria ask for nothing, or they are written alike, also as operands. -/
structure Term.WrittenAlike (t u : Term) : Prop where
  isEmpty     : t.isEmpty = u.isEmpty
  differsFrom : t.isEmpty = false → ∀ op, t.differsFrom op = u.differsFrom op
  draft       : t.isEmpty = false → ∀ ctx, t.draft ctx = u.draft ctx

namespace Term

namespace WrittenAlike

variable {t u v : Term}

theorem refl (t : Term) : t.WrittenAlike t := ⟨rfl, fun _ _ => rfl, fun _ _ => rfl⟩

theorem trans (h : t.WrittenAlike u) (h' : u.WrittenAlike v) : t.WrittenAlike v where
  isEmpty := h.isEmpty.trans h'.isEmpty
  differsFrom := fun ht op => (h.differsFrom ht op).trans (h'.differsFrom (h.isEmpty ▸ ht) op)
  draft := fun ht ctx => (h.draft ht ctx).trans (h'.draft (h.isEmpty ▸ ht) ctx)

theorem symm (h : t.WrittenAlike u) : u.WrittenAlike t where
  isEmpty := h.isEmpty.symm
  differsFrom := fun hu op => (h.differsFrom (h.isEmpty.trans hu) op).symm
  draft := fun hu ctx => (h.draft (h.isEmpty.trans hu) ctx).symm

/-- Criteria that ask for nothing are alike, whatever they are called. -/
theorem of_isEmpty (ht : t.isEmpty = true) (hu : u.isEmpty = true) : t.WrittenAlike u where
  isEmpty := ht.trans hu.symm
  differsFrom := fun h => Bool.noConfusion (ht.symm.trans h)
  draft := fun h => Bool.noConfusion (ht.symm.trans h)

end WrittenAlike

variable {t t' u u' v : Term}

/-- The empty criterion is left out in front. -/
theorem and_of_isEmpty_left (h : t.isEmpty = true) (u : Term) : t.and u = u := if_pos h

/-- And it is left out behind. -/
theorem and_of_isEmpty_right (ht : t.isEmpty = false) (hu : u.isEmpty = true) : t.and u = t := by
  simp only [and, combine, ht, hu, Bool.false_eq_true, if_false, if_true]

/-- A conjunction asks for nothing if neither side does. -/
theorem isEmpty_and_eq (t u : Term) : (t.and u).isEmpty = (t.isEmpty && u.isEmpty) := by
  cases ht : t.isEmpty with
  | true => rw [and_of_isEmpty_left ht, Bool.true_and]
  | false => exact isEmpty_and ht u

/-- A criterion that asks for nothing adds nothing. -/
theorem and_of_isEmpty_alike (t : Term) (hu : u.isEmpty = true) : t.WrittenAlike (t.and u) := by
  cases ht : t.isEmpty with
  | true => exact .of_isEmpty ht ((congrArg Term.isEmpty (and_of_isEmpty_left ht u)).trans hu)
  | false =>
    rw [and_of_isEmpty_right ht hu]
    exact .refl t

/-- Conjunctions of criteria that are alike are alike. -/
theorem WrittenAlike.and (ht : t.WrittenAlike t') (hu : u.WrittenAlike u') :
    (t.and u).WrittenAlike (t'.and u') := by
  cases htop : t.isEmpty with
  | true =>
    rw [and_of_isEmpty_left htop, and_of_isEmpty_left (ht.isEmpty.symm.trans htop)]
    exact hu
  | false =>
    have htop' : t'.isEmpty = false := ht.isEmpty.symm.trans htop
    cases huop : u.isEmpty with
    | true =>
      rw [and_of_isEmpty_right htop huop,
        and_of_isEmpty_right htop' (hu.isEmpty.symm.trans huop)]
      exact ht
    | false =>
      rw [and_eq htop huop, and_eq htop' (hu.isEmpty.symm.trans huop)]
      refine ⟨rfl, fun _ _ => rfl, fun _ ctx => ?_⟩
      rw [draft_and, draft_and, ht.differsFrom htop, hu.differsFrom huop, ht.draft htop,
        hu.draft huop]

/-- So are criteria to which the same ones are added. -/
theorem WrittenAlike.foldl_and (h : t.WrittenAlike t') (cs : List Term) :
    (cs.foldl Term.and t).WrittenAlike (cs.foldl Term.and t') := by
  induction cs generalizing t t' with
  | nil => exact h
  | cons c rest ih => exact ih (h.and (.refl c))

/-- How three criteria are nested does not matter: where an operand is a conjunction itself, no
    brackets are put around it. -/
theorem and_assoc_alike (t u v : Term) : ((t.and u).and v).WrittenAlike (t.and (u.and v)) := by
  cases ht : t.isEmpty with
  | true =>
    rw [and_of_isEmpty_left ht, and_of_isEmpty_left ht]
    exact .refl _
  | false =>
    cases hu : u.isEmpty with
    | true =>
      rw [and_of_isEmpty_right ht hu, and_of_isEmpty_left hu]
      exact .refl _
    | false =>
      cases hv : v.isEmpty with
      | true =>
        rw [and_of_isEmpty_right (isEmpty_and ht u) hv, and_of_isEmpty_right hu hv]
        exact .refl _
      | false =>
        rw [and_eq ht hu, and_eq rfl hv, and_eq hu hv, and_eq ht rfl]
        refine ⟨rfl, fun _ _ => rfl, fun _ ctx => ?_⟩
        have hleft : Term.differsFrom .and ⟨.combination .and t u, none⟩ = false := rfl
        have hright : Term.differsFrom .and ⟨.combination .and u v, none⟩ = false := rfl
        -- a conjunction is no operand of another one that needs brackets
        rw [draft_and ctx, draft_and ctx, hleft, hright, draft_and, draft_and]
        simp only [parensIf, Bool.false_eq_true, if_false, append_assoc]

/-- Criteria that are added one after the other are those that are added as one conjunction. -/
theorem foldl_and_alike (cs : List Term) (t : Term) :
    (cs.foldl Term.and t).WrittenAlike (t.and (conjunction cs)) := by
  induction cs using List.reverseRecOn with
  | nil => exact and_of_isEmpty_alike t rfl
  | append_singleton rest c ih =>
    rw [conjunction, List.foldl_append, List.foldl_append]
    exact (ih.and (.refl c)).trans (and_assoc_alike t (conjunction rest) c)

/-- A conjunction of many asks for nothing if none does. -/
theorem isEmpty_foldl_and_eq (cs : List Term) (t : Term) :
    (cs.foldl Term.and t).isEmpty = (t.isEmpty && cs.all Term.isEmpty) := by
  induction cs generalizing t with
  | nil => exact (Bool.and_true _).symm
  | cons c rest ih => rw [List.foldl_cons, ih, isEmpty_and_eq, Bool.and_assoc, List.all_cons]

/-- Whether a criterion names a source that the statement does not have. -/
def isForeign (q : Query) (t : Term) : Bool :=
  t.fieldSources.reduceOption.any fun source => !q.owns source

/-- The empty criterion is about no source. -/
theorem isForeign_of_isEmpty (q : Query) (h : t.isEmpty = true) : t.isForeign q = false := by
  rw [isForeign, Addition.fieldSources_of_isEmpty h]
  rfl

/-- A conjunction names the sources that its criteria name. -/
theorem isForeign_and (q : Query) (t u : Term) :
    (t.and u).isForeign q = (t.isForeign q || u.isForeign q) := by
  cases ht : t.isEmpty with
  | true => rw [and_of_isEmpty_left ht, isForeign_of_isEmpty q ht, Bool.false_or]
  | false =>
    cases hu : u.isEmpty with
    | true => rw [and_of_isEmpty_right ht hu, isForeign_of_isEmpty q hu, Bool.or_false]
    | false =>
      have hsources : (t.and u).fieldSources = t.fieldSources ++ u.fieldSources := by
        rw [and_eq ht hu]
        rfl
      rw [isForeign, hsources, List.reduceOption_append, List.any_append]
      rfl

/-- A conjunction is about a foreign source if one of the criteria is. -/
theorem isForeign_conjunction (q : Query) (cs : List Term) :
    (conjunction cs).isForeign q = cs.any (isForeign q) := by
  induction cs using List.reverseRecOn with
  | nil => rfl
  | append_singleton rest c ih =>
    have hlast : conjunction (rest ++ [c]) = (conjunction rest).and c := List.foldl_append
    rw [hlast, isForeign_and, ih, List.any_append, List.any_cons, List.any_nil, Bool.or_false]

end Term

/-! ## The clauses -/

/-- The clauses that criteria add up in. -/
inductive FilterClause
  | filter | prefilter | groupFilter

namespace FilterClause

/-- What the clause starts with. -/
def keyword : FilterClause → Keyword
  | filter => .where_
  | prefilter => .prewhere
  | groupFilter => .having

/-- The call that gives a criterion for the clause. -/
def step : FilterClause → Term → Step
  | filter => .filterBy
  | prefilter => .prefilterBy
  | groupFilter => .filterGroupsBy

/-- The criterion that a call gives for the clause. -/
def given : FilterClause → Step → Option Term
  | filter, .filterBy criterion => some criterion
  | prefilter, .prefilterBy criterion => some criterion
  | groupFilter, .filterGroupsBy criterion => some criterion
  | _, _ => none

/-- The criterion of the clause. -/
def criterion (q : Query) : FilterClause → Term
  | filter => q.filter
  | prefilter => q.prefilter
  | groupFilter => q.groupFilter

/-- The statement with another criterion for the clause. -/
def put (t : Term) (q : Query) : FilterClause → Query
  | filter => { q with filter := t }
  | prefilter => { q with prefilter := t }
  | groupFilter => { q with groupFilter := t }

/-- Whether columns have to say which source they are from, once criteria were given. -/
def noted (q : Query) (cs : List Term) : FilterClause → Bool
  | filter | prefilter => q.foreignSource || cs.any (Term.isForeign q)
  | groupFilter => q.foreignSource

/-- The statement with another criterion, once criteria were given for the clause. -/
def putNoted (t : Term) (cs : List Term) (q : Query) (k : FilterClause) : Query :=
  k.put t { q with foreignSource := k.noted q cs }

/-- No conflict clause takes the criteria. -/
def IsFree (q : Query) (k : FilterClause) : Prop := k = filter → q.conflict.isOpen = false

variable {k : FilterClause} {q r : Query}

/-! ## What calls make of a clause -/

/-- Without criteria, nothing is noted. -/
theorem noted_nil (k : FilterClause) (q : Query) : k.noted q [] = q.foreignSource := by
  cases k with
  | groupFilter => rfl
  | _ => exact Bool.or_false _

/-- Criteria may be noted in two goes. -/
theorem putNoted_putNoted (k : FilterClause) (t u : Term) (cs ds : List Term) (q : Query) :
    k.putNoted u ds (k.putNoted t cs q) = k.putNoted u (cs ++ ds) q := by
  cases k with
  | groupFilter => rfl
  | _ =>
    simp only [putNoted, put, noted, List.any_append, ← Bool.or_assoc]
    rfl

/-- What is put into a clause is its criterion. -/
theorem criterion_putNoted (k : FilterClause) (t : Term) (cs : List Term) (q : Query) :
    k.criterion (k.putNoted t cs q) = t := by
  cases k <;> rfl

/-- Putting the criterion of a clause back changes nothing. -/
theorem put_criterion (k : FilterClause) (q : Query) : k.put (k.criterion q) q = q := by
  cases q
  cases k <;> rfl

/-- Nor does it if no criteria are noted beside it. -/
theorem putNoted_criterion (k : FilterClause) (q : Query) :
    k.putNoted (k.criterion q) [] q = q := by
  rw [putNoted, noted_nil]
  cases q
  exact put_criterion k _

/-- A clause stays free of conflicts when criteria are put into it. -/
theorem isFree_putNoted (hfree : k.IsFree q) (t : Term) (cs : List Term) :
    k.IsFree (k.putNoted t cs q) := by
  intro hk
  subst hk
  exact hfree rfl

/-- A call adds its criterion to those of its clause, or leaves it out if it asks for nothing. -/
theorem apply_step (hfree : k.IsFree q) (c : Term) :
    ∃ t, (k.step c).apply q = .ok (k.putNoted t [c] q) ∧
      t.WrittenAlike ((k.criterion q).and c) := by
  have hone : [c].any (Term.isForeign q) = c.isForeign q := Bool.or_false _
  cases k with
  | filter =>
    -- an empty criterion is not taken, and so notes no source either
    cases hc : c.isEmpty with
    | true =>
      have hquiet : filter.noted q [c] = filter.noted q [] := by
        simp only [noted, hone, Term.isForeign_of_isEmpty q hc, List.any_nil]
      have hsame : filter.putNoted q.filter [c] q = q := by
        rw [putNoted, hquiet]
        exact putNoted_criterion filter q
      refine ⟨q.filter, ?_, ?_⟩
      · rw [hsame]
        exact if_pos hc
      · exact Term.and_of_isEmpty_alike q.filter hc
    | false =>
      refine ⟨q.filter.and c, ?_, .refl _⟩
      have hopen : q.conflict.isOpen = false := hfree rfl
      show q.filterBy c = _
      simp only [Query.filterBy, hc, hopen, putNoted, noted, hone]
      rfl
  | prefilter =>
    refine ⟨q.prefilter.and c, ?_, .refl _⟩
    simp only [putNoted, noted, hone]
    rfl
  | groupFilter => exact ⟨q.groupFilter.and c, rfl, .refl _⟩

/-- Criteria that calls give one by one add up to those that were there before. -/
theorem run_steps (hfree : k.IsFree q) (cs : List Term) :
    ∃ t, Step.run q (cs.map k.step) = .ok (k.putNoted t cs q) ∧
      t.WrittenAlike (cs.foldl Term.and (k.criterion q)) := by
  induction cs generalizing q with
  | nil =>
    refine ⟨k.criterion q, ?_, .refl _⟩
    rw [putNoted_criterion]
    rfl
  | cons c rest ih =>
    obtain ⟨t, hfirst, halike⟩ := apply_step hfree c
    obtain ⟨u, hrest, hfold⟩ := ih (isFree_putNoted hfree t [c])
    rw [criterion_putNoted] at hfold
    rw [putNoted_putNoted] at hrest
    refine ⟨u, ?_, hfold.trans (Term.WrittenAlike.foldl_and halike rest)⟩
    have hrun : Step.run q ((c :: rest).map k.step) =
        ((k.step c).apply q).bind fun q' => Step.run q' (rest.map k.step) := List.foldlM_cons
    rw [hrun, hfirst]
    exact hrest

/-! ## What is written of a clause -/

/-- Criteria that are written alike are so as clauses. -/
theorem criterion_congr {t u : Term} (h : t.WrittenAlike u) (ctx : Context) (kw : Keyword) :
    Clause.criterion ctx kw t (fun ctx => t.draft ctx) =
      Clause.criterion ctx kw u (fun ctx => u.draft ctx) := by
  simp only [Clause.criterion]
  rw [← h.isEmpty]
  cases ht : t.isEmpty with
  | true => rfl
  | false => rw [h.draft ht]

/-- A statement is written alike with criteria that are. -/
theorem draft_put {t u : Term} (h : t.WrittenAlike u) (k : FilterClause) (q : Query)
    (outer : Context) : (k.put t q).draft outer = (k.put u q).draft outer := by
  show Clause.statement outer (k.put t q) (k.put t q).parts =
    Clause.statement outer (k.put u q) (k.put u q).parts
  -- the criteria of the clauses are written in an UPDATE and in a SELECT
  unfold Clause.statement Clause.update Clause.selection Clause.filtered
  rw [Query.parts_eq, Query.parts_eq]
  cases k <;> simp only [put, criterion_congr h] <;> rfl

/-! ## Whether a clause is empty -/

/-- A call that gives no criterion for a clause leaves the criterion of the clause as it is, or
    rebinds it. -/
theorem criterion_apply {s : Step} (h : s.apply q = .ok r) (hnone : k.given s = none) :
    k.criterion r = s.rebindTerm (k.criterion q) := by
  cases Step.makes h with
  | filtered | prefilterBy | filterGroupsBy =>
    -- each of the three adds to the clause that it is for, and leaves the two others
    cases k <;> first | rfl | exact nomatch hnone
  | _ => cases k <;> rfl

/-- A call that gives the clause a criterion is the call for that clause. -/
theorem eq_step_of_given {s : Step} {c : Term} (h : k.given s = some c) : s = k.step c := by
  cases k <;> cases s <;> first | (obtain rfl := Option.some.inj h; rfl) | exact nomatch h

/-- A conflict clause that is not open was not open before. -/
theorem isFree_of_run {steps : List Step} (h : Step.run q steps = .ok r) (hfree : k.IsFree r) :
    k.IsFree q := by
  intro hk
  by_contra hopen
  have hkept : r.conflict.isOpen = true :=
    Step.run_invariant (P := fun q => q.conflict.isOpen = true)
      (fun hs hq => by rw [(Step.conflict_apply hs false).1, hq, Bool.true_or]) h
      (by simpa using hopen)
  exact Bool.noConfusion ((hfree hk).symm.trans hkept)

/-- The criterion of a clause asks for something after a call exactly if it did before or the call
    gave one that does. -/
theorem isEmpty_apply {s : Step} (h : s.apply q = .ok r) (hfree : k.IsFree q) :
    (k.criterion r).isEmpty = ((k.criterion q).isEmpty && (k.given s).all Term.isEmpty) := by
  cases hgiven : k.given s with
  | none =>
    rw [criterion_apply h hgiven]
    exact (Step.isEmpty_rebound [s] (k.criterion q)).trans (Bool.and_true _).symm
  | some c =>
    obtain ⟨t, hcall, halike⟩ := apply_step hfree c
    rw [eq_step_of_given hgiven, hcall] at h
    obtain rfl := Except.ok.inj h
    rw [criterion_putNoted, halike.isEmpty, Term.isEmpty_and_eq]
    rfl

/-- After calls, a clause asks for something if it did before or if one of the given criteria
    does. -/
theorem isEmpty_run {steps : List Step} (h : Step.run q steps = .ok r) (hfree : k.IsFree r) :
    (k.criterion r).isEmpty =
      ((k.criterion q).isEmpty && (steps.filterMap k.given).all Term.isEmpty) := by
  induction steps generalizing q with
  | nil =>
    obtain rfl : q = r := Except.ok.inj h
    exact (Bool.and_true _).symm
  | cons s rest ih =>
    obtain ⟨q', hs, hrest⟩ := Step.run_cons_ok h
    rw [ih hrest, isEmpty_apply hs (isFree_of_run h hfree), Bool.and_assoc, List.filterMap_cons]
    cases k.given s with
    | none => rw [Option.all_none, Bool.true_and]
    | some c => rw [Option.all_some, List.all_cons]

/-! ## Where a clause is written -/

/-- The clause as it is written in a statement. -/
def draft (ctx : Context) (q : Query) (k : FilterClause) : Draft :=
  Clause.criterion ctx k.keyword (k.criterion q) fun ctx => (k.criterion q).draft ctx

/-- What a statement selects, and from what. -/
def head (ctx : Context) (q : Query) : Draft :=
  let verb :=
    if q.deletes then word .delete
    else when q.inserts (Clause.inserting ctx q q.parts ++ space) ++ Clause.selecting ctx q q.parts
  Clause.withs ctx q q.parts ++ verb ++ Clause.from_ ctx q.parts [] ++
    Clause.indexHint .force q.forcedIndexes ++ Clause.indexHint .use q.usedIndexes ++
    Clause.joined ctx q.parts

/-- What a statement does with what it has selected. -/
def tail (ctx : Context) (q : Query) : Draft :=
  Clause.ordered ctx q q.parts ++ Clause.pagination ctx q ++ Clause.locking q.lock

/-- What stands before a clause between the parentheses of a statement. -/
def before (ctx : Context) (q : Query) : FilterClause → Draft
  | prefilter => head ctx q
  | filter => head ctx q ++ prefilter.draft ctx q
  | groupFilter =>
    head ctx q ++ prefilter.draft ctx q ++ filter.draft ctx q ++ Clause.grouped ctx q q.parts

/-- What stands behind it there. -/
def after (ctx : Context) (q : Query) : FilterClause → Draft
  | prefilter =>
    filter.draft ctx q ++ Clause.grouped ctx q q.parts ++ groupFilter.draft ctx q ++ tail ctx q
  | filter => Clause.grouped ctx q q.parts ++ groupFilter.draft ctx q ++ tail ctx q
  | groupFilter => tail ctx q

/-- A SELECT is what stands before the clause, the clause and what stands after it. -/
theorem selection_eq (k : FilterClause) (ctx : Context) (q : Query) :
    Clause.selection ctx q q.parts = k.before ctx q ++ k.draft ctx q ++ k.after ctx q := by
  cases k <;>
    · simp only [Clause.selection, before, after, head, tail, draft, keyword, criterion,
        Clause.filtered, append_assoc]
      rw [Query.parts_eq]

/-- A criterion is seen nowhere but in its clause. -/
theorem before_put (k : FilterClause) (t : Term) (q : Query) (ctx : Context) :
    k.before ctx (k.put t q) = k.before ctx q := by
  cases q
  cases k <;> rfl

/-- What stands after the clause does not depend on its criterion. -/
theorem after_put (k : FilterClause) (t : Term) (q : Query) (ctx : Context) :
    k.after ctx (k.put t q) = k.after ctx q := by
  cases q
  cases k <;> rfl

/-- A statement that is a SELECT is one with any criterion, and has the same context, and the same
    behind its parentheses. -/
theorem around_put (k : FilterClause) (t : Term) (q : Query) (outer : Context) :
    (k.put t q).isSelection = q.isSelection ∧
      (k.put t q).innerContext outer = q.innerContext outer ∧
      (k.put t q).behind outer = q.behind outer := by
  cases q
  cases k <;> exact ⟨rfl, rfl, rfl⟩

/-- In a SELECT, a clause has a place of its own between what does not depend on its criterion. -/
theorem draft_of_selection (hselection : q.isSelection = true) (k : FilterClause)
    (outer : Context) :
    ∃ front rear : Draft, ∀ t, (k.put t q).draft outer =
      front ++ Clause.criterion (q.innerContext outer) k.keyword t (fun ctx => t.draft ctx) ++
        rear := by
  refine ⟨when outer.nested (token .lparen) ++ k.before (q.innerContext outer) q,
    k.after (q.innerContext outer) q ++ when outer.nested (token .rparen) ++ q.behind outer,
    fun t => ?_⟩
  obtain ⟨hput, hcontext, hbehind⟩ := around_put k t q outer
  have hclause : k.draft (q.innerContext outer) (k.put t q) =
      Clause.criterion (q.innerContext outer) k.keyword t fun ctx => t.draft ctx := by
    cases k <;> rfl
  rw [Query.draft_of_isSelection (hput.trans hselection), Query.inside, hcontext, hbehind,
    selection_eq k, before_put, after_put, hclause, parensIf_append]
  simp only [append_assoc]

/-! ## The theorem -/

/-- **Criteria add up, one by one or all at once.** Let a statement have no open conflict clause, if
    the criteria are for WHERE, and let any criteria be given for WHERE, PREWHERE or HAVING: in
    calls of their own, or in one call as one conjunction. Both succeed, and in every context the
    statements are written alike: they give the same text or stop for the same reason, and they
    bind the same values.

    If the statement was made by calls and is written as a SELECT, it is written as it would be
    without the criterion of the clause, but for the clause in its place: the keyword and the
    criterion, exactly if one of the criteria that were given for the clause asks for anything. -/
theorem render_fold (hfree : k.IsFree q) (cs : List Term) :
    ∃ r s : Query, Step.run q (cs.map k.step) = .ok r ∧
      Step.run q [k.step (Term.conjunction cs)] = .ok s ∧
      (∀ (ctx : Context) (p : Parameters), (r.draft ctx).render ctx p = (s.draft ctx).render ctx p) ∧
      (q.isSelection = true → ∀ (identity : Identity) (dialect : Dialect) (steps : List Step),
        Step.run (.start identity dialect) steps = .ok q → ∀ outer : Context,
          ∃ front rear : Draft, (k.put .empty r).draft outer = front ++ rear ∧
            r.draft outer = front ++
              (if (steps.filterMap k.given ++ cs).all Term.isEmpty then .empty
                else clause [k.keyword]
                  ((k.criterion r).draft { r.innerContext outer with nested := true })) ++
              rear) := by
  obtain ⟨t, hrun, ht⟩ := run_steps hfree cs
  obtain ⟨u, hcall, hu⟩ := apply_step hfree (Term.conjunction cs)
  have halike : t.WrittenAlike u := ht.trans ((Term.foldl_and_alike cs _).trans hu.symm)
  -- the sources that are noted one by one are those of the conjunction
  have hnoted : k.noted q [Term.conjunction cs] = k.noted q cs := by
    cases k with
    | groupFilter => rfl
    | _ => simp only [noted, List.any_cons, List.any_nil, Bool.or_false, Term.isForeign_conjunction]
  refine ⟨k.putNoted t cs q, k.putNoted u [Term.conjunction cs] q, hrun, ?_, ?_, ?_⟩
  · show (_ : Except BuildError Query).bind _ = _
    rw [hcall]
    rfl
  · intro ctx p
    rw [putNoted, putNoted, hnoted, draft_put halike]
  · intro hselection identity dialect steps hsteps outer
    have hselection' : (k.putNoted t cs q).isSelection = true :=
      (around_put k t { q with foreignSource := k.noted q cs } outer).1.trans hselection
    obtain ⟨front, rear, hplace⟩ := draft_of_selection hselection' k outer
    have hstart : (k.criterion (.start identity dialect)).isEmpty = true := by
      cases k <;> rfl
    have hempty : (k.criterion (k.putNoted t cs q)).isEmpty =
        (steps.filterMap k.given ++ cs).all Term.isEmpty := by
      rw [criterion_putNoted, ht.isEmpty, Term.isEmpty_foldl_and_eq, isEmpty_run hsteps hfree,
        hstart, Bool.true_and, List.all_append]
    refine ⟨front, rear, ?_, ?_⟩
    · rw [hplace]
      exact congrArg (· ++ rear) (append_empty front)
    · have hwhole := hplace (k.criterion (k.putNoted t cs q))
      rw [put_criterion, Clause.criterion, hempty] at hwhole
      rw [hwhole]
      cases (steps.filterMap k.given ++ cs).all Term.isEmpty <;> rfl

/-- Three criteria for WHERE, the second of which asks for nothing and the third of which is a
    choice, behind one that is there already. -/
theorem render_fold_where :
    let x (name : String) (n : Int64) : Term := (Term.field name).compare .eq (.value (.int n))
    let t := Table.named 1 "t"
    let steps : List Step :=
      [.readFrom (.table t), .select [.name "a"], .filterBy (x "a" 1)]
    let q : Query := { Query.start 2 .generic with
      sources := [.table t]
      selects := [.column "a" (some (.table t))]
      filter := x "a" 1 }
    let cs : List Term := [(x "b" 2).and (x "c" 3), .empty, (x "d" 4).or (x "e" 5)]
    let outer := Context.ofDialect .generic
    Step.run (.start 2 .generic) steps = .ok q ∧
      ∃ r s : Query, Step.run q (cs.map .filterBy) = .ok r ∧
        Step.run q [.filterBy (Term.conjunction cs)] = .ok s ∧
        r.sql = .ok ("SELECT \"a\" FROM \"t\" WHERE \"a\"=1 AND " ++
          "\"b\"=2 AND \"c\"=3 AND (\"d\"=4 OR \"e\"=5)") ∧
        (r.draft outer).render outer {} = (s.draft outer).render outer {} ∧
        ∃ front rear : Draft, (filter.put .empty r).draft outer = front ++ rear ∧
          r.draft outer = front ++
            clause [.where_] (r.filter.draft { r.innerContext outer with nested := true }) ++
              rear := by
  intro x t steps q cs outer
  have hsteps : Step.run (.start 2 .generic) steps = .ok q := rfl
  have htext : (Step.run q (cs.map .filterBy)).toOption.map Query.sql =
      some (.ok ("SELECT \"a\" FROM \"t\" WHERE \"a\"=1 AND " ++
        "\"b\"=2 AND \"c\"=3 AND (\"d\"=4 OR \"e\"=5)")) := by decide +kernel
  obtain ⟨r', hr', hsql⟩ := exists_ok_of_map htext
  obtain ⟨r, s, hr, hs, hrender, hplace⟩ := render_fold (k := filter) (q := q) (fun _ => rfl) cs
  obtain rfl : r' = r := Except.ok.inj (hr'.symm.trans hr)
  obtain ⟨front, rear, hwithout, hwith⟩ := hplace rfl 2 .generic steps hsteps outer
  refine ⟨hsteps, r', s, hr, hs, hsql, hrender outer {}, front, rear, hwithout, ?_⟩
  rw [if_neg (by decide)] at hwith
  exact hwith

end FilterClause

end SqlCompose
