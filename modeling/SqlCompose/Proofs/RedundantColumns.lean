import SqlCompose.Proofs.SelectLists

/-! # Redundant columns — a select list has none

    A column needs no place of its own in a select list that has a star for its source, and a star
    needs none beside another one for the same source. The list alone does not tell a statement what
    to leave out: it remembers apart the sources whose stars it has, and whether it selects
    everything. What it remembers fits its list after every call that selects.

    * `Term.StandsFor` — a star for the source of a column or of another star.
    * `Query.Irredundant` — no column in the list has a star for its source there, and no source has
      two stars.
    * `Query.Tidy` — what a statement remembers fits its list; `Query.tidy_selectColumn` and
      `Query.tidy_selectOne` say that what is selected keeps it so.
    * `Query.tidy_run`, `Query.selectsAll_run` — what holds behind a list of calls.
    * `Query.irredundant_of_calls` — the theorem. -/

namespace SqlCompose

/-! ## Lists without redundant columns -/

/-- The first term is a star for the source of the second one. -/
def Term.StandsFor (s t : Term) : Prop :=
  s.isStar = true ∧ Source.sameOption s.source? t.source? = true

namespace Query

/-- No column is in the select list beside a star for its source, and no source has two stars
    there. -/
structure Irredundant (q : Query) : Prop where
  fields : ∀ s ∈ q.selects, ∀ t ∈ q.selects,
    t.isColumn = true → t.isStar = false → ¬ s.StandsFor t
  stars  : q.selects.Pairwise fun s t => t.isStar = true → ¬ s.StandsFor t

/-- The select list is irredundant, and what the statement remembers fits it: each of the stars is
    remembered by its source, and where everything is selected, the star for everything is all that
    there is of columns and stars. -/
structure Tidy (q : Query) : Prop extends q.Irredundant where
  remembered : q.selectsAll = false → ∀ s ∈ q.selects, s.isStar = true →
    ∃ source ∈ q.starred, Source.sameOption source s.source? = true
  everything : q.selectsAll = true → q.selects.filter Term.isColumn = [.star]

variable {q r : Query}

theorem tidy_start (identity : Identity) (dialect : Dialect) : (start identity dialect).Tidy where
  fields := nofun
  stars := .nil
  remembered := nofun
  everything := nofun

/-! ## One argument of a call -/

/-- A column or a star that is selected changes nothing if it is covered. If it is not, it is added,
    and to a star the columns give way that it stands for. -/
theorem selectColumn_or (q : Query) (t : Term) :
    q.selectColumn t = q ∨
      (q.selectsAll = false ∧ (∀ source ∈ q.starred, Source.sameOption source t.source? = false)) ∧
        ((t.isStar = true ∧
            q.selectColumn t =
              { q with
                selects := q.selects.filter
                  (fun s => !(s.isColumn && Source.sameOption s.source? t.source?)) ++ [t]
                starred := q.starred ++ [t.source?] }) ∨
          (t.isStar = false ∧ q.selectColumn t = { q with selects := q.selects ++ [t] })) := by
  simp only [selectColumn]
  split
  · exact .inl rfl
  · next huncovered =>
    rw [Bool.or_eq_true, not_or, Bool.not_eq_true, Bool.not_eq_true, List.any_eq_false]
      at huncovered
    refine .inr ⟨⟨huncovered.1, fun source h => Bool.eq_false_iff.mpr (huncovered.2 source h)⟩, ?_⟩
    split
    · next hstar => exact .inl ⟨hstar, rfl⟩
    · next hstar => exact .inr ⟨Bool.eq_false_iff.mpr hstar, rfl⟩

/-- Where no remembered source is that of a column or a star, no star in the list stands for it. -/
theorem Tidy.not_standsFor (hq : q.Tidy) (hall : q.selectsAll = false) {t : Term}
    (hnew : ∀ source ∈ q.starred, Source.sameOption source t.source? = false) :
    ∀ s ∈ q.selects, ¬ s.StandsFor t := by
  rintro s hs ⟨hstar, hsame⟩
  obtain ⟨source, hsource, hremembered⟩ := hq.remembered hall s hs hstar
  have hcovered := Source.sameOption_trans hremembered hsame
  rw [hnew source hsource] at hcovered
  exact Bool.noConfusion hcovered

/-- A star that is added leaves no column and no other star for its source. -/
theorem tidy_addStar (hq : q.Tidy) (hall : q.selectsAll = false) {t : Term}
    (hstar : t.isStar = true)
    (hnew : ∀ source ∈ q.starred, Source.sameOption source t.source? = false) :
    ({ q with
      selects := q.selects.filter
        (fun s => !(s.isColumn && Source.sameOption s.source? t.source?)) ++ [t]
      starred := q.starred ++ [t.source?] } : Query).Tidy := by
  constructor
  · constructor
    · intro s hs u hu hcolumn hfield
      have hu : u ∈ q.selects ∧ !(u.isColumn && Source.sameOption u.source? t.source?) := by
        rcases List.mem_append.mp hu with hu | hu
        · exact List.mem_filter.mp hu
        · -- the added term is a star
          obtain rfl := List.mem_singleton.mp hu
          rw [hstar] at hfield
          exact Bool.noConfusion hfield
      rcases List.mem_append.mp hs with hs | hs
      · exact hq.fields s (List.mem_filter.mp hs).1 u hu.1 hcolumn hfield
      · obtain rfl := List.mem_singleton.mp hs
        rintro ⟨-, hsame⟩
        have hgone := hu.2
        rw [hcolumn, Source.sameOption_symm hsame] at hgone
        exact Bool.noConfusion hgone
    · refine List.pairwise_append.mpr ⟨hq.stars.filter _, List.pairwise_singleton _ _, ?_⟩
      intro s hs u hu _
      obtain rfl := List.mem_singleton.mp hu
      exact hq.not_standsFor hall hnew s (List.mem_filter.mp hs).1
  · intro _ s hs hs'
    rcases List.mem_append.mp hs with hs | hs
    · obtain ⟨source, hsource, hsame⟩ := hq.remembered hall s (List.mem_filter.mp hs).1 hs'
      exact ⟨source, List.mem_append_left _ hsource, hsame⟩
    · obtain rfl := List.mem_singleton.mp hs
      refine ⟨s.source?, List.mem_append_right _ (List.mem_singleton_self _), ?_⟩
      cases s.source? with
      | none => rfl
      | some source => exact Source.same_refl source
  · intro h
    exact Bool.noConfusion (hall.symm.trans h)

/-- What is no star is added where no star in the list stands for it, and to a list with the star
    for everything only if it is no column. -/
theorem tidy_append (hq : q.Tidy) {t : Term} (hstar : t.isStar = false)
    (hnew : t.isColumn = true → q.selectsAll = false ∧ ∀ s ∈ q.selects, ¬ s.StandsFor t) :
    ({ q with selects := q.selects ++ [t] } : Query).Tidy := by
  -- what is added is no star, so it stands for nothing
  have hnone (u : Term) : ¬ t.StandsFor u := by
    rintro ⟨h, -⟩
    exact Bool.noConfusion (hstar.symm.trans h)
  constructor
  · constructor
    · intro s hs u hu hcolumn hfield
      rcases List.mem_append.mp hs with hold | hadded
      · rcases List.mem_append.mp hu with hu | hu
        · exact hq.fields s hold u hu hcolumn hfield
        · obtain rfl := List.mem_singleton.mp hu
          exact (hnew hcolumn).2 s hold
      · obtain rfl := List.mem_singleton.mp hadded
        exact hnone u
    · refine List.pairwise_append.mpr ⟨hq.stars, List.pairwise_singleton _ _, ?_⟩
      intro s _ u hu hu'
      obtain rfl := List.mem_singleton.mp hu
      exact Bool.noConfusion (hstar.symm.trans hu')
  · intro hall s hs hs'
    rcases List.mem_append.mp hs with hs | hs
    · exact hq.remembered hall s hs hs'
    · obtain rfl := List.mem_singleton.mp hs
      exact Bool.noConfusion (hstar.symm.trans hs')
  · intro hall
    have hcolumn : t.isColumn = false := by
      by_contra hcolumn
      exact Bool.noConfusion ((hnew (by simpa using hcolumn)).1.symm.trans hall)
    show (q.selects ++ [t]).filter Term.isColumn = [.star]
    rw [List.filter_append, hq.everything hall, List.filter_cons_of_neg (by simp [hcolumn])]
    rfl

/-- A column or a star that is selected leaves the list irredundant. -/
theorem tidy_selectColumn (hq : q.Tidy) (t : Term) : (q.selectColumn t).Tidy := by
  rcases q.selectColumn_or t with heq | ⟨⟨hall, hnew⟩, ⟨hstar, heq⟩ | ⟨hfield, heq⟩⟩
  · rw [heq]
    exact hq
  · rw [heq]
    exact tidy_addStar hq hall hstar hnew
  · rw [heq]
    exact tidy_append hq hfield fun _ => ⟨hall, hq.not_standsFor hall hnew⟩

/-- So does any argument of a call. -/
theorem tidy_selectOne {c : Column} (h : q.selectOne c = .ok r) (hq : q.Tidy) : r.Tidy := by
  rcases selectOne_cases h with ⟨-, rfl⟩ | ⟨-, ⟨-, rfl⟩ | ⟨hother, rfl⟩⟩
  · -- a bare `*` leaves nothing but itself
    constructor
    · constructor
      · intro s _ t ht _ hfield
        obtain rfl := List.mem_singleton.mp ht
        exact Bool.noConfusion hfield
      · exact List.pairwise_singleton _ _
    · exact nofun
    · exact fun _ => rfl
  · exact tidy_selectColumn hq _
  · refine tidy_append hq ?_ fun hcolumn => Bool.noConfusion (hother.symm.trans hcolumn)
    by_contra hstar
    exact Bool.noConfusion (hother.symm.trans (Term.isColumn_of_isStar (by simpa using hstar)))

/-! ## Lists of calls -/

/-- A call keeps the list irredundant unless it replaces a table. -/
theorem tidy_of_apply {s : Step} (h : s.apply q = .ok r)
    (hkeeps : ∀ current new, s ≠ .replaceTable current new) (hq : q.Tidy) : r.Tidy := by
  cases s with
  | select columns => exact select_invariant tidy_selectOne h hq
  | replaceTable current new => exact absurd rfl (hkeeps current new)
  | _ => cases Step.makes h <;> exact ⟨⟨hq.fields, hq.stars⟩, hq.remembered, hq.everything⟩

theorem tidy_run {steps : List Step} (h : Step.run q steps = .ok r)
    (hkeeps : ∀ current new, .replaceTable current new ∉ steps) (hq : q.Tidy) : r.Tidy := by
  induction steps generalizing q with
  | nil =>
    obtain rfl : q = r := Except.ok.inj h
    exact hq
  | cons s rest ih =>
    obtain ⟨q', hs, hrest⟩ := Step.run_cons_ok h
    have hq' : q'.Tidy := by
      refine tidy_of_apply hs ?_ hq
      rintro current new rfl
      exact hkeeps current new List.mem_cons_self
    exact ih hrest (fun current new hmem => hkeeps current new (List.mem_cons_of_mem _ hmem)) hq'

theorem selectsAll_selectOne {c : Column} (h : q.selectOne c = .ok r)
    (hall : c = .name "*" ∨ q.selectsAll = true) : r.selectsAll = true := by
  rcases selectOne_cases h with ⟨-, rfl⟩ | ⟨hne, hother⟩
  · rfl
  · have hall : q.selectsAll = true := hall.resolve_left hne
    rcases hother with ⟨-, rfl⟩ | ⟨-, rfl⟩
    · obtain ⟨selects, starred, heq⟩ := q.selectColumn_eq (c.boundTo q.firstSource?)
      rw [heq]
      exact hall
    · exact hall

/-- Once everything is selected, it stays so. -/
theorem selectsAll_of_apply {s : Step} (h : s.apply q = .ok r) (hall : q.selectsAll = true) :
    r.selectsAll = true := by
  cases s with
  | select columns =>
    exact select_invariant (P := fun q => q.selectsAll = true)
      (fun hone hall => selectsAll_selectOne hone (.inr hall)) h hall
  | _ => cases Step.makes h <;> exact hall

/-- A bare `*` selects everything. -/
theorem selectsAll_select {columns : List Column} (h : q.select columns = .ok r)
    (hbare : .name "*" ∈ columns) : r.selectsAll = true := by
  induction columns generalizing q with
  | nil => exact nomatch hbare
  | cons c rest ih =>
    obtain ⟨q', hone, hrest⟩ := select_cons_ok h
    rcases List.mem_cons.mp hbare with hfirst | hlater
    · exact select_invariant (P := fun q => q.selectsAll = true)
        (fun hone hall => selectsAll_selectOne hone (.inr hall)) hrest
        (selectsAll_selectOne hone (.inl hfirst.symm))
    · exact ih hrest hlater

theorem selectsAll_run {steps : List Step} {columns : List Column} (h : Step.run q steps = .ok r)
    (hcall : .select columns ∈ steps) (hbare : .name "*" ∈ columns) : r.selectsAll = true := by
  induction steps generalizing q with
  | nil => exact nomatch hcall
  | cons s rest ih =>
    obtain ⟨q', hs, hrest⟩ := Step.run_cons_ok h
    rcases List.mem_cons.mp hcall with rfl | hlater
    · exact Step.run_invariant (P := fun q => q.selectsAll = true) selectsAll_of_apply hrest
        (selectsAll_select hs hbare)
    · exact ih hrest hlater

/-! ## The theorem -/

/-- **A select list has no redundant columns.** Let calls on an empty statement succeed, none of
    which replaces a table: calls that select bare names, `*`, columns, stars and other terms, with
    calls in between that read from items, join them or do anything else.
    * No column in the select list has a source for which a star is in the list, and every source
      has at most one star there; all of it up to what makes sources belong together, which for
      tables is what they are called and for statements which of them they are.
    * If a bare `*` was selected, there is exactly one column or star in the list: the star that
      belongs to no source. -/
theorem irredundant_of_calls {identity : Identity} {dialect : Dialect} {steps : List Step}
    (hkeeps : ∀ current new, .replaceTable current new ∉ steps)
    (h : Step.run (.start identity dialect) steps = .ok q) :
    q.Irredundant ∧
      ∀ columns : List Column, .select columns ∈ steps → .name "*" ∈ columns →
        q.selects.filter Term.isColumn = [.star] := by
  have htidy : q.Tidy := tidy_run h hkeeps (tidy_start identity dialect)
  constructor
  · exact htidy.toIrredundant
  · intro columns hcall hbare
    exact htidy.everything (selectsAll_run h hcall hbare)

/-- Columns of two tables, a star for the first one when it has been joined with the second, and a
    further column of it. Then everything is selected, and a column once more. -/
theorem irredundant_of_calls_join :
    let t := Table.named 1 "t"
    let u := Table.named 2 "u"
    let x (table : Table) : Term := .column "x" (some (.table table))
    let steps : List Step :=
      [.readFrom (.table t), .select [.name "a", .term (x u)],
        .join (.table u) .inner (.on ((x t).compare .eq (x u)) none),
        .select [.term (.starOf (.table t))], .select [.term (x t), .term (.value (.int 1))]]
    let everything : List Step := [.select [.name "*"], .select [.term (x t)]]
    ∃ q r : Query, Step.run (.start 3 .generic) steps = .ok q ∧ q.Irredundant ∧
      q.sql = .ok "SELECT \"u\".\"x\",\"t\".*,1 FROM \"t\" JOIN \"u\" ON \"t\".\"x\"=\"u\".\"x\"" ∧
      Step.run (.start 3 .generic) (steps ++ everything) = .ok r ∧
      r.selects.filter Term.isColumn = [.star] := by
  intro t u x steps everything
  have hq : (Step.run (.start 3 .generic) steps).toOption.map Query.sql =
      some (.ok "SELECT \"u\".\"x\",\"t\".*,1 FROM \"t\" JOIN \"u\" ON \"t\".\"x\"=\"u\".\"x\"") := by
    decide +kernel
  have hr : (Step.run (.start 3 .generic) (steps ++ everything)).toOption.map
      (fun r => r.selects.length) = some 1 := by decide +kernel
  obtain ⟨q, hq, hsql⟩ := exists_ok_of_map hq
  obtain ⟨r, hr, -⟩ := exists_ok_of_map hr
  have hkeeps : ∀ current new, Step.replaceTable current new ∉ steps := by simp [steps]
  have hkeeps' : ∀ current new, Step.replaceTable current new ∉ steps ++ everything := by
    simp [steps, everything]
  obtain ⟨hirredundant, -⟩ := irredundant_of_calls hkeeps hq
  obtain ⟨-, heverything⟩ := irredundant_of_calls hkeeps' hr
  refine ⟨q, r, hq, hirredundant, hsql, hr, ?_⟩
  exact heverything [.name "*"] (by simp [steps, everything]) (by simp)

-- where one table is put in the place of another, the stars of both are stars for one source
example :
    let a := Table.named 1 "a"
    let b := Table.named 2 "b"
    let q : Query := { start 3 .generic with
      selects := [.starOf (.table a), .starOf (.table b)] }
    (q.replaceTable a b).selects = [.starOf (.table b), .starOf (.table b)] := rfl

end Query

end SqlCompose
