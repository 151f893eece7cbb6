import SqlCompose.Proofs.ClauseLeaves
import SqlCompose.Proofs.ReboundSources
import SqlCompose.Proofs.Verbs

/-! # Returning without a target — what RETURNING takes where nothing is changed

    A statement that neither inserts nor updates nor deletes has no rows to return. Whether it has a
    target is looked at for two kinds of arguments only: bare names, and terms with columns that
    `Term.fieldSources` lists. All stars, constants, nested statements and terms whose columns stand
    in filters and windows are taken without a target, and once a star is taken all columns behind
    it are passed over without a look.

    * `Column.refusal?`, `refusals` — why an argument is refused without a target, and all refusals
      in a list of arguments.
    * `Query.returnOne_targetless`, `Query.returning_targetless` — one argument, and all of them.
    * `Step.returns_eq`, `Step.targetless_before` — few calls change what is returned, and no call
      takes a target away.
    * `Query.Returns`, `Step.returns_of_apply` — without a target, what is returned has no columns.
    * `Query.draft_eq_unreturned` — where a selection writes RETURNING.
    * `Step.returning_without_target` — the theorem. -/

namespace SqlCompose

open Draft

/-! ## Arguments -/

namespace Column

/-- Whether the argument is a star. -/
def isStar : Column → Bool
  | .name bare => bare == "*"
  | .term t => t.isStar

/-- The argument as it is returned, if it is neither a column nor a star. -/
def expression? : Column → Option Term
  | .name _ => none
  | .term t => if t.isColumn then none else some t

/-- Why a statement without a target refuses the argument, if it does. With a star in front of it, a
    column is not looked at. -/
def refusal? (starred : Bool) : Column → Option BuildError
  | .name bare => if bare = "*" then none else some .returningWithoutTarget
  | .term t =>
    if t.isColumn && starred then none
    else if t.isAggregate then some .returningAggregate
    else if t.fieldSources.isEmpty then none
    else some .returningWithoutTarget

end Column

/-- The refusals in a list of arguments. -/
def refusals (starred : Bool) : List Column → List BuildError
  | [] => []
  | c :: rest => (c.refusal? starred).toList ++ refusals (starred || c.isStar) rest

namespace Term

/-- A column or star is not the call of an aggregate. -/
theorem isAggregate_of_isColumn {t : Term} (h : t.isColumn = true) : t.isAggregate = false := by
  obtain ⟨expr, aliasName⟩ := t
  cases expr with
  | field | star => rfl
  | _ => exact nomatch h

/-- Of columns and stars, the stars are those that no source is listed for. -/
theorem isEmpty_fieldSources {t : Term} (h : t.isColumn = true) :
    t.fieldSources.isEmpty = t.isStar := by
  obtain ⟨expr, aliasName⟩ := t
  cases expr with
  | field | star => rfl
  | _ => exact nomatch h

/-! A term with a table replaced is of its kind, and lists sources where it did. -/

variable (current new : Table)

theorem isAggregate_replaceTable (t : Term) :
    (t.replaceTable current new).isAggregate = t.isAggregate := by
  obtain ⟨expr, aliasName⟩ := t
  cases expr with
  | call c => cases c; rfl
  | _ => rfl

theorem fieldSources_replaceTable_of_nil {t : Term} (h : t.fieldSources = []) :
    (t.replaceTable current new).fieldSources = [] := by
  rw [t.fieldSources_eq] at h
  rw [Term.fieldSources_eq, t.references_replaceTable current new, checkedSources_rebind, h]
  rfl

end Term

namespace Query

/-! ## Statements without a target -/

/-- A statement that inserts into nothing, updates nothing and does not delete. -/
structure Targetless (q : Query) : Prop where
  inserts : q.insertTable = none
  updates : q.updateTable = none
  deletes : q.deletes = false

/-- What is returned by a statement without a target: nothing in it has a column, nothing is an
    aggregate, and with all columns returned there is a star. -/
structure Returns (q : Query) : Prop where
  plain : ∀ t ∈ q.returns, t.fieldSources = [] ∧ t.isAggregate = false
  star  : q.returnsAll = true → ∃ t ∈ q.returns, t.isStar = true

section

variable {q : Query}

theorem checkReturned_targetless (hq : q.Targetless) (t : Term) :
    q.checkReturned t =
      if t.fieldSources.isEmpty then .ok () else .error .returningWithoutTarget := by
  simp only [checkReturned, hq.inserts, hq.updates, hq.deletes]
  rfl

/-- The statement with a returned argument that needs no target: a star takes the place of all
    columns, unless all are returned already. -/
def withReturned (q : Query) : Column → Query
  | .name _ => { q.returnAll with returns := q.returnAll.returns ++ [.star] }
  | .term t =>
    if t.isColumn then
      if q.returnsAll then q else { q.returnAll with returns := q.returnAll.returns ++ [t] }
    else { q with returns := q.returns ++ [t] }

/-- An argument is refused for its own reason or returned. -/
theorem returnOne_targetless (hq : q.Targetless) (c : Column) :
    q.returnOne c =
      match c.refusal? q.returnsAll with
      | some e => .error e
      | none => .ok (q.withReturned c) := by
  cases c with
  | name bare =>
    by_cases hstar : bare = "*"
    · simp only [returnOne, returnName, Column.refusal?, if_pos hstar, withReturned]
    · simp only [returnOne, returnName, Column.refusal?, if_neg hstar, targetSource?,
        insertSource?, hq.inserts, hq.updates, hq.deletes]
      rfl
  | term t =>
    cases hcolumn : t.isColumn with
    | true =>
      -- a column is looked at while no star is returned; if it passes, it is a star itself
      simp only [returnOne, returnColumn, Column.refusal?, withReturned, hcolumn, if_true,
        checkReturned_targetless hq, Term.isAggregate_of_isColumn hcolumn,
        Term.isEmpty_fieldSources hcolumn, Bool.true_and]
      cases q.returnsAll <;> cases t.isStar <;> rfl
    | false =>
      simp only [returnOne, Column.refusal?, withReturned, hcolumn, Bool.false_and,
        Bool.false_eq_true, if_false, checkReturned_targetless hq]
      cases t.isAggregate <;> cases t.fieldSources.isEmpty <;> rfl

theorem targetless_withReturned (hq : q.Targetless) (c : Column) :
    (q.withReturned c).Targetless := by
  cases c with
  | name bare => exact ⟨hq.inserts, hq.updates, hq.deletes⟩
  | term t =>
    simp only [withReturned]
    split
    · split <;> exact ⟨hq.inserts, hq.updates, hq.deletes⟩
    · exact ⟨hq.inserts, hq.updates, hq.deletes⟩

/-- All columns are returned once a star is. -/
theorem returnsAll_withReturned {c : Column} (hc : c.refusal? q.returnsAll = none) :
    (q.withReturned c).returnsAll = (q.returnsAll || c.isStar) := by
  cases c with
  | name bare =>
    by_cases hstar : bare = "*"
    · simp [withReturned, returnAll, Column.isStar, hstar]
    · simp [Column.refusal?, hstar] at hc
  | term t =>
    cases hcolumn : t.isColumn with
    | true =>
      simp only [Column.refusal?, hcolumn, Term.isAggregate_of_isColumn hcolumn,
        Term.isEmpty_fieldSources hcolumn, Bool.true_and] at hc
      simp only [withReturned, hcolumn, if_true, Column.isStar]
      cases hall : q.returnsAll with
      | true => simpa using hall
      | false =>
        cases hstar : t.isStar with
        | true => rfl
        | false => simp [hall, hstar] at hc
    | false =>
      have hstar : t.isStar = false := by
        by_contra hstar
        simp [Term.isColumn_of_isStar (by simpa using hstar)] at hcolumn
      simp [withReturned, hcolumn, Column.isStar, hstar]

/-- What is neither a column nor a star is kept, and added behind the others. -/
theorem expressions_withReturned (c : Column) :
    (q.withReturned c).returns.filter (!·.isColumn) =
      q.returns.filter (!·.isColumn) ++ c.expression?.toList := by
  cases c with
  | name bare => simp [withReturned, returnAll, Column.expression?, Term.star, Term.isColumn]
  | term t =>
    cases hcolumn : t.isColumn with
    | true =>
      simp only [withReturned, Column.expression?, hcolumn, if_true]
      split
      · simp
      · simp [returnAll, hcolumn]
    | false => simp [withReturned, Column.expression?, hcolumn]

/-- A star in place of all columns. -/
theorem Returns.star_behind (hq : q.Returns) {t : Term} (ht : t.isStar = true) :
    ({ q.returnAll with returns := q.returnAll.returns ++ [t] } : Query).Returns := by
  have hcolumn : t.isColumn = true := Term.isColumn_of_isStar ht
  refine ⟨?_, fun _ => ⟨t, List.mem_append_right _ (List.mem_singleton_self t), ht⟩⟩
  intro u hu
  rcases List.mem_append.mp hu with hold | hnew
  · exact hq.plain u (List.mem_of_mem_filter hold)
  · obtain rfl := List.mem_singleton.mp hnew
    have hsources : u.fieldSources.isEmpty = true := (Term.isEmpty_fieldSources hcolumn).trans ht
    exact ⟨List.isEmpty_iff.mp hsources, Term.isAggregate_of_isColumn hcolumn⟩

/-- A term without columns behind the others. -/
theorem Returns.term_behind (hq : q.Returns) {t : Term} (hsources : t.fieldSources = [])
    (haggregate : t.isAggregate = false) :
    ({ q with returns := q.returns ++ [t] } : Query).Returns := by
  refine ⟨?_, fun hall => ?_⟩
  · intro u hu
    rcases List.mem_append.mp hu with hold | hnew
    · exact hq.plain u hold
    · obtain rfl := List.mem_singleton.mp hnew
      exact ⟨hsources, haggregate⟩
  · obtain ⟨star, hmem, hstar⟩ := hq.star hall
    exact ⟨star, List.mem_append_left _ hmem, hstar⟩

/-- An argument that is not refused leaves nothing with a column returned, and something. -/
theorem Returns.withReturned (hq : q.Returns) {c : Column}
    (hc : c.refusal? q.returnsAll = none) :
    (q.withReturned c).Returns ∧ (q.withReturned c).returns ≠ [] := by
  cases c with
  | name bare => exact ⟨hq.star_behind rfl, List.append_ne_nil_of_right_ne_nil _ nofun⟩
  | term t =>
    simp only [Query.withReturned]
    cases hcolumn : t.isColumn with
    | true =>
      cases hall : q.returnsAll with
      | true =>
        obtain ⟨star, hmem, -⟩ := hq.star hall
        exact ⟨hq, List.ne_nil_of_mem hmem⟩
      | false =>
        have hstar : t.isStar = true := by
          simpa [Column.refusal?, hcolumn, hall, Term.isAggregate_of_isColumn hcolumn,
            Term.isEmpty_fieldSources hcolumn] using hc
        exact ⟨hq.star_behind hstar, List.append_ne_nil_of_right_ne_nil _ nofun⟩
    | false =>
      have hplain : t.fieldSources = [] ∧ t.isAggregate = false := by
        cases haggregate : t.isAggregate <;> simp_all [Column.refusal?]
      exact ⟨hq.term_behind hplain.1 hplain.2, List.append_ne_nil_of_right_ne_nil _ nofun⟩

/-! ## Lists of arguments -/

/-- Arguments are refused for the first reason that there is, or all returned. -/
theorem returning_targetless (hq : q.Targetless) (hdialect : q.dialect.hasReturning = true)
    (columns : List Column) :
    q.returning columns =
      match refusals q.returnsAll columns with
      | e :: _ => .error e
      | [] => .ok (columns.foldl withReturned q) := by
  simp only [returning, hdialect, if_true]
  clear hdialect
  induction columns generalizing q with
  | nil => rfl
  | cons c rest ih =>
    rw [List.foldlM_cons, returnOne_targetless hq]
    cases hc : c.refusal? q.returnsAll with
    | some e => simp only [refusals, hc]; rfl
    | none =>
      have hrest := ih (targetless_withReturned hq c)
      rw [returnsAll_withReturned hc] at hrest
      simp only [refusals, hc]
      exact hrest

/-- What a list of arguments leaves that is not refused. -/
theorem returned_targetless {columns : List Column}
    (hcolumns : refusals q.returnsAll columns = []) :
    (columns.foldl withReturned q).returnsAll = (q.returnsAll || columns.any Column.isStar) ∧
      (columns.foldl withReturned q).returns.filter (!·.isColumn) =
        q.returns.filter (!·.isColumn) ++ columns.filterMap Column.expression? ∧
      (q.Returns → (columns.foldl withReturned q).Returns ∧
        (q.returns ≠ [] ∨ columns ≠ [] → (columns.foldl withReturned q).returns ≠ [])) := by
  induction columns generalizing q with
  | nil => exact ⟨by simp, by simp, fun hq => ⟨hq, fun h => h.resolve_right (absurd rfl)⟩⟩
  | cons c rest ih =>
    obtain ⟨hc, hrest⟩ := List.append_eq_nil_iff.mp hcolumns
    have hc : c.refusal? q.returnsAll = none := Option.toList_eq_nil_iff.mp hc
    rw [← returnsAll_withReturned hc] at hrest
    obtain ⟨hall, hexpressions, hreturns⟩ := ih hrest
    refine ⟨?_, ?_, fun hq => ?_⟩
    · rw [List.foldl_cons, hall, returnsAll_withReturned hc, List.any_cons, Bool.or_assoc]
    · rw [List.foldl_cons, hexpressions, expressions_withReturned, List.append_assoc]
      cases hexpression : c.expression? <;> simp [hexpression]
    · obtain ⟨hnext, hsome⟩ := hq.withReturned hc
      exact ⟨(hreturns hnext).1, fun _ => (hreturns hnext).2 (.inl hsome)⟩

end

end Query

/-! ## Calls -/

namespace Step

/-- Whether the call may change what is returned. -/
def returns : Step → Bool
  | returning _ | replaceTable _ _ => true
  | _ => false

/-- Other calls keep what is returned. -/
theorem returns_eq {s : Step} {q r : Query} (h : s.apply q = .ok r) (hs : s.returns = false) :
    r.returns = q.returns ∧ r.returnsAll = q.returnsAll := by
  cases makes h with
  | returning | replaceTable => exact nomatch hs
  | _ => exact ⟨rfl, rfl⟩

/-- No call takes a target away. -/
theorem targetless_before {s : Step} {q r : Query} (h : s.apply q = .ok r) (hq : q.Listed)
    (hr : r.Targetless) : q.Targetless := by
  have hasked (v : Verb) (hv : ¬r.Asked v) : ¬q.Asked v :=
    fun hbefore => hv ((asked_iff h hq v).mpr (.inl hbefore))
  exact ⟨not_not.mp (hasked .into (not_not.mpr hr.inserts)),
    not_not.mp (hasked .update (not_not.mpr hr.updates)),
    Bool.not_eq_true _ ▸ hasked .delete (by simp [Query.Asked, hr.deletes])⟩

end Step

/-- Putting a table in the place of another one gives nothing a column. -/
theorem Query.Returns.replaceTable {current new : Table} {q : Query} (hq : q.Returns) :
    (q.replaceTable current new).Returns := by
  refine ⟨?_, fun hall => ?_⟩
  · intro t ht
    obtain ⟨u, hu, rfl⟩ := List.mem_map.mp ht
    obtain ⟨hsources, haggregate⟩ := hq.plain u hu
    exact ⟨u.fieldSources_replaceTable_of_nil current new hsources,
      (u.isAggregate_replaceTable current new).trans haggregate⟩
  · obtain ⟨star, hmem, hstar⟩ := hq.star hall
    exact ⟨_, List.mem_map_of_mem hmem, (star.isStar_replaceTable current new).trans hstar⟩

namespace Step

/-- Without a target after the call, nothing with a column is returned. -/
theorem returns_of_apply {s : Step} {q r : Query} (h : s.apply q = .ok r) (hlisted : q.Listed)
    (hq : q.Targetless → q.Returns) (hr : r.Targetless) : r.Returns := by
  have htarget : q.Targetless := targetless_before h hlisted hr
  have hreturns : q.Returns := hq htarget
  cases hs : s.returns with
  | false =>
    obtain ⟨hterms, hall⟩ := returns_eq h hs
    exact ⟨hterms ▸ hreturns.plain, hterms ▸ hall ▸ hreturns.star⟩
  | true =>
    cases s with
    | replaceTable current new =>
      obtain rfl := Except.ok.inj h
      exact hreturns.replaceTable
    | returning columns =>
      have h : q.returning columns = .ok r := h
      have hdialect : q.dialect.hasReturning = true := by
        cases hdialect : q.dialect.hasReturning with
        | true => rfl
        | false => simp [Query.returning, hdialect] at h
      rw [Query.returning_targetless htarget hdialect] at h
      cases hrefusals : refusals q.returnsAll columns with
      | cons e rest =>
        rw [hrefusals] at h
        cases h
      | nil =>
        rw [hrefusals] at h
        obtain rfl := Except.ok.inj h
        exact ((Query.returned_targetless hrefusals).2.2 hreturns).1
    | _ => cases hs

/-- What is returned by a statement that calls have made and left without a target. -/
theorem returns_run {identity : Identity} {dialect : Dialect} {steps : List Step} {q : Query}
    (h : run (.start identity dialect) steps = .ok q) (hq : q.Targetless) : q.Returns := by
  have hkept : q.Listed ∧ (q.Targetless → q.Returns) :=
    run_invariant (P := fun q => q.Listed ∧ (q.Targetless → q.Returns))
      (fun h hq => ⟨listed_of_apply h hq.1, returns_of_apply h hq.1 hq.2⟩) h
      ⟨Query.listed_start identity dialect, fun _ => ⟨nofun, nofun⟩⟩
  exact hkept.2 hq

end Step

/-! ## What is written -/

namespace Query

/-- Without a target, a statement that is written is written as a selection. -/
theorem isSelection_targetless {q : Query} (hq : q.Targetless) (hblank : q.isBlank = false) :
    q.isSelection = true := by
  simp [isSelection, hblank, hq.updates, inserts, hq.inserts]

/-- RETURNING and what a selection returns. -/
def returningDraft (outer : Context) (q : Query) : Draft :=
  clause [.returning] (commas (termDrafts
    { q.innerContext outer with declares := true, qualified := q.updateTable.isSome } q.returns))

/-- A selection that returns something is the one that returns nothing, with RETURNING behind it. -/
theorem draft_eq_unreturned {q : Query} (h : q.isSelection = true) (hsome : q.returns ≠ [])
    (outer : Context) :
    q.draft outer = ({ q with returns := [] } : Query).draft outer ++ q.returningDraft outer := by
  have hsilent : ({ q with returns := [] } : Query).isSelection = true := h
  have hinside : ({ q with returns := [] } : Query).inside outer = q.inside outer := by
    rw [inside, inside, parts_eq, parts_eq]
    rfl
  have hbehind : q.behind outer =
      ({ q with returns := [] } : Query).behind outer ++ q.returningDraft outer := by
    obtain ⟨t, rest, hterms⟩ := List.exists_cons_of_ne_nil hsome
    rw [behind, behind, parts_eq, parts_eq, returningDraft, hterms, append_assoc, append_assoc]
    rfl
  rw [draft_of_isSelection h, draft_of_isSelection hsilent, hinside, hbehind, append_assoc]

end Query

/-! ## The theorem -/

/-- A refusal does not depend on a star in front, unless it is that of a column. -/
theorem Column.refusal?_of_starred {c : Column} {e : BuildError} (h : c.refusal? true = some e)
    (starred : Bool) : c.refusal? starred = some e := by
  cases c with
  | name bare => exact h
  | term t =>
    cases hcolumn : t.isColumn with
    | true => simp [refusal?, hcolumn] at h
    | false => simpa [refusal?, hcolumn] using h

/-- An argument that is refused wherever it stands makes refusals. -/
theorem refusals_ne_nil {columns : List Column} {c : Column} {e : BuildError} (hc : c ∈ columns)
    (h : c.refusal? true = some e) (starred : Bool) : refusals starred columns ≠ [] := by
  induction columns generalizing starred with
  | nil => exact nomatch hc
  | cons c' rest ih =>
    rcases List.mem_cons.mp hc with rfl | hrest
    · simp [refusals, Column.refusal?_of_starred h starred]
    · exact List.append_ne_nil_of_right_ne_nil _ (ih hrest _)

namespace Step

/-- **What RETURNING takes without a target.** Let calls succeed on an empty statement and leave it
    without an insert table, an update table and a deletion.
    * Whatever is returned has no column that is looked for and is no aggregate.
    * Where the dialect has RETURNING, a list of arguments is refused for its first refusal. Bare
      names other than `*`, aggregates and expressions over columns are refused wherever they stand,
      columns where no star stands before them.
    * Where nothing is refused, all stars, constants, nested statements and the like are taken; what
      is neither a column nor a star is returned, in its order; and if there was any argument,
      something is returned.
    * Where something is returned, the statement is written with RETURNING behind it, a selection as
      it is. -/
theorem returning_without_target {identity : Identity} {dialect : Dialect} {steps : List Step}
    {q : Query} (h : run (.start identity dialect) steps = .ok q) (htarget : q.Targetless) :
    q.Returns ∧
      (q.dialect.hasReturning = true → ∀ columns : List Column,
        (∀ e rest, refusals q.returnsAll columns = e :: rest → q.returning columns = .error e) ∧
        (∀ c ∈ columns, c.refusal? true ≠ none → ∃ e, q.returning columns = .error e) ∧
        (refusals q.returnsAll columns = [] → ∃ returns : List Term,
          q.returning columns = .ok { q with
            returns := returns, returnsAll := q.returnsAll || columns.any Column.isStar } ∧
          returns.filter (!·.isColumn) =
            q.returns.filter (!·.isColumn) ++ columns.filterMap Column.expression? ∧
          (columns ≠ [] → returns ≠ []))) ∧
      (q.isBlank = false → q.returns ≠ [] → ∀ outer : Context,
        q.draft outer = ({ q with returns := [] } : Query).draft outer ++
          q.returningDraft outer) := by
  have hreturns : q.Returns := returns_run h htarget
  refine ⟨hreturns, ?_, ?_⟩
  · intro hdialect columns
    have htaken := Query.returning_targetless htarget hdialect columns
    have hrefused (e : BuildError) (rest : List BuildError)
        (hrefusals : refusals q.returnsAll columns = e :: rest) :
        q.returning columns = .error e := by
      rw [htaken, hrefusals]
    refine ⟨hrefused, ?_, ?_⟩
    · intro c hc hsome
      obtain ⟨e, he⟩ := Option.ne_none_iff_exists'.mp hsome
      obtain ⟨first, rest, hrefusals⟩ :=
        List.exists_cons_of_ne_nil (refusals_ne_nil hc he q.returnsAll)
      exact ⟨first, hrefused first rest hrefusals⟩
    · intro hrefusals
      rw [hrefusals] at htaken
      obtain ⟨returns, all, hresult⟩ := Query.returning_eq htaken
      obtain ⟨hall, hexpressions, hkept⟩ := Query.returned_targetless hrefusals
      rw [hresult] at hall hexpressions hkept htaken
      refine ⟨returns, ?_, hexpressions, fun hcolumns => (hkept hreturns).2 (.inr hcolumns)⟩
      rw [htaken]
      exact congrArg (fun all => Except.ok { q with returns := returns, returnsAll := all }) hall
  · intro hblank hsome outer
    exact Query.draft_eq_unreturned (Query.isSelection_targetless htarget hblank) hsome outer

/-- A SELECT with a constant in RETURNING takes a star, a column behind the star and no other. -/
theorem returning_without_target_constant :
    let t := Table.named 1 "t"
    let one : Term := .value (.int 1)
    let a : Column := .term (.column "a" (some (.table t)))
    let steps : List Step :=
      [.readFrom (.table t), .select [.name "a"], .returning [.term one]]
    ∃ q, run (.start 2 .postgres) steps = .ok q ∧ q.Targetless ∧ q.returns = [one] ∧
      q.returning [.term one, a] = .error .returningWithoutTarget ∧
      (∃ returns, q.returning [.name "*", a] =
          .ok { q with returns := returns, returnsAll := true } ∧
        returns.filter (!·.isColumn) = [one]) ∧
      ∀ outer, q.draft outer =
        ({ q with returns := [] } : Query).draft outer ++ q.returningDraft outer := by
  intro t one a steps
  obtain ⟨q, hrun, htarget, hreturned, hall⟩ : ∃ q, run (.start 2 .postgres) steps = .ok q ∧
      q.Targetless ∧ q.returns = [one] ∧ q.returnsAll = false ∧
      q.dialect.hasReturning = true ∧ q.isBlank = false :=
    ⟨_, rfl, ⟨rfl, rfl, rfl⟩, rfl, rfl, rfl, rfl⟩
  obtain ⟨hall, hdialect, hblank⟩ := hall
  obtain ⟨-, hlists, hwritten⟩ := returning_without_target hrun htarget
  obtain ⟨hrefused, -, -⟩ := hlists hdialect [.term one, a]
  obtain ⟨-, -, htaken⟩ := hlists hdialect [.name "*", a]
  obtain ⟨returns, hreturning, hexpressions, -⟩ := htaken (by rw [hall]; rfl)
  refine ⟨q, hrun, htarget, hreturned, hrefused _ [] (by rw [hall]; rfl), ⟨returns, ?_, ?_⟩, ?_⟩
  · rw [hreturning, hall]
    rfl
  · rw [hexpressions, hreturned]
    rfl
  · exact hwritten hblank (hreturned ▸ List.cons_ne_nil one [])

/-- SELECTs with RETURNING: of a star, of a constant, and of a column behind the star of a table,
    which goes without a word. -/
theorem returning_from_select :
    let t := Table.named 1 "t"
    let returned (columns : List Column) : Except BuildError String :=
      (run (.start 2 .postgres) [.readFrom (.table t), .select [.name "a"],
        .returning columns]).bind Query.sql
    returned [.name "*"] = .ok "SELECT \"a\" FROM \"t\" RETURNING *" ∧
      returned [.term (.value (.int 1))] = .ok "SELECT \"a\" FROM \"t\" RETURNING 1" ∧
      returned [.term (.starOf (.table t)), .term (.column "a" (some (.table t)))] =
        .ok "SELECT \"a\" FROM \"t\" RETURNING *" := by
  decide +kernel

end Step

end SqlCompose
