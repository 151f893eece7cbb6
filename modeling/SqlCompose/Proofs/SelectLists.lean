import SqlCompose.Function.Known
import SqlCompose.Proofs.Building
import SqlCompose.Proofs.WrittenLists

/-! # Select lists — what calls to select leave in the list

    Three parts of a statement remember what was selected: the list, a mark that everything is
    selected, and the sources all of whose columns are. Columns are left out or taken out where a
    star covers them. Other terms stay, with one exception: a bare `*` takes the place of the whole
    list, so what was selected before it is lost unless a star stands for it.

    * `Source.sameOption_trans`, `Source.sameOption_replaceTable` — belonging together is an
      equivalence, and kept when a table is replaced.
    * `Query.HasStar`, `Query.Covers` — a star for a source is in the list; a column is, or a star
      for it.
    * `Query.StarsListed`, `Query.Built.starsListed` — the stars that a statement remembers are in
      its list.
    * `Query.covers_selectOne`, `Query.expressions_selectOne` — what one argument of a call does to
      the list.
    * `Query.select_listed` — the theorem. -/

namespace SqlCompose

open Draft

/-! ## Sources that belong together -/

/-- Tables are the same if they agree in name, schema and alias. -/
theorem Table.same_iff {a b : Table} :
    a.same b = true ↔
      a.name = b.name ∧ a.schema = b.schema ∧ a.slot.aliasName = b.slot.aliasName := by
  simp only [same, Bool.and_eq_true, beq_iff_eq, and_assoc]

namespace Source

/-- Being the same is reflexive. -/
theorem same_refl : (a : Source) → a.same a = true
  | table _ => Table.same_iff.mpr ⟨rfl, rfl, rfl⟩
  | derived _ => beq_self_eq_true _
  | cte _ => beq_self_eq_true _

/-- It is symmetric. -/
theorem same_symm : {a b : Source} → a.same b = true → b.same a = true
  | table _, table _, h => by
    have hsame := Table.same_iff.mp h
    exact Table.same_iff.mpr ⟨hsame.1.symm, hsame.2.1.symm, hsame.2.2.symm⟩
  | derived _, derived _, h => beq_iff_eq.mpr (beq_iff_eq.mp h).symm
  | cte _, cte _, h => beq_iff_eq.mpr (beq_iff_eq.mp h).symm

/-- And it is transitive. -/
theorem same_trans : {a b c : Source} → a.same b = true → b.same c = true → a.same c = true
  | table _, table _, table _, hab, hbc => by
    have hab := Table.same_iff.mp hab
    have hbc := Table.same_iff.mp hbc
    exact Table.same_iff.mpr ⟨hab.1.trans hbc.1, hab.2.1.trans hbc.2.1, hab.2.2.trans hbc.2.2⟩
  | derived _, derived _, derived _, hab, hbc =>
    beq_iff_eq.mpr ((beq_iff_eq.mp hab).trans (beq_iff_eq.mp hbc))
  | cte _, cte _, cte _, hab, hbc =>
    beq_iff_eq.mpr ((beq_iff_eq.mp hab).trans (beq_iff_eq.mp hbc))

theorem sameOption_symm : {a b : Option Source} → sameOption a b = true → sameOption b a = true
  | none, none, _ => rfl
  | some _, some _, h => same_symm h

theorem sameOption_trans :
    {a b c : Option Source} → sameOption a b = true → sameOption b c = true →
      sameOption a c = true
  | none, none, none, _, _ => rfl
  | some _, some _, some _, hab, hbc => same_trans hab hbc

/-- What belongs together with no source is no source. -/
theorem eq_none_of_sameOption : {a : Option Source} → sameOption a none = true → a = none
  | none, _ => rfl

/-- Sources that belong together do so when a table is replaced in both. -/
theorem same_replaceTable (current new : Table) :
    {a b : Source} → a.same b = true →
      (a.replaceTable current new).same (b.replaceTable current new) = true
  | table s, table t, h => by
    have hst := Table.same_iff.mp h
    have hboth : s.same current = t.same current := by
      simp only [Table.same, hst.1, hst.2.1, hst.2.2]
    simp only [replaceTable, hboth]
    split
    · exact Table.same_iff.mpr ⟨rfl, rfl, rfl⟩
    · exact h
  | derived _, derived _, h => h
  | cte _, cte _, h => h

/-- Sources that are the same stay so when a table is replaced. -/
theorem sameOption_replaceTable (current new : Table) :
    {a b : Option Source} → sameOption a b = true →
      sameOption (a.map (replaceTable current new)) (b.map (replaceTable current new)) = true
  | none, none, _ => rfl
  | some _, some _, h => same_replaceTable current new h

end Source

/-! ## Stars that stand for columns -/

namespace Query

/-- A star for the source, or for everything, is in the select list. -/
def HasStar (source : Option Source) (q : Query) : Prop :=
  ∃ s ∈ q.selects, s.isStar = true ∧ (s.source? = none ∨ Source.sameOption s.source? source = true)

/-- The column is in the select list, or a star that stands for it. -/
def Covers (q : Query) (t : Term) : Prop := t ∈ q.selects ∨ q.HasStar t.source?

/-- The columns in the select list of one statement are covered in another. -/
def KeepsColumns (q r : Query) : Prop := ∀ s ∈ q.selects, s.isColumn = true → r.Covers s

/-- The stars that the statement remembers are in its select list. -/
structure StarsListed (q : Query) : Prop where
  all  : q.selectsAll = true → q.HasStar none
  each : ∀ source ∈ q.starred, q.HasStar source

variable {q r : Query} {source other : Option Source}

/-- A star for everything stands for every source. -/
theorem HasStar.of_none (h : q.HasStar none) (source : Option Source) : q.HasStar source := by
  obtain ⟨s, hs, hstar, hnone⟩ := h
  exact ⟨s, hs, hstar, .inl (hnone.elim id Source.eq_none_of_sameOption)⟩

/-- A star stands for all sources that belong together. -/
theorem HasStar.of_same (h : q.HasStar source) (hsame : Source.sameOption source other = true) :
    q.HasStar other := by
  obtain ⟨s, hs, hstar, hnone | hsource⟩ := h
  · exact ⟨s, hs, hstar, .inl hnone⟩
  · exact ⟨s, hs, hstar, .inr (Source.sameOption_trans hsource hsame)⟩

/-- A star in the list is kept, or another one stands for what it stood for. -/
theorem HasStar.of_kept (h : q.HasStar source) (hkept : q.KeepsColumns r) : r.HasStar source := by
  obtain ⟨s, hs, hstar, hsource⟩ := h
  rcases hkept s hs (Term.isColumn_of_isStar hstar) with hmem | hother
  · exact ⟨s, hmem, hstar, hsource⟩
  · rcases hsource with hnone | hsame
    · exact (hnone ▸ hother).of_none source
    · exact hother.of_same hsame

/-- What covers a column goes on to cover it as long as columns are kept. -/
theorem Covers.of_kept {t : Term} (h : q.Covers t) (ht : t.isColumn = true)
    (hkept : q.KeepsColumns r) : r.Covers t :=
  h.elim (fun hmem => hkept t hmem ht) fun hstar => .inr (hstar.of_kept hkept)

/-- Stars stay listed where columns are kept and no star is noted that is not in the list. -/
theorem StarsListed.of_kept (hq : q.StarsListed) (hkept : q.KeepsColumns r)
    (hall : r.selectsAll = true → q.selectsAll = true ∨ r.HasStar none)
    (hstarred : ∀ source ∈ r.starred, source ∈ q.starred ∨ r.HasStar source) : r.StarsListed where
  all h := (hall h).elim (fun hall => (hq.all hall).of_kept hkept) id
  each source h := (hstarred source h).elim (fun hmem => (hq.each source hmem).of_kept hkept) id

/-! ## One argument of a call -/

/-- A column or a star that is selected is covered by a star already, is a star to which the columns
    that it stands for give way, or is added. -/
theorem selectColumn_cases (q : Query) (t : Term) :
    ((q.selectsAll = true ∨ ∃ source ∈ q.starred, Source.sameOption source t.source? = true) ∧
        q.selectColumn t = q) ∨
      (t.isStar = true ∧
        q.selectColumn t =
          { q with
            selects := q.selects.filter
              (fun s => !(s.isColumn && Source.sameOption s.source? t.source?)) ++ [t]
            starred := q.starred ++ [t.source?] }) ∨
      q.selectColumn t = { q with selects := q.selects ++ [t] } := by
  simp only [selectColumn]
  split
  · next hcovered =>
    rw [Bool.or_eq_true, List.any_eq_true] at hcovered
    exact .inl ⟨hcovered, rfl⟩
  · split
    · next hstar => exact .inr (.inl ⟨hstar, rfl⟩)
    · exact .inr (.inr rfl)

/-- Terms that are added behind take no column away. -/
theorem keepsColumns_append (q : Query) (ts : List Term) :
    q.KeepsColumns { q with selects := q.selects ++ ts } :=
  fun _ hs _ => .inl (List.mem_append_left _ hs)

/-- Columns give way only to a star for their source. -/
theorem keepsColumns_selectColumn (q : Query) (t : Term) : q.KeepsColumns (q.selectColumn t) := by
  rcases q.selectColumn_cases t with ⟨-, heq⟩ | ⟨hstar, heq⟩ | heq <;> rw [heq]
  · exact fun s hs _ => .inl hs
  · intro s hs hcolumn
    cases hsame : Source.sameOption s.source? t.source? with
    | true =>
      have hlast : t ∈ q.selects.filter
          (fun s => !(s.isColumn && Source.sameOption s.source? t.source?)) ++ [t] :=
        List.mem_append_right _ (List.mem_singleton_self t)
      exact .inr ⟨t, hlast, hstar, .inr (Source.sameOption_symm hsame)⟩
    | false =>
      refine .inl (List.mem_append_left _ (List.mem_filter.mpr ⟨hs, ?_⟩))
      rw [hcolumn, hsame]
      rfl
  · exact q.keepsColumns_append [t]

/-- A column or a star that is selected is in the list, or a star that stands for it. -/
theorem covers_selectColumn (hq : q.StarsListed) (t : Term) : (q.selectColumn t).Covers t := by
  rcases q.selectColumn_cases t with ⟨hcovered, heq⟩ | ⟨-, heq⟩ | heq <;> rw [heq]
  · rcases hcovered with hall | ⟨source, hmem, hsame⟩
    · exact .inr ((hq.all hall).of_none _)
    · exact .inr ((hq.each source hmem).of_same hsame)
  · exact .inl (List.mem_append_right _ (List.mem_singleton_self t))
  · exact .inl (List.mem_append_right _ (List.mem_singleton_self t))

/-- Selecting a column notes a star only with the star in the list. -/
theorem starsListed_selectColumn (hq : q.StarsListed) (t : Term) :
    (q.selectColumn t).StarsListed := by
  have hkept := q.keepsColumns_selectColumn t
  rcases q.selectColumn_cases t with ⟨-, heq⟩ | ⟨hstar, heq⟩ | heq <;> rw [heq] at hkept ⊢
  · exact hq
  · refine hq.of_kept hkept .inl ?_
    intro source hsource
    rcases List.mem_append.mp hsource with hmem | hlast
    · exact .inl hmem
    · obtain rfl := List.mem_singleton.mp hlast
      refine .inr ⟨t, List.mem_append_right _ (List.mem_singleton_self t), hstar, ?_⟩
      cases t.source? with
      | none => exact .inl rfl
      | some s => exact .inr (Source.same_refl s)
  · exact hq.of_kept hkept .inl fun _ => .inl

/-- A bare `*` is all there is; other columns are selected as such, and other terms are added. -/
theorem selectOne_cases {c : Column} (h : q.selectOne c = .ok r) :
    (c = .name "*" ∧ r = { q with selectsAll := true, selects := [.star] }) ∨
      (c ≠ .name "*" ∧
        (((c.boundTo q.firstSource?).isColumn = true ∧
            r = q.selectColumn (c.boundTo q.firstSource?)) ∨
          ((c.boundTo q.firstSource?).isColumn = false ∧
            r = { q with selects := q.selects ++ [c.boundTo q.firstSource?] }))) := by
  -- a name is a star or a column, a term may be anything
  cases c with
  | name bare =>
    simp only [selectOne, selectName] at h
    split at h
    · cases h
    · next source hsource =>
      split at h
      · next hbare =>
        subst hbare
        exact .inl ⟨rfl, (Except.ok.inj h).symm⟩
      · next hbare =>
        refine .inr ⟨fun hc => hbare (Column.name.inj hc), .inl ⟨rfl, ?_⟩⟩
        rw [hsource]
        exact (Except.ok.inj h).symm
  | term t =>
    obtain rfl := Except.ok.inj h
    refine .inr ⟨Column.noConfusion, ?_⟩
    cases hcolumn : t.isColumn with
    | true => exact .inl ⟨hcolumn, if_pos rfl⟩
    | false => exact .inr ⟨hcolumn, if_neg Bool.false_ne_true⟩

/-- Selecting something takes no column away but those that its star stands for. -/
theorem keepsColumns_selectOne {c : Column} (h : q.selectOne c = .ok r) : q.KeepsColumns r := by
  rcases selectOne_cases h with ⟨-, rfl⟩ | ⟨-, ⟨-, rfl⟩ | ⟨-, rfl⟩⟩
  · exact fun s _ _ => .inr ⟨.star, List.mem_singleton_self _, rfl, .inl rfl⟩
  · exact q.keepsColumns_selectColumn _
  · exact q.keepsColumns_append _

/-- It notes a star only with the star in the list. -/
theorem starsListed_selectOne {c : Column} (h : q.selectOne c = .ok r) (hq : q.StarsListed) :
    r.StarsListed := by
  rcases selectOne_cases h with ⟨-, rfl⟩ | ⟨-, ⟨-, rfl⟩ | ⟨-, rfl⟩⟩
  · have hstar (source : Option Source) :
        ({ q with selectsAll := true, selects := [.star] } : Query).HasStar source :=
      ⟨.star, List.mem_singleton_self _, rfl, .inl rfl⟩
    exact ⟨fun _ => hstar none, fun source _ => hstar source⟩
  · exact starsListed_selectColumn hq _
  · exact hq.of_kept (q.keepsColumns_append _) .inl fun _ => .inl

/-- A column that is an argument of a call is in the list, or a star that stands for it. -/
theorem covers_selectOne {c : Column} (h : q.selectOne c = .ok r) (hq : q.StarsListed)
    (hcolumn : (c.boundTo q.firstSource?).isColumn = true) :
    r.Covers (c.boundTo q.firstSource?) := by
  rcases selectOne_cases h with ⟨-, rfl⟩ | ⟨-, ⟨-, rfl⟩ | ⟨hother, -⟩⟩
  · exact .inr ⟨.star, List.mem_singleton_self _, rfl, .inl rfl⟩
  · exact covers_selectColumn hq _
  · exact absurd (hcolumn.symm.trans hother) nofun

/-! ## Terms that are not columns -/

/-- The selected terms that are neither columns nor stars. -/
def expressions (q : Query) : List Term := q.selects.filter fun t => !t.isColumn

/-- A column is no expression. -/
theorem expressions_selectColumn (q : Query) {t : Term} (ht : t.isColumn = true) :
    (q.selectColumn t).expressions = q.expressions := by
  have hlast : [t].filter (fun t => !t.isColumn) = [] :=
    List.filter_eq_nil_iff.mpr fun s hs => by simp [List.mem_singleton.mp hs, ht]
  rcases q.selectColumn_cases t with ⟨-, heq⟩ | ⟨-, heq⟩ | heq <;> rw [heq]
  · show (_ ++ [t]).filter _ = _
    rw [List.filter_append, hlast, List.append_nil, List.filter_filter]
    refine List.filter_congr fun s _ => ?_
    -- what gives way to a star is a column, and would be left out anyway
    cases s.isColumn <;> rfl
  · show (_ ++ [t]).filter _ = _
    rw [List.filter_append, hlast, List.append_nil]
    rfl

/-- An argument of a call adds itself to the terms that are not columns, if it is none, unless it is
    a bare `*`. -/
theorem expressions_selectOne {c : Column} (h : q.selectOne c = .ok r) (hc : c ≠ .name "*") :
    r.expressions =
      q.expressions ++ [c.boundTo q.firstSource?].filter fun t => !t.isColumn := by
  rcases selectOne_cases h with ⟨hall, -⟩ | ⟨-, ⟨hcolumn, rfl⟩ | ⟨-, rfl⟩⟩
  · exact absurd hall hc
  · rw [q.expressions_selectColumn hcolumn, List.filter_cons_of_neg (by simp [hcolumn])]
    exact (List.append_nil _).symm
  · exact List.filter_append _ _

end Query

/-! ## Every statement -/

namespace Query

variable {q r : Query}

/-- A star stands for what it stood for when a table is replaced in both. -/
theorem HasStar.replaceTable {source : Option Source} (h : q.HasStar source)
    (current new : Table) :
    (q.replaceTable current new).HasStar (source.map (Source.replaceTable current new)) := by
  obtain ⟨s, hs, hstar, hsource⟩ := h
  refine ⟨s.replaceTable current new, List.mem_map_of_mem hs, ?_, ?_⟩
  · rw [Term.isStar_replaceTable]
    exact hstar
  · rw [Term.source?_replaceTable]
    rcases hsource with hnone | hsame
    · exact .inl (by rw [hnone]; rfl)
    · exact .inr (Source.sameOption_replaceTable current new hsame)

/-- Where a table is replaced, stars stay listed. -/
theorem StarsListed.replaceTable (hq : q.StarsListed) (current new : Table) :
    (q.replaceTable current new).StarsListed where
  all h := (hq.all h).replaceTable current new
  each source h := by
    obtain ⟨before, hmem, rfl⟩ := List.mem_map.mp h
    exact (hq.each before hmem).replaceTable current new

/-- No call notes a star without listing it. -/
theorem starsListed_of_apply {s : Step} (h : s.apply q = .ok r) (hq : q.StarsListed) :
    r.StarsListed := by
  cases s with
  | select columns => exact select_invariant starsListed_selectOne h hq
  | replaceTable current new =>
    obtain rfl := Except.ok.inj h
    exact hq.replaceTable current new
  | _ => cases Step.makes h <;> exact ⟨hq.1, hq.2⟩

/-- The stars that a statement remembers are in its select list. -/
theorem Built.starsListed (hq : q.Built) : q.StarsListed :=
  hq.invariant (fun _ _ => ⟨nofun, fun _ h => absurd h List.not_mem_nil⟩) starsListed_of_apply

/-! ## Calls to select -/

/-- Selecting something changes no source. -/
theorem firstSource?_of_selectOne {c : Column} (h : q.selectOne c = .ok r) :
    r.firstSource? = q.firstSource? := by
  obtain ⟨selects, all, starred, rfl⟩ := selectOne_eq h
  rfl

/-- Columns may be selected in two goes. -/
theorem select_append_ok {before after : List Column} (h : q.select (before ++ after) = .ok r) :
    ∃ q', q.select before = .ok q' ∧ q'.select after = .ok r := by
  induction before generalizing q with
  | nil => exact ⟨q, rfl, h⟩
  | cons c rest ih =>
    obtain ⟨q₁, hone, hrest⟩ := select_cons_ok h
    obtain ⟨q₂, hbefore, hafter⟩ := ih hrest
    refine ⟨q₂, ?_, hafter⟩
    show (q.selectOne c).bind (select rest) = .ok q₂
    rw [hone]
    exact hbefore

/-- Several calls to select are one call with the arguments of all. -/
theorem select_of_run {calls : List (List Column)} (h : Step.run q (calls.map .select) = .ok r) :
    q.select calls.flatten = .ok r := by
  induction calls generalizing q with
  | nil => exact h
  | cons columns rest ih =>
    obtain ⟨q', hcall, hrest⟩ := Step.run_cons_ok h
    have hcall : columns.foldlM selectOne q = .ok q' := hcall
    show (columns ++ rest.flatten).foldlM selectOne q = .ok r
    rw [List.foldlM_append, hcall]
    exact ih hrest

/-- What covers a column goes on to cover it whatever is selected. -/
theorem keepsColumns_select {columns : List Column} (h : q.select columns = .ok r) {t : Term}
    (ht : t.isColumn = true) (hcovers : q.Covers t) : r.Covers t :=
  select_invariant (P := fun q => q.Covers t)
    (fun hone hcovers => hcovers.of_kept ht (keepsColumns_selectOne hone)) h hcovers

/-- Every column among the arguments is in the list, or a star that stands for it. -/
theorem covers_select {columns : List Column} (h : q.select columns = .ok r) (hq : q.StarsListed) :
    ∀ c ∈ columns, (c.boundTo q.firstSource?).isColumn = true →
      r.Covers (c.boundTo q.firstSource?) := by
  induction columns generalizing q with
  | nil => exact fun c hc => absurd hc List.not_mem_nil
  | cons first rest ih =>
    obtain ⟨q', hone, hrest⟩ := select_cons_ok h
    intro c hc hcolumn
    rcases List.mem_cons.mp hc with rfl | hlater
    · exact keepsColumns_select hrest hcolumn (covers_selectOne hone hq hcolumn)
    · rw [← firstSource?_of_selectOne hone] at hcolumn ⊢
      exact ih hrest (starsListed_selectOne hone hq) c hlater hcolumn

/-- Without a bare `*`, the terms among the arguments that are not columns are added in order. -/
theorem expressions_select {columns : List Column} (h : q.select columns = .ok r)
    (hnone : ∀ c ∈ columns, c ≠ .name "*") :
    r.expressions = q.expressions ++
      (columns.map (Column.boundTo q.firstSource?)).filter fun t => !t.isColumn := by
  induction columns generalizing q with
  | nil =>
    obtain rfl := Except.ok.inj h
    exact (List.append_nil _).symm
  | cons c rest ih =>
    obtain ⟨q', hone, hrest⟩ := select_cons_ok h
    rw [ih hrest fun c hc => hnone c (List.mem_cons_of_mem _ hc),
      expressions_selectOne hone (hnone c List.mem_cons_self), firstSource?_of_selectOne hone,
      List.append_assoc, ← List.filter_append]
    rfl

/-- Behind the last bare `*` only what was selected after it is left of the terms that are not
    columns. -/
theorem expressions_select_star {before after : List Column}
    (h : q.select (before ++ .name "*" :: after) = .ok r) (hlast : ∀ c ∈ after, c ≠ .name "*") :
    r.expressions =
      (after.map (Column.boundTo q.firstSource?)).filter fun t => !t.isColumn := by
  obtain ⟨q₁, hbefore, hrest⟩ := select_append_ok h
  obtain ⟨q₂, hstar, hafter⟩ := select_cons_ok hrest
  have hfirst : q₂.firstSource? = q.firstSource? := by
    rw [firstSource?_of_selectOne hstar]
    obtain ⟨selects, all, starred, rfl⟩ := select_eq hbefore
    rfl
  have hempty : q₂.expressions = [] := by
    rcases selectOne_cases hstar with ⟨-, rfl⟩ | ⟨hne, -⟩
    · rfl
    · exact absurd rfl hne
  rw [expressions_select hafter hlast, hempty, hfirst, List.nil_append]

/-! ## The theorem -/

/-- **Nothing selected is lost but what a bare `*` takes the place of.** Let calls to select succeed
    on a statement.
    * Without a bare `*` among their arguments, the terms that are neither columns nor stars are
      added to those that were selected before, in the order of the calls; with one, exactly those
      are left that stand behind the last of them.
    * Every column and every star among the arguments, bare names included, is in the select list,
      or a star for the same source or for everything is.
    * Where the statement selects rows, what is written of it has the select list in it, with all
      terms in their order. -/
theorem select_listed (hq : q.Built) {calls : List (List Column)}
    (h : Step.run q (calls.map .select) = .ok r) :
    ((∀ c ∈ calls.flatten, c ≠ .name "*") →
      r.expressions = q.expressions ++
        (calls.flatten.map (Column.boundTo q.firstSource?)).filter fun t => !t.isColumn) ∧
    (∀ before after : List Column, calls.flatten = before ++ .name "*" :: after →
      (∀ c ∈ after, c ≠ .name "*") →
        r.expressions =
          (after.map (Column.boundTo q.firstSource?)).filter fun t => !t.isColumn) ∧
    (∀ c ∈ calls.flatten, (c.boundTo q.firstSource?).isColumn = true →
      r.Covers (c.boundTo q.firstSource?)) ∧
    (r.isSelection = true → r.deletes = false →
      ∀ (outer : Context) (p : Parameters) (ts : List Token),
        ((r.draft outer).finish p).1 = .ok ts → r.ShowsList outer ts) := by
  have hselect := select_of_run h
  refine ⟨expressions_select hselect, ?_, covers_select hselect hq.starsListed, ?_⟩
  · intro before after hcalls hlast
    exact expressions_select_star (hcalls ▸ hselect) hlast
  · exact fun hselection hdeletes _ p _ hfinish =>
      showsList_of_writes hselection hdeletes ⟨p, _, Prod.ext hfinish rfl⟩

/-- A number and a column, and a star for the table that the column is from. -/
theorem select_listed_star_of_table :
    let t := Table.named 1 "t"
    let one : Term := .value (.int 1)
    let all : Term := ⟨.star (some (.table t)), none⟩
    let q : Query := { start 2 .generic with sources := [.table t] }
    let calls : List (List Column) := [[.term one, .name "a"], [.term all]]
    let ctx := Context.ofDialect .generic
    ∃ r, Step.run q (calls.map .select) = .ok r ∧ r.expressions = [one] ∧
      r.Covers (.column "a" (some (.table t))) ∧
      ∃ ts, ((r.draft ctx).finish {}).1 = .ok ts ∧ Token.texts ctx ts = "SELECT 1,* FROM \"t\"" ∧
        r.ShowsList ctx ts := by
  intro t one all q calls ctx
  let r : Query := { q with selects := [one, all], starred := [some (.table t)] }
  have hbuilt : q.Built := ⟨2, .generic, [.readFrom (.table t)], rfl⟩
  have hrun : Step.run q (calls.map .select) = .ok r := rfl
  have htext : ((r.draft ctx).finish {}).1.toOption.map (Token.texts ctx) =
      some "SELECT 1,* FROM \"t\"" := by decide +kernel
  obtain ⟨ts, hts, htext⟩ := exists_ok_of_map htext
  obtain ⟨hexpressions, -, hcovers, hshown⟩ := select_listed hbuilt hrun
  refine ⟨r, hrun, ?_, ?_, ts, hts, htext, ?_⟩
  · exact hexpressions (by simp [calls])
  · exact hcovers (.name "a") (by simp [calls]) rfl
  · exact hshown rfl rfl ctx {} ts hts

/-- How many values there are, selected before everything, and after it. -/
theorem select_star_takes_place :
    let t := Table.named 1 "t"
    let count : Term := (Function.count (.field "x")).toTerm
    let q : Query := { start 2 .generic with sources := [.table t] }
    let r : Query := { q with selectsAll := true, selects := [.star] }
    let r' : Query := { r with selects := [.star, count] }
    Step.run q [.select [.term count], .select [.name "*"]] = .ok r ∧
      r.sql = .ok "SELECT * FROM \"t\"" ∧
      Step.run q [.select [.name "*"], .select [.term count]] = .ok r' ∧
      r'.sql = .ok "SELECT *,COUNT(\"x\") FROM \"t\"" := by
  exact ⟨rfl, by decide +kernel, rfl, by decide +kernel⟩

end Query

end SqlCompose
