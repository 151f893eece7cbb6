import Mathlib.Data.List.Pairwise
import SqlCompose.Proofs.Building

/-! # Verbs — what a statement is asked to do

    A statement selects, updates, deletes or inserts. Nothing says which; it is read off an insert
    table, an updated table, a mark for deletion and the select list, and a call that asks for a
    verb looks at these before it is taken. Only a call to select does not look: it is taken by a
    statement that updates or deletes already.

    * `Verb`, `Query.Asked`, `Step.verb?` — what a statement is asked to do, and by which call.
    * `Query.Listed`, `Query.Exclusive` — with all there is or a star selected, the select list is
      not empty; and of the verbs other than selecting, one at most is asked for.
    * `Step.asked_iff`, `Step.asked_run` — a statement is asked for what its calls ask for.
    * `Step.refused` — a verb that does not go with one before it is refused.
    * `Step.run_pairwise` — the verbs of calls that succeed go together.
    * `Step.exclusive_run` — of the verbs other than selecting, calls ask for one at most.
    * `Step.verbs_exclusive` — the theorem. -/

namespace SqlCompose

/-! ## Verbs -/

/-- What a statement can be asked to do. -/
inductive Verb
  | select | update | delete | into
deriving DecidableEq

namespace Verb

/-- The verb as errors name it. -/
def name : Verb → String
  | select => "select"
  | update => "update"
  | delete => "delete"
  | into => "into"

/-- Whether a statement that is asked for the first verb takes the second one. Rows can be selected
    for whatever was asked before, and selected rows can go into a table. -/
def Takes (first second : Verb) : Prop := second = select ∨ (first = select ∧ second = into)

end Verb

/-- The verb that a call asks for. A call to select nothing asks for none. -/
def Step.verb? : Step → Option Verb
  | .select columns => if columns.isEmpty then none else some .select
  | .into _ | .selectInto _ => some .into
  | .update _ => some .update
  | .delete => some .delete
  | _ => none

namespace Query

/-- Whether the statement is asked for a verb. -/
def Asked (q : Query) : Verb → Prop
  | .select => q.selects ≠ []
  | .update => q.updateTable ≠ none
  | .delete => q.deletes = true
  | .into => q.insertTable ≠ none

/-- With all there is or a star selected, the select list is not empty. -/
def Listed (q : Query) : Prop := q.selectsAll = true ∨ q.starred ≠ [] → q.selects ≠ []

/-- Of the verbs other than selecting, the statement is asked for one at most. -/
def Exclusive (q : Query) : Prop :=
  ∀ first second, first ≠ .select → second ≠ .select → q.Asked first → q.Asked second →
    first = second

theorem listed_start (identity : Identity) (dialect : Dialect) :
    (Query.start identity dialect).Listed :=
  fun h => h.elim nofun (absurd rfl)

theorem not_asked_start (identity : Identity) (dialect : Dialect) (v : Verb) :
    ¬(Query.start identity dialect).Asked v := by
  cases v with
  | delete => exact nofun
  | _ => exact absurd rfl

/-- The table inserted into, the table updated and the deletion of a statement exclude each other
    where the verbs do. -/
theorem one_change {q : Query} (hq : q.Exclusive) :
    [q.insertTable.isSome, q.updateTable.isSome, q.deletes].count true ≤ 1 := by
  have hapart (first second : Verb) (hfirst : first ≠ .select) (hsecond : second ≠ .select)
      (hne : first ≠ second) (hasked : q.Asked first) : ¬q.Asked second :=
    fun hasked' => hne (hq first second hfirst hsecond hasked hasked')
  have hupdated := hapart .into .update nofun nofun nofun
  have hdeleted := hapart .into .delete nofun nofun nofun
  have hboth := hapart .update .delete nofun nofun nofun
  simp only [Asked] at hupdated hdeleted hboth
  cases hinsert : q.insertTable <;> cases hupdate : q.updateTable <;> cases hdelete : q.deletes <;>
    simp_all

/-! ## The select list -/

/-- A column that is not added is covered by a star, so something is selected. -/
theorem selects_ne_nil_of_selectColumn (t : Term) {q : Query} (hq : q.Listed) :
    (q.selectColumn t).selects ≠ [] := by
  simp only [selectColumn]
  split
  · next hcovered =>
    refine hq ?_
    rcases Bool.or_eq_true _ _ ▸ hcovered with hall | hstar
    · exact .inl hall
    · obtain ⟨source, hmem, -⟩ := List.any_eq_true.mp hstar
      exact .inr (List.ne_nil_of_mem hmem)
  · split <;> simp

theorem selects_ne_nil_of_selectOne {q r : Query} {c : Column} (h : q.selectOne c = .ok r)
    (hq : q.Listed) : r.selects ≠ [] := by
  cases c with
  | name bare =>
    simp only [selectOne, selectName] at h
    split at h
    · cases h
    · split at h
      · obtain rfl := Except.ok.inj h
        exact List.cons_ne_nil _ _
      · obtain rfl := Except.ok.inj h
        exact selects_ne_nil_of_selectColumn _ hq
  | term t =>
    obtain rfl := Except.ok.inj h
    split
    · exact selects_ne_nil_of_selectColumn t hq
    · simp

/-- A call to select something leaves something selected. -/
theorem selects_ne_nil_of_select {q r : Query} {columns : List Column}
    (h : q.select columns = .ok r) (hq : q.Listed) (hcolumns : columns ≠ []) : r.selects ≠ [] := by
  cases columns with
  | nil => exact absurd rfl hcolumns
  | cons c rest =>
    obtain ⟨q', hone, hrest⟩ := select_cons_ok h
    exact select_invariant (P := fun q => q.selects ≠ [])
      (fun h hq => selects_ne_nil_of_selectOne h fun _ => hq) hrest
      (selects_ne_nil_of_selectOne hone hq)

/-- A call to select is taken by every statement that reads something. -/
theorem select_ok {q : Query} (hsources : q.sources ≠ []) (columns : List Column) :
    ∃ r, q.select columns = .ok r := by
  induction columns generalizing q with
  | nil => exact ⟨q, rfl⟩
  | cons c rest ih =>
    -- a name needs a source, and the sources are there after each call
    have hone : ∃ q', q.selectOne c = .ok q' := by
      cases c with
      | term t => exact ⟨_, rfl⟩
      | name bare =>
        obtain ⟨item, items, hitems⟩ := List.exists_cons_of_ne_nil hsources
        have hfirst : q.firstSource? = some item.source := by rw [firstSource?, hitems]; rfl
        simp only [selectOne, selectName, hfirst]
        split
        · exact ⟨_, rfl⟩
        · exact ⟨_, rfl⟩
    obtain ⟨q', hone⟩ := hone
    have hsources' : q'.sources ≠ [] := by
      obtain ⟨selects, all, starred, rfl⟩ := selectOne_eq hone
      exact hsources
    obtain ⟨r, hr⟩ := ih hsources'
    refine ⟨r, ?_⟩
    show (q.selectOne c).bind (select rest) = .ok r
    rw [hone]
    exact hr

/-- Selecting nothing changes nothing. -/
theorem eq_of_select_nil {q r : Query} (h : q.select [] = .ok r) : r = q := (Except.ok.inj h).symm

/-! ## Another table -/

theorem asked_replaceTable (current new : Table) (q : Query) (v : Verb) :
    (q.replaceTable current new).Asked v ↔ q.Asked v := by
  cases v with
  | select => exact not_congr List.map_eq_nil_iff
  | update => exact not_congr Option.map_eq_none_iff
  | delete => exact Iff.rfl
  | into => exact not_congr Option.map_eq_none_iff

theorem listed_replaceTable (current new : Table) {q : Query} (hq : q.Listed) :
    (q.replaceTable current new).Listed := by
  intro h
  refine (asked_replaceTable current new q .select).mpr (hq ?_)
  exact h.imp_right fun hstarred hnil => hstarred (List.map_eq_nil_iff.mpr hnil)

end Query

/-! ## What calls ask for -/

namespace Step

/-- Every call leaves the select list filled where all there is or a star is selected. -/
theorem listed_of_apply {s : Step} {q r : Query} (h : s.apply q = .ok r) (hq : q.Listed) :
    r.Listed := by
  cases s with
  | replaceTable current new =>
    obtain rfl := Except.ok.inj h
    exact Query.listed_replaceTable current new hq
  | select columns =>
    cases columns with
    | nil => exact Query.eq_of_select_nil h ▸ hq
    | cons c rest => exact fun _ => Query.selects_ne_nil_of_select h hq (List.cons_ne_nil c rest)
  | _ => cases makes h <;> exact hq

/-- A call to select asks for the selection alone. -/
theorem asked_iff_of_select {columns : List Column} {q r : Query} (h : q.select columns = .ok r)
    (hq : q.Listed) (v : Verb) :
    r.Asked v ↔ q.Asked v ∨ (Step.select columns).verb? = some v := by
  cases columns with
  | nil =>
    rw [Query.eq_of_select_nil h]
    exact (or_iff_left nofun).symm
  | cons c rest =>
    have hselects : r.selects ≠ [] :=
      Query.selects_ne_nil_of_select h hq (List.cons_ne_nil c rest)
    cases v with
    | select => exact iff_of_true hselects (.inr rfl)
    | _ =>
      obtain ⟨selects, all, starred, rfl⟩ := Query.select_eq h
      exact (or_iff_left nofun).symm

/-- A statement is asked for what it was asked for before and for what the call asks for. -/
theorem asked_iff {s : Step} {q r : Query} (h : s.apply q = .ok r) (hq : q.Listed) (v : Verb) :
    r.Asked v ↔ q.Asked v ∨ s.verb? = some v := by
  cases makes h with
  | select => exact asked_iff_of_select h hq v
  | replaceTable => exact (Query.asked_replaceTable _ _ q v).trans (or_iff_left nofun).symm
  | into hnone => cases v <;> simp [Query.Asked, verb?, hnone.1]
  | selectInto hnone => cases v <;> simp [Query.Asked, verb?, hnone]
  | update | delete => cases v <;> simp [Query.Asked, verb?]
  | _ => exact (or_iff_left nofun).symm

/-- A list of calls asks for what each of them asks for. -/
theorem asked_run {steps : List Step} {q r : Query} (h : run q steps = .ok r) (hq : q.Listed)
    (v : Verb) : r.Asked v ↔ q.Asked v ∨ ∃ s ∈ steps, s.verb? = some v := by
  induction steps generalizing q with
  | nil =>
    obtain rfl : q = r := Except.ok.inj h
    simp
  | cons s rest ih =>
    obtain ⟨q', hs, hrest⟩ := run_cons_ok h
    rw [ih hrest (listed_of_apply hs hq), asked_iff hs hq, or_assoc]
    simp only [List.mem_cons, or_and_right, exists_or, exists_eq_left]

/-! ## What calls refuse -/

/-- A verb that does not go with one that was asked for is refused, by its name. -/
theorem refused {s : Step} {q : Query} {first second : Verb} (hfirst : q.Asked first)
    (hs : s.verb? = some second) (htakes : ¬first.Takes second) :
    s.apply q = .error (.lacksPart second.name) := by
  have hverb : q.hasVerb = true := by
    cases first <;>
      simp_all [Query.Asked, Query.hasVerb, Option.isSome_iff_ne_none]
  -- INTO goes with SELECT alone
  have hinto (hother : first ≠ .select) (t : Table) : q.into t = .error (.lacksPart "into") := by
    refine if_pos ?_
    cases first <;> simp_all [Query.Asked, Option.isSome_iff_ne_none]
  cases s with
  | select columns =>
    have hselect : second = .select := by
      cases columns with
      | nil => cases hs
      | cons c rest => exact (Option.some.inj hs).symm
    exact absurd (.inl hselect) htakes
  | into t =>
    obtain rfl := Option.some.inj hs
    exact hinto (fun hselect => htakes (.inr ⟨hselect, rfl⟩)) t
  | selectInto t =>
    obtain rfl := Option.some.inj hs
    show (q.into t).map _ = _
    rw [hinto (fun hselect => htakes (.inr ⟨hselect, rfl⟩)) t]
    rfl
  | update t =>
    obtain rfl := Option.some.inj hs
    exact if_pos hverb
  | delete =>
    obtain rfl := Option.some.inj hs
    exact if_pos hverb
  | _ => cases hs

/-- A verb that succeeds goes with what was asked for before. -/
theorem takes_of_apply {s : Step} {q r : Query} {first second : Verb} (h : s.apply q = .ok r)
    (hfirst : q.Asked first) (hs : s.verb? = some second) : first.Takes second := by
  refine Classical.byContradiction fun htakes => ?_
  rw [refused hfirst hs htakes] at h
  exact nomatch h

/-- All verbs of calls that succeed go with what was asked for before them. -/
theorem takes_of_run {steps : List Step} {q r : Query} {first second : Verb}
    (h : run q steps = .ok r) (hq : q.Listed) (hfirst : q.Asked first) {s : Step}
    (hmem : s ∈ steps) (hs : s.verb? = some second) : first.Takes second := by
  induction steps generalizing q with
  | nil => exact nomatch hmem
  | cons s' rest ih =>
    obtain ⟨q', hs', hrest⟩ := run_cons_ok h
    rcases List.mem_cons.mp hmem with rfl | hlater
    · exact takes_of_apply hs' hfirst hs
    · exact ih hrest (listed_of_apply hs' hq) ((asked_iff hs' hq first).mpr (.inl hfirst)) hlater

/-- Of calls that succeed, each takes the verbs of those before it. -/
theorem run_pairwise {steps : List Step} {q r : Query} (h : run q steps = .ok r) (hq : q.Listed) :
    steps.Pairwise fun s s' => ∀ first second, s.verb? = some first → s'.verb? = some second →
      first.Takes second := by
  induction steps generalizing q with
  | nil => exact .nil
  | cons s rest ih =>
    obtain ⟨q', hs, hrest⟩ := run_cons_ok h
    have hlisted : q'.Listed := listed_of_apply hs hq
    refine .cons ?_ (ih hrest hlisted)
    intro s' hmem first second hfirst hsecond
    exact takes_of_run hrest hlisted ((asked_iff hs hq first).mpr (.inr hfirst)) hmem hsecond

/-! ## The theorem -/

/-- Where no call to select stands behind one to update or to delete, a statement that updates or
    deletes selects nothing. -/
theorem selects_eq_nil {steps : List Step} {q r : Query} (h : run q steps = .ok r) (hq : q.Listed)
    (hnone : ∀ v, ¬q.Asked v) {v : Verb} (hchange : v = .update ∨ v = .delete) (hasked : r.Asked v)
    (hlast : steps.Pairwise fun s s' => s.verb? = some v → s'.verb? ≠ some .select) :
    r.selects = [] := by
  have hself (s : Step) : ¬(s.verb? = some v ∧ s.verb? = some .select) := by
    rintro ⟨hs, hs'⟩
    obtain rfl := Option.some.inj (hs.symm.trans hs')
    exact hchange.elim nofun nofun
  have hbefore : steps.Pairwise fun s s' => ¬(s'.verb? = some v ∧ s.verb? = some .select) := by
    refine (run_pairwise h hq).imp ?_
    rintro s s' htakes ⟨hs', hs⟩
    rcases htakes .select v hs hs' with rfl | ⟨-, rfl⟩ <;> exact hchange.elim nofun nofun
  have hbehind : steps.Pairwise fun s s' => ¬(s.verb? = some v ∧ s'.verb? = some .select) :=
    hlast.imp fun hlast hboth => hlast hboth.1 hboth.2
  have hapart : ∀ s ∈ steps, ∀ s' ∈ steps, ¬(s.verb? = some v ∧ s'.verb? = some .select) :=
    hbehind.forall_of_forall_of_flip (fun s _ => hself s) hbefore
  obtain ⟨s, hmem, hs⟩ := ((asked_run h hq v).mp hasked).resolve_left (hnone v)
  refine Classical.byContradiction fun hselects => ?_
  obtain ⟨s', hmem', hs'⟩ := ((asked_run h hq .select).mp hselects).resolve_left (hnone .select)
  exact hapart s hmem s' hmem' ⟨hs, hs'⟩

/-- A call keeps what is asked for apart. -/
theorem exclusive_of_apply {s : Step} {q r : Query} (h : s.apply q = .ok r) (hlisted : q.Listed)
    (hq : q.Exclusive) : r.Exclusive := by
  intro first second hfirst hsecond hasked hasked'
  have hrefused {before asked : Verb} (hbefore : before ≠ .select) (hlater : asked ≠ .select)
      (hq : q.Asked before) (hs : s.verb? = some asked) : before = asked :=
    (takes_of_apply h hq hs).elim (absurd · hlater) fun htakes => absurd htakes.1 hbefore
  rcases (asked_iff h hlisted first).mp hasked with hq₁ | hs₁ <;>
    rcases (asked_iff h hlisted second).mp hasked' with hq₂ | hs₂
  · exact hq first second hfirst hsecond hq₁ hq₂
  · exact hrefused hfirst hsecond hq₁ hs₂
  · exact (hrefused hsecond hfirst hq₂ hs₁).symm
  · exact Option.some.inj (hs₁.symm.trans hs₂)

/-- Calls on an empty statement keep what is asked for apart. -/
theorem exclusive_run {identity : Identity} {dialect : Dialect} {steps : List Step} {q : Query}
    (h : run (.start identity dialect) steps = .ok q) : q.Exclusive := by
  have hnone := Query.not_asked_start identity dialect
  have hkept : q.Listed ∧ q.Exclusive :=
    run_invariant (P := fun q => q.Listed ∧ q.Exclusive)
      (fun h hq => ⟨listed_of_apply h hq.1, exclusive_of_apply h hq.1 hq.2⟩) h
      ⟨Query.listed_start identity dialect, fun first _ _ _ hasked => absurd hasked (hnone first)⟩
  exact hkept.2

/-- **Verbs exclude each other, but rows are selected for all of them.** Of the table inserted into,
    the table updated and the deletion, a statement has one at most. Once a call has asked for a
    verb, every call is refused that asks for one that does not go with it; this is so for any two
    verbs in either order, except that selected rows can go into a table and that a call to select
    is taken after every verb, also after one to update or to delete. Where no call to select stands
    behind those, a statement that updates or deletes selects nothing. -/
theorem verbs_exclusive {identity : Identity} {dialect : Dialect} {steps : List Step} {q : Query}
    (h : run (.start identity dialect) steps = .ok q) :
    [q.insertTable.isSome, q.updateTable.isSome, q.deletes].count true ≤ 1 ∧
      (∀ s ∈ steps, ∀ first, s.verb? = some first → ∀ (s' : Step) (second : Verb),
        s'.verb? = some second → ¬first.Takes second →
          s'.apply q = .error (.lacksPart second.name)) ∧
      (q.sources ≠ [] → ∀ columns, ∃ r, (Step.select columns).apply q = .ok r) ∧
      (∀ v, v = .update ∨ v = .delete → q.Asked v →
        (steps.Pairwise fun s s' => s.verb? = some v → s'.verb? ≠ some .select) →
          q.selects = []) := by
  have hlisted := Query.listed_start identity dialect
  have hnone := Query.not_asked_start identity dialect
  have hkept : q.Listed ∧ q.Exclusive :=
    run_invariant (P := fun q => q.Listed ∧ q.Exclusive)
      (fun h hq => ⟨listed_of_apply h hq.1, exclusive_of_apply h hq.1 hq.2⟩) h
      ⟨hlisted, fun first _ _ _ hasked => absurd hasked (hnone first)⟩
  refine ⟨Query.one_change hkept.2, ?_, Query.select_ok, ?_⟩
  · intro s hmem first hfirst s' second hsecond htakes
    exact refused ((asked_run h hlisted first).mpr (.inr ⟨s, hmem, hfirst⟩)) hsecond htakes
  · intro v hchange hasked hlast
    exact selects_eq_nil h hlisted hnone hchange hasked hlast

/-- An updated table: neither deleting from it nor inserting is taken. -/
theorem verbs_exclusive_update :
    let t := Table.named 1 "t"
    ∃ q, run (.start 2 .generic) [.update t] = .ok q ∧ q.selects = [] ∧
      delete.apply q = .error (.lacksPart "delete") ∧
      (into t).apply q = .error (.lacksPart "into") := by
  intro t
  have h : run (.start 2 .generic) [.update t] =
      .ok { Query.start 2 .generic with updateTable := some t } := rfl
  obtain ⟨-, hrefused, -, hselects⟩ := verbs_exclusive h
  refine ⟨_, h, hselects .update (.inl rfl) nofun (List.pairwise_singleton _ _), ?_, ?_⟩
  · exact hrefused (.update t) (List.mem_singleton_self _) .update rfl delete .delete rfl
      (fun htakes => htakes.elim nofun nofun)
  · exact hrefused (.update t) (List.mem_singleton_self _) .update rfl (into t) .into rfl
      (fun htakes => htakes.elim nofun nofun)

/-- A statement that updates, and one that deletes, and rows selected by both. -/
theorem selects_after_update_and_delete :
    let t := Table.named 1 "t"
    let one : Term := ⟨.value (.int 1) true, none⟩
    let columns : List Column := [.term one]
    (∃ q, run (.start 2 .generic) [.update t, .select columns] = .ok q ∧
      q.updateTable = some t ∧ q.selects = [one]) ∧
    ∃ q, run (.start 2 .generic) [.readFrom (.table t), .delete, .select columns] = .ok q ∧
      q.deletes = true ∧ q.selects = [one] := by
  intro t one columns
  exact ⟨⟨_, rfl, rfl, rfl⟩, _, rfl, rfl, rfl⟩

end Step

end SqlCompose
