import SqlCompose.Proofs.DerivedNames
import SqlCompose.Proofs.QualifiedColumns
import SqlCompose.Proofs.Verbs

/-! # Repeated tables — which name a table has that is read and then joined

    A table that is joined where the statement reads or updates it already is named after itself
    with a `2` behind. The name is given to the identity of what is joined: a table of its own
    leaves the earlier one with its name, while a copy of the earlier one shares the new name with
    it.

    * `Step.KeepsReading`, `Step.keepsReading_run` — without replacing tables, what is read and what
      is updated stays.
    * `Step.resolve_of_unnamed` — what no call may name has no new name.
    * `Query.scope_join_again`, `Step.resolve_joined_again` — a table that is joined again.
    * `Table.KnownBy` — the name of a table, where it is introduced and in front of its columns.
    * `Step.repeated_table_apart` — the theorem. -/

namespace SqlCompose

open Draft

/-! ## What stays -/

namespace Step

/-- All that the first statement reads, joins and updates the second one does as well. -/
structure KeepsReading (q r : Query) : Prop where
  sources : q.sources ⊆ r.sources
  joined  : q.joins.map Join.item ⊆ r.joins.map Join.item
  updates : ∀ t, q.updateTable = some t → r.updateTable = some t

theorem KeepsReading.refl (q : Query) : KeepsReading q q :=
  ⟨List.Subset.refl _, List.Subset.refl _, fun _ h => h⟩

theorem KeepsReading.trans {q r s : Query} (h : KeepsReading q r) (h' : KeepsReading r s) :
    KeepsReading q s :=
  ⟨List.Subset.trans h.sources h'.sources, List.Subset.trans h.joined h'.joined,
    fun t ht => h'.updates t (h.updates t ht)⟩

/-- The updated table is changed by replacing tables only. -/
theorem updateTable_kept {s : Step} {q r : Query} (h : s.apply q = .ok r)
    (hs : ∀ current new, s ≠ replaceTable current new) {t : Table}
    (ht : q.updateTable = some t) : r.updateTable = some t := by
  cases makes h with
  | replaceTable => exact absurd rfl (hs _ _)
  | update hverb =>
    -- a statement that updates has a verb already
    simp [Query.hasVerb, ht] at hverb
  | _ => exact ht

/-- Other calls keep what is read, joined and updated. -/
theorem keepsReading {s : Step} {q r : Query} (h : s.apply q = .ok r)
    (hs : ∀ current new, s ≠ replaceTable current new) : KeepsReading q r where
  sources item hitem := ((mem_apply_of_ne h hs item).1).mpr (.inl hitem)
  joined item hitem := ((mem_apply_of_ne h hs item).2).mpr (.inl hitem)
  updates _ ht := updateTable_kept h hs ht

theorem keepsReading_run {steps : List Step} {q r : Query} (h : run q steps = .ok r)
    (hsteps : ∀ s ∈ steps, ∀ current new, s ≠ replaceTable current new) : KeepsReading q r := by
  induction steps generalizing q with
  | nil =>
    obtain rfl : q = r := Except.ok.inj h
    exact .refl q
  | cons s rest ih =>
    obtain ⟨q', hs, hrest⟩ := run_cons_ok h
    obtain ⟨hfirst, hlater⟩ := List.forall_mem_cons.mp hsteps
    exact (keepsReading hs hfirst).trans (ih hrest hlater)

/-- Calls that may not name a place leave it with the name that it had. -/
theorem resolve_of_unnamed {steps : List Step} {q r : Query} (h : run q steps = .ok r)
    {slot : Slot} (hown : slot.aliasName = none)
    (hsteps : ∀ s ∈ steps, s.namedSlot? ≠ some slot) :
    r.scope.resolve slot = q.scope.resolve slot := by
  obtain ⟨identity, _⟩ := slot
  obtain rfl := hown
  rcases lookup_run h identity with hkept | ⟨s, hmem, hslot, -⟩
  · exact hkept
  · exact absurd hslot (hsteps s hmem)

/-- In a statement that such calls have made it has none. -/
theorem resolve_unnamed {identity : Identity} {dialect : Dialect} {steps : List Step} {q : Query}
    (h : run (.start identity dialect) steps = .ok q) {slot : Slot} (hown : slot.aliasName = none)
    (hsteps : ∀ s ∈ steps, s.namedSlot? ≠ some slot) : q.scope.resolve slot = none := by
  rw [resolve_of_unnamed h hown hsteps]
  obtain ⟨own, _⟩ := slot
  obtain rfl := hown
  rfl

end Step

/-! ## Joining a table again -/

namespace Query

/-- A table without a name that is joined where one like it is read or updated is named after itself
    with a `2` behind. -/
theorem scope_join_again {x y : Table} {kind : JoinKind} {rows : JoinMatch} {q r : Query}
    (h : q.join (.table y) kind rows = .ok r)
    (hx : .table x ∈ q.sources ∨ q.updateTable = some x) (hsame : y.same x = true)
    (hnone : q.scope.resolve y.slot = none) :
    r.scope = q.scope.assign y.slot.identity (y.name ++ "2") ∧
      .table y ∈ r.joins.map Join.item := by
  obtain ⟨j, hj, rfl⟩ := join_named h
  have hunnamed : q.unnamedSlot? (.table y) = some y.slot :=
    Option.filter_eq_some_iff.mpr ⟨rfl, Option.isNone_iff_eq_none.mpr hnone⟩
  have hread : (q.readable.any fun other => other.table?.any y.same) = true := by
    refine List.any_eq_true.mpr ⟨.table x, ?_, hsame⟩
    rcases hx with hsource | hupdate
    · simp [readable, hsource]
    · simp [readable, hupdate]
  have hself : q.nameSelfJoined (.table y) = q.nameSource y.slot (y.name ++ "2") := by
    simp only [nameSelfJoined, hunnamed]
    exact if_pos hread
  rw [nameJoined_of_isQuery rfl, hself]
  refine ⟨rfl, ?_⟩
  simp [hj]

/-- The target of an UPDATE is written in it. -/
theorem holds_target {q : Query} {t : Table} (ht : q.updateTable = some t)
    (hblank : q.isBlank = false) (outer : Context) :
    Holds (t.draft (q.innerContext outer)) (q.draft outer) := by
  have htarget : q.parts.updateTable (q.innerContext outer)
      ((q.innerContext outer).aliasOf t.slot) = t.draft (q.innerContext outer) := by
    rw [q.parts_eq, ht]
    rfl
  show Holds _ (Clause.statement outer q q.parts)
  simp only [Clause.statement, hblank, ht, Bool.false_eq_true, if_false]
  rw [← htarget]
  exact (((Holds.refl _).behind _).before _).before _

end Query

/-! ## What a table goes by -/

namespace Table

/-- In this scope a table goes by a name: the name introduces it wherever it is written, and stands
    before all its columns and stars wherever columns are qualified. -/
def KnownBy (scope : Scope) (t : Table) (name : String) : Prop :=
  ∀ ctx : Context, ctx.scope = scope →
    (FromItem.table t).Introduces ctx name ∧
    (ctx.qualified = true → ∀ column : String,
      ((FromItem.table t).column column).draft ctx =
          Draft.tokens [.ident name, .dot, .ident column] ∧
        (FromItem.table t).star.draft ctx = Draft.tokens [.ident name, .dot, .star])

theorem draft_eq_body (ctx : Context) (t : Table) :
    (FromItem.table t).draft ctx =
      (FromItem.table t).body ctx ++ ctx.aliasDraft (ctx.aliasOf t.slot) ++
        (FromItem.table t).rest ctx := by
  obtain ⟨name, schema, slot, temporal⟩ := t
  exact (append_empty _).symm

variable {scope : Scope} {t : Table}

/-- A name that is given in the scope is what the table goes by. -/
theorem knownBy_given {name : String} (hname : scope.resolve t.slot = some name)
    (hne : name ≠ "") : t.KnownBy scope name := by
  rintro ctx rfl
  have halias : ctx.aliasOf t.slot = some name := hname
  have hcalled : (FromItem.table t).source.nameIn ctx = some name :=
    congrArg some (congrArg (Option.getD · t.name) halias)
  refine ⟨.inl ⟨hne, ?_⟩, fun hqualified column =>
    FromItem.column_draft _ hqualified (.refl ctx) hcalled column⟩
  rw [draft_eq_body, halias]

/-- Without one, it goes by its own name. -/
theorem knownBy_own (hnone : scope.resolve t.slot = none) : t.KnownBy scope t.name := by
  rintro ctx rfl
  have halias : ctx.aliasOf t.slot = none := hnone
  have hcalled : (FromItem.table t).source.nameIn ctx = some t.name :=
    congrArg some (congrArg (Option.getD · t.name) halias)
  refine ⟨.inr ⟨rfl, ?_⟩, fun hqualified column =>
    FromItem.column_draft _ hqualified (.refl ctx) hcalled column⟩
  rw [draft_eq_body, halias]
  exact congrArg (· ++ _) (append_empty _)

end Table

/-! ## The theorem -/

/-- The name of a table that is joined again is not the one that it had. -/
theorem Table.name_append_ne (t : Table) : t.name ++ "2" ≠ "" ∧ t.name ++ "2" ≠ t.name := by
  have hlength : (t.name ++ "2").length = t.name.length + 1 := by
    rw [String.length_append]
    rfl
  constructor
  · intro h
    rw [h] at hlength
    exact absurd hlength (by simp)
  · intro h
    rw [h] at hlength
    exact absurd hlength (by omega)

namespace Step

section

variable {identity : Identity} {dialect : Dialect} {before after : List Step} {q₀ q₁ q : Query}
  {x y : Table} {kind : JoinKind} {rows : JoinMatch}

/-- Let a table without an alias be joined where one like it is read or updated, and let no other
    call name a copy of it. Of the places that no other call names, that of the joined table has its
    name with a `2` behind at the end, and all others have none. -/
theorem resolve_joined_again (hbefore : run (.start identity dialect) before = .ok q₀)
    (hx : .table x ∈ q₀.sources ∨ q₀.updateTable = some x)
    (hjoin : (Step.join (.table y) kind rows).apply q₀ = .ok q₁) (hafter : run q₁ after = .ok q)
    (hsame : y.same x = true) (hyown : y.slot.aliasName = none)
    (hy : ∀ s ∈ before, s.namedSlot? ≠ some y.slot) {slot : Slot} (hown : slot.aliasName = none)
    (hslot : ∀ s ∈ before ++ after, s.namedSlot? ≠ some slot) :
    q.scope.resolve slot = if slot = y.slot then some (y.name ++ "2") else none := by
  have hslots : ∀ s ∈ before, s.namedSlot? ≠ some slot :=
    fun s hs => hslot s (List.mem_append_left _ hs)
  have hnone : q₀.scope.resolve slot = none := resolve_unnamed hbefore hown hslots
  have hynone : q₀.scope.resolve y.slot = none := resolve_unnamed hbefore hyown hy
  obtain ⟨hscope, -⟩ := Query.scope_join_again hjoin hx hsame hynone
  rw [resolve_of_unnamed hafter hown fun s hs => hslot s (List.mem_append_right _ hs), hscope]
  -- the place is the one that is named, or the name is not for it
  split
  · next hjoined =>
    rw [hjoined]
    exact Scope.resolve_assigned hynone _
  · next hother =>
    obtain ⟨own, _⟩ := slot
    obtain rfl := hown
    have hidentity : own ≠ y.slot.identity := by
      intro h
      refine hother ?_
      rw [h, ← hyown]
    show (q₀.scope.assign y.slot.identity _).lookup own = none
    rw [Scope.lookup_assign, if_neg hidentity]
    exact hnone

/-- **A table that is read or updated and then joined again.** Let calls make a statement that reads
    or updates a table without an alias. Let a join of a table like it succeed, be it a copy or one
    of its own, and let other calls follow. No other call joins a copy of one of the two, and no
    builder around the statement has named the first.
    * The joined table goes by the common name with a `2` behind.
    * If it is one of its own, the earlier table keeps its name, a different one.
    * If it is a copy, both go by the name with a `2`.
    * If no table is replaced after the join, columns are qualified in the clauses of the statement,
      and both tables are written in it once it writes its FROM and joins. -/
theorem repeated_table_apart (hbefore : run (.start identity dialect) before = .ok q₀)
    (hx : .table x ∈ q₀.sources ∨ q₀.updateTable = some x)
    (hjoin : (Step.join (.table y) kind rows).apply q₀ = .ok q₁) (hafter : run q₁ after = .ok q)
    (hsame : y.same x = true) (hown : x.slot.aliasName = none)
    (honce : ∀ s ∈ before ++ after, s.namedSlot? ≠ some x.slot ∧ s.namedSlot? ≠ some y.slot)
    {outer : Context} (houter : outer.scope.resolve x.slot = none) :
    let scope := outer.scope.enter q.scope
    y.KnownBy scope (x.name ++ "2") ∧
      (y.slot ≠ x.slot → x.KnownBy scope x.name ∧ x.name ++ "2" ≠ x.name) ∧
      (y.slot = x.slot → x.KnownBy scope (x.name ++ "2")) ∧
      ((∀ s ∈ after, ∀ current new, s ≠ replaceTable current new) →
        (q.innerContext outer).qualified = true ∧
        (q.writesItems = true →
          Holds ((FromItem.table y).draft (q.itemContext outer)) (q.draft outer) ∧
          (.table x ∈ q₀.sources →
            Holds ((FromItem.table x).draft (q.itemContext outer)) (q.draft outer)) ∧
          (q₀.updateTable = some x →
            Holds (x.draft (q.innerContext outer)) (q.draft outer)))) := by
  intro scope
  obtain ⟨hne, hdiffers⟩ := x.name_append_ne
  obtain ⟨⟨hname, -⟩, halias⟩ : (y.name = x.name ∧ y.schema = x.schema) ∧
      y.slot.aliasName = x.slot.aliasName := by
    simpa [Table.same] using hsame
  have hyown : y.slot.aliasName = none := halias.trans hown
  have hbeforeY : ∀ s ∈ before, s.namedSlot? ≠ some y.slot :=
    fun s hs => (honce s (List.mem_append_left _ hs)).2
  have hy : q.scope.resolve y.slot = some (x.name ++ "2") := by
    rw [resolve_joined_again hbefore hx hjoin hafter hsame hyown hbeforeY hyown
      fun s hs => (honce s hs).2, if_pos rfl, hname]
  have hscope (slot : Slot) :
      scope.resolve slot = (q.scope.resolve slot).or (outer.scope.resolve slot) :=
    Scope.resolve_enter outer.scope q.scope slot
  have hyscope : scope.resolve y.slot = some (x.name ++ "2") := by
    rw [hscope, hy, Option.some_or]
  -- the joined table goes by its new name, the other one by its own, a copy of it by the new one,
  -- and all of them are written
  refine ⟨Table.knownBy_given hyscope hne, ?_, ?_, ?_⟩
  · intro hapart
    have hx : q.scope.resolve x.slot = none := by
      rw [resolve_joined_again hbefore hx hjoin hafter hsame hyown hbeforeY hown
        fun s hs => (honce s hs).1, if_neg hapart.symm]
    refine ⟨Table.knownBy_own ?_, hdiffers⟩
    rw [hscope, hx, houter, Option.none_or]
  · intro hcopy
    exact Table.knownBy_given (hcopy ▸ hyscope) hne
  · intro hreplaces
    have hynone : q₀.scope.resolve y.slot = none := resolve_unnamed hbefore hyown hbeforeY
    obtain ⟨-, hjoined⟩ := Query.scope_join_again hjoin hx hsame hynone
    have hkept : KeepsReading q₀ q₁ := keepsReading hjoin nofun
    have hkept' : KeepsReading q₁ q := keepsReading_run hafter hreplaces
    have hjoins : q.joins ≠ [] := by
      intro hnil
      have hlast := hkept'.joined hjoined
      rw [hnil] at hlast
      exact nomatch hlast
    refine ⟨Query.isQualified_of_several (.inl hjoins), fun hwrites => ⟨?_, ?_, ?_⟩⟩
    · exact Query.holds_item hwrites (List.mem_append_right _ (hkept'.joined hjoined)) outer
    · intro hsource
      have hread : .table x ∈ q.sources := hkept'.sources (hkept.sources hsource)
      exact Query.holds_item hwrites (List.mem_append_left _ hread) outer
    · intro hupdate
      have hblank : q.isBlank = false := by
        simp only [Query.writesItems, Bool.and_eq_true, Bool.not_eq_true'] at hwrites
        exact hwrites.1
      exact Query.holds_target (hkept'.updates x (hkept.updates x hupdate)) hblank outer

end

/-- Two tables of one name, one of which is read and the other one joined. -/
theorem repeated_table_apart_named :
    let x := Table.named 1 "abc"
    let y := Table.named 2 "abc"
    let before := [readFrom (.table x)]
    let after := [select [.name "*"]]
    ∃ q₀ q₁ q : Query, run (.start 3 .generic) before = .ok q₀ ∧
      (join (.table y) .inner (.onFields ["id"])).apply q₀ = .ok q₁ ∧ run q₁ after = .ok q ∧
      y.same x = true ∧ y.slot ≠ x.slot ∧
      ∀ dialect, let outer := Context.ofDialect dialect
        x.KnownBy (outer.scope.enter q.scope) "abc" ∧
          y.KnownBy (outer.scope.enter q.scope) "abc2" ∧
          Holds ((FromItem.table x).draft (q.itemContext outer)) (q.draft outer) ∧
          Holds ((FromItem.table y).draft (q.itemContext outer)) (q.draft outer) := by
  intro x y before after
  obtain ⟨q₀, q₁, q, hbefore, hjoin, hafter, hread, hwrites⟩ : ∃ q₀ q₁ q : Query,
      run (.start 3 .generic) before = .ok q₀ ∧
        (join (.table y) .inner (.onFields ["id"])).apply q₀ = .ok q₁ ∧ run q₁ after = .ok q ∧
        q₀.sources = [.table x] ∧ q.writesItems = true :=
    ⟨_, _, _, rfl, rfl, rfl, rfl, rfl⟩
  have hsource : FromItem.table x ∈ q₀.sources := by
    rw [hread]
    exact List.mem_cons_self
  have honce : ∀ s ∈ before ++ after, s.namedSlot? ≠ some x.slot ∧ s.namedSlot? ≠ some y.slot := by
    intro s hs
    simp only [before, after, List.cons_append, List.nil_append, List.mem_cons, List.not_mem_nil,
      or_false] at hs
    rcases hs with rfl | rfl
    · exact ⟨nofun, nofun⟩
    · exact ⟨nofun, nofun⟩
  have hreplaces : ∀ s ∈ after, ∀ current new, s ≠ replaceTable current new := by
    intro s hs current new
    rw [List.mem_singleton.mp hs]
    exact nofun
  have hapart : y.slot ≠ x.slot := by decide
  refine ⟨q₀, q₁, q, hbefore, hjoin, hafter, by decide, hapart, fun dialect => ?_⟩
  have houter : (Context.ofDialect dialect).scope.resolve x.slot = none := rfl
  obtain ⟨hy, hx, -, hwritten⟩ := repeated_table_apart hbefore (.inl hsource) hjoin hafter
    (by decide) rfl honce houter
  obtain ⟨hholds, hholds', -⟩ := (hwritten hreplaces).2 hwrites
  exact ⟨(hx hapart).1, hy, hholds' hsource, hholds⟩

/-- A table and a nested statement that are read and joined again as they are: both stand under one
    name twice. -/
theorem repeated_copies_together :
    let t := Table.named 1 "abc"
    let inner : Query :=
      { Query.start 2 .generic with
        sources := [.table (.named 3 "abc")]
        selects := [.field "x"] }
    let twice (item : FromItem) (column : String) : Except BuildError String :=
      (run (.start 4 .generic) [readFrom item, join item .inner (.onFields [column]),
        select [.name "*"]]).bind Query.sql
    twice (.table t) "id" = .ok ("SELECT * FROM \"abc\" \"abc2\" JOIN \"abc\" \"abc2\" " ++
        "ON \"abc2\".\"id\"=\"abc2\".\"id\"") ∧
      twice (.query inner) "x" = .ok ("SELECT * FROM (SELECT \"x\" FROM \"abc\") \"sq0\" " ++
        "JOIN (SELECT \"x\" FROM \"abc\") \"sq0\" ON \"sq0\".\"x\"=\"sq0\".\"x\"") := by
  decide +kernel

end Step

end SqlCompose
