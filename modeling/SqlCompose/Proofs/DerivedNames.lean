import SqlCompose.Proofs.ShownAliases
import SqlCompose.Proofs.SourceNames

/-! # Names of derived tables — which statements in FROM and joins get one

    FROM names every statement and every set operation that has no alias. A join names statements
    only: a set operation that is joined and stands nowhere in FROM is left without a name, is
    written without an alias, and its columns are written bare.

    * `Step.namedSlot?`, `Step.lookup_run` — what a call may name, and where a name comes from.
    * `Step.mem_run_iff` — which items calls put into FROM and into joins.
    * `Step.resolve_numbered` — what is put into FROM has a name, and so has a statement that is
      joined.
    * `Query.OnlyJoined`, `Step.resolve_derived` — what has none.
    * `FromItem.GoesBy`, `FromItem.IsBare` — what is written with a name and without one.
    * `Step.derived_named` — the theorem. -/

namespace SqlCompose

open Draft

/-! ## Where names come from -/

theorem Scope.lookup_assign (scope : Scope) (fresh identity : Identity) (aliasName : String) :
    (scope.assign fresh aliasName).lookup identity =
      if identity = fresh then some aliasName else scope.lookup identity := by
  show List.lookup identity ((fresh, aliasName) :: scope) = _
  by_cases hsame : identity = fresh
  · rw [if_pos hsame, hsame, List.lookup_cons_self]
  · rw [if_neg hsame, List.lookup_cons, beq_false_of_ne hsame]

namespace Query

/-- A table or a WITH clause in FROM is not named. -/
theorem readFrom_of_freeNumber {item : FromItem} (h : item.freeNumber? = none) (q : Query) :
    q.readFrom item = { q with sources := q.sources ++ [item] } := by
  simp only [readFrom, h]
  cases q.unnamedSlot? item <;> rfl

/-- A joined set operation is not named. -/
theorem scope_join_setOperation {o : SetOperation} {kind : JoinKind} {rows : JoinMatch}
    {q r : Query} (h : q.join (.setOperation o) kind rows = .ok r) : r.scope = q.scope := by
  obtain ⟨j, -, rfl⟩ := join_named h
  rw [nameSelfJoined_of_table? rfl, nameJoined_of_isQuery rfl]

end Query

namespace Step

/-- The place of the alias that a call may give a name to: that of a statement or a set operation in
    FROM, and that of a statement or a table in a join. -/
def namedSlot? : Step → Option Slot
  | readFrom item => item.statementSlot?
  | join (.query inner) _ _ => some inner.slot
  | join (.table t) _ _ => some t.slot
  | _ => none

/-- The table that a call joins. -/
def joinedTable? : Step → Option Table
  | join item _ _ => item.table?
  | _ => none

/-- A name that a call gives: a number, or that of a table which is joined. -/
def Gives (s : Step) (aliasName : String) : Prop :=
  (∃ n, aliasName = Query.subqueryName n) ∨
    ∃ t, s.joinedTable? = some t ∧ aliasName = t.name ++ "2"

/-- A call that changes the names gives a name to what it may name and what has no alias. -/
theorem scope_apply {s : Step} {q r : Query} (h : s.apply q = .ok r) :
    r.scope = q.scope ∨ ∃ fresh aliasName, s.namedSlot? = some ⟨fresh, none⟩ ∧ s.Gives aliasName ∧
      r.scope = q.scope.assign fresh aliasName := by
  cases names h with
  | kept hscope _ => exact .inl hscope
  | @numbered item slot n hitem hslot hnone _ hscope _ =>
    obtain ⟨fresh, own⟩ := slot
    obtain rfl : own = none := Scope.aliasName_of_resolve hnone
    cases s with
    | readFrom item' =>
      obtain rfl := Option.some.inj hitem
      exact .inr ⟨fresh, _, hslot, .inl ⟨n, rfl⟩, hscope⟩
    | join item' kind rows =>
      obtain rfl := Option.some.inj hitem
      cases item' with
      | query inner => exact .inr ⟨fresh, _, hslot, .inl ⟨n, rfl⟩, hscope⟩
      -- a set operation that is joined gets no name
      | setOperation o => exact .inl (Query.scope_join_setOperation h)
      | table t => exact nomatch hslot
      | cte name => exact nomatch hslot
    | _ => exact nomatch hitem
  | @selfJoined t hitem hnone hscope _ =>
    have hslot : t.slot = ⟨t.slot.identity, none⟩ := by
      rw [← Scope.aliasName_of_resolve hnone]
    cases s with
    | readFrom item' =>
      obtain rfl := Option.some.inj hitem
      obtain rfl := Except.ok.inj h
      have hread : q.readFrom (.table t) = _ := q.readFrom_of_freeNumber rfl
      exact .inl (congrArg Query.scope hread :)
    | join item' kind rows =>
      obtain rfl := Option.some.inj hitem
      exact .inr ⟨_, _, congrArg some hslot, .inr ⟨t, rfl, rfl⟩, hscope⟩
    | _ => exact nomatch hitem

/-- After calls an identity goes by the name that it had, or by one that a call has given to it. -/
theorem lookup_run {steps : List Step} {q r : Query} (h : run q steps = .ok r)
    (identity : Identity) :
    r.scope.lookup identity = q.scope.lookup identity ∨
      ∃ s ∈ steps, s.namedSlot? = some ⟨identity, none⟩ ∧
        ∃ aliasName, s.Gives aliasName ∧ r.scope.lookup identity = some aliasName := by
  induction steps generalizing q with
  | nil =>
    obtain rfl : q = r := Except.ok.inj h
    exact .inl rfl
  | cons s rest ih =>
    obtain ⟨q', hs, hrest⟩ := run_cons_ok h
    rcases ih hrest with hlast | ⟨s', hmem, hnamed⟩
    · rw [hlast]
      rcases scope_apply hs with hscope | ⟨fresh, aliasName, hslot, hgives, hscope⟩
      · exact .inl (congrArg (List.lookup identity) hscope)
      · rw [hscope, Scope.lookup_assign]
        split
        · next hsame =>
          obtain rfl := hsame
          exact .inr ⟨s, List.mem_cons_self, hslot, aliasName, hgives, rfl⟩
        · exact .inl rfl
    · exact .inr ⟨s', List.mem_cons_of_mem _ hmem, hnamed⟩

/-! ## What calls put into FROM and into joins -/

/-- Replacing a table leaves every other kind of item in its place. -/
theorem mem_map_replaceTable {item : FromItem} (hitem : item.table? = none) (current new : Table)
    (items : List FromItem) :
    item ∈ items.map (FromItem.replaceTable current new) ↔ item ∈ items := by
  constructor
  · intro hmem
    obtain ⟨other, hother, rfl⟩ := List.mem_map.mp hmem
    cases other with
    | table t => exact nomatch hitem
    | _ => exact hother
  · intro hmem
    refine List.mem_map.mpr ⟨item, hmem, ?_⟩
    cases item with
    | table t => exact nomatch hitem
    | _ => rfl

/-- Unless it replaces a table, a call keeps what is in FROM and what is joined, and adds no more
    than what it puts there. -/
theorem mem_apply_of_ne {s : Step} {q r : Query} (h : s.apply q = .ok r)
    (hs : ∀ current new, s ≠ replaceTable current new) (item : FromItem) :
    (item ∈ r.sources ↔ item ∈ q.sources ∨ s = readFrom item) ∧
      (item ∈ r.joins.map Join.item ↔
        item ∈ q.joins.map Join.item ∨ ∃ kind rows, s = join item kind rows) := by
  cases makes h with
  | readFrom => simp [eq_comm]
  | join hitem => simp [hitem, eq_comm]
  | replaceTable => exact absurd rfl (hs _ _)
  | _ => exact ⟨(or_iff_left nofun).symm, (or_iff_left nofun).symm⟩

/-- What is no table is in FROM or among the joined items after a call if it was there before it or
    is put there by it. -/
theorem mem_apply_iff {s : Step} {q r : Query} (h : s.apply q = .ok r) {item : FromItem}
    (hitem : item.table? = none) :
    (item ∈ r.sources ↔ item ∈ q.sources ∨ s = readFrom item) ∧
      (item ∈ r.joins.map Join.item ↔
        item ∈ q.joins.map Join.item ∨ ∃ kind rows, s = join item kind rows) := by
  by_cases hs : ∃ current new, s = replaceTable current new
  · obtain ⟨current, new, rfl⟩ := hs
    obtain rfl := Except.ok.inj h
    have hitems : (q.joins.map (Join.replaceTable current new)).map Join.item =
        (q.joins.map Join.item).map (FromItem.replaceTable current new) := by
      rw [List.map_map, List.map_map]
      rfl
    constructor
    · exact (mem_map_replaceTable hitem current new q.sources).trans (or_iff_left nofun).symm
    · show item ∈ (q.joins.map (Join.replaceTable current new)).map Join.item ↔ _
      rw [hitems, mem_map_replaceTable hitem]
      exact (or_iff_left nofun).symm
  · exact mem_apply_of_ne h (fun current new heq => hs ⟨current, new, heq⟩) item

/-- What is no table is in FROM or among the joined items after calls on a statement if it was there
    before them or is put there by one of them. -/
theorem mem_run_iff {steps : List Step} {q r : Query} (h : run q steps = .ok r) {item : FromItem}
    (hitem : item.table? = none) :
    (item ∈ r.sources ↔ item ∈ q.sources ∨ readFrom item ∈ steps) ∧
      (item ∈ r.joins.map Join.item ↔
        item ∈ q.joins.map Join.item ∨ ∃ kind rows, join item kind rows ∈ steps) := by
  induction steps generalizing q with
  | nil =>
    obtain rfl : q = r := Except.ok.inj h
    simp
  | cons s rest ih =>
    obtain ⟨q', hs, hrest⟩ := run_cons_ok h
    obtain ⟨hsources, hjoins⟩ := ih hrest
    obtain ⟨hsources', hjoins'⟩ := mem_apply_iff hs hitem
    rw [hsources, hjoins, hsources', hjoins', or_assoc, or_assoc]
    simp only [List.mem_cons, exists_or, eq_comm, and_self]

/-! ## What has a name -/

/-- A statement or set operation that is put into FROM has a name then, and so has a statement that
    is joined. -/
theorem resolve_numbered {s : Step} {q r : Query} (h : s.apply q = .ok r) {slot : Slot}
    (hslot : s.namedSlot? = some slot) (htable : s.joinedTable? = none) :
    (r.scope.resolve slot).isSome = true := by
  cases hname : q.scope.resolve slot with
  | some aliasName =>
    rw [resolve_apply h hname]
    rfl
  | none =>
    -- what has no name yet gets a number, in FROM and, if it is a statement, in a join
    cases s with
    | readFrom item =>
      cases item with
      | query inner =>
        obtain rfl := Option.some.inj hslot
        exact resolve_item h rfl
      | setOperation o =>
        obtain rfl := Option.some.inj hslot
        obtain rfl := Except.ok.inj h
        have hunnamed : q.unnamedSlot? (.setOperation o) = some o.slot :=
          Option.filter_eq_some_iff.mpr ⟨rfl, Option.isNone_iff_eq_none.mpr hname⟩
        have hscope : (q.readFrom (.setOperation o)).scope =
            q.scope.assign o.slot.identity (Query.subqueryName (max q.subqueryCount 0)) := by
          simp only [Query.readFrom, hunnamed]
          rfl
        rw [hscope, Scope.resolve_assigned hname]
        rfl
      | table t => cases hslot
      | cte name => cases hslot
    | join item kind rows =>
      cases item with
      | query inner =>
        obtain rfl := Option.some.inj hslot
        exact resolve_item h rfl
      | table t => cases htable
      | setOperation o => cases hslot
      | cte name => cases hslot
    | _ => cases hslot

/-- It keeps the name to the end. -/
theorem resolve_of_mem {steps : List Step} {q r : Query} (h : run q steps = .ok r) {s : Step}
    (hmem : s ∈ steps) {slot : Slot} (hslot : s.namedSlot? = some slot)
    (htable : s.joinedTable? = none) : (r.scope.resolve slot).isSome = true := by
  induction steps generalizing q with
  | nil => exact nomatch hmem
  | cons first rest ih =>
    obtain ⟨q', hs, hrest⟩ := run_cons_ok h
    rcases List.mem_cons.mp hmem with rfl | hlater
    · obtain ⟨aliasName, hname⟩ := Option.isSome_iff_exists.mp (resolve_numbered hs hslot htable)
      rw [resolve_run hrest hname]
      rfl
    · exact ih hrest hlater

end Step

namespace Query

/-- What stands under this place is in no FROM and is no statement that is joined. -/
def OnlyJoined (slot : Slot) (q : Query) : Prop :=
  ∀ item ∈ q.items, item.statementSlot? = some slot → item ∉ q.sources ∧ item.isQuery = false

end Query

namespace Step

variable {identity : Identity} {dialect : Dialect} {steps : List Step} {q : Query}

/-- Let calls put no table of an identity into FROM or joins. Without an alias, what stands under it
    is left without a name if it is a set operation that is only joined; else it has a number. -/
theorem resolve_derived (h : run (.start identity dialect) steps = .ok q) {slot : Slot}
    (hown : slot.aliasName = none)
    (hapart : ∀ s ∈ steps, ∀ t, s.item? = some (.table t) → t.slot.identity ≠ slot.identity) :
    (q.scope.resolve slot = none ↔ q.OnlyJoined slot) ∧
      ∀ aliasName, q.scope.resolve slot = some aliasName →
        ∃ n, aliasName = Query.subqueryName n := by
  obtain ⟨own, _⟩ := slot
  obtain rfl := hown
  -- a name comes from a call that puts a statement or a set operation there
  have hfrom (aliasName : String) (hname : q.scope.lookup own = some aliasName) :
      (∃ n, aliasName = Query.subqueryName n) ∧ ¬q.OnlyJoined ⟨own, none⟩ := by
    rcases lookup_run h own with hstart | ⟨s, hmem, hslot, given, hgives, hgiven⟩
    · exact nomatch hstart.symm.trans hname
    obtain rfl : given = aliasName := Option.some.inj (hgiven.symm.trans hname)
    cases s with
    | readFrom item =>
      have hitem : item.table? = none := by
        cases item with
        | table t => exact nomatch hslot
        | _ => rfl
      have hsource : item ∈ q.sources := ((mem_run_iff h hitem).1).mpr (.inr hmem)
      refine ⟨hgives.resolve_right (by rintro ⟨t, htable, -⟩; exact nomatch htable), ?_⟩
      intro honly
      exact (honly item (List.mem_append_left _ hsource) hslot).1 hsource
    | join item kind rows =>
      cases item with
      | query inner =>
        have hjoined : FromItem.query inner ∈ q.joins.map Join.item :=
          ((mem_run_iff h rfl).2).mpr (.inr ⟨kind, rows, hmem⟩)
        refine ⟨hgives.resolve_right (by rintro ⟨t, htable, -⟩; exact nomatch htable), ?_⟩
        intro honly
        exact nomatch (honly _ (List.mem_append_right _ hjoined) hslot).2
      | table t =>
        have hsame : t.slot = ⟨own, none⟩ := Option.some.inj hslot
        exact absurd (congrArg Slot.identity hsame) (hapart _ hmem t rfl)
      | setOperation o => exact nomatch hslot
      | cte name => exact nomatch hslot
    | _ => exact nomatch hslot
  refine ⟨⟨?_, ?_⟩, fun aliasName hname => (hfrom aliasName hname).1⟩
  · -- what has no name is nowhere that a call would have named it
    intro hnone item hitem hslot
    have htable : item.table? = none := by
      cases item with
      | table t => exact nomatch hslot
      | _ => rfl
    have hunnamed {s : Step} (hmem : s ∈ steps) (hnamed : s.namedSlot? = some ⟨own, none⟩)
        (hjoined : s.joinedTable? = none) : False := by
      have hname := resolve_of_mem h hmem hnamed hjoined
      rw [hnone] at hname
      exact nomatch hname
    have hsource : item ∉ q.sources := by
      intro hsource
      rcases ((mem_run_iff h htable).1).mp hsource with hstart | hmem
      · exact nomatch hstart
      · exact hunnamed hmem hslot rfl
    refine ⟨hsource, ?_⟩
    rcases ((mem_run_iff h htable).2).mp ((List.mem_append.mp hitem).resolve_left hsource) with
      hstart | ⟨kind, rows, hmem⟩
    · exact nomatch hstart
    · cases item with
      | query inner => exact (hunnamed hmem hslot rfl).elim
      | _ => rfl
  · intro honly
    cases hname : q.scope.resolve ⟨own, none⟩ with
    | none => rfl
    | some aliasName => exact absurd honly (hfrom aliasName hname).2

end Step

/-! ## What a name is written as -/

/-- In front of a column of a statement stands its name, whether or not columns are qualified;
    nothing does if it has none. -/
theorem Source.qualifier_derived (ctx : Context) (slot : Slot) :
    Source.qualifier ctx (some (.derived slot)) =
      match ctx.scope.resolve slot with
      | some name => Draft.tokens [.ident name, .dot]
      | none => empty := by
  have hqualifier : Source.qualifier? ctx (some (.derived slot)) = ctx.scope.resolve slot := by
    show (if ctx.qualified || (ctx.scope.resolve slot).isSome then ctx.scope.resolve slot else none)
      = _
    cases ctx.scope.resolve slot with
    | none => exact ite_self none
    | some name => rw [Option.isSome_some, Bool.or_true, if_pos rfl]
  rw [Source.qualifier, hqualifier]
  cases ctx.scope.resolve slot <;> rfl

namespace FromItem

variable {ctx : Context} {item : FromItem} {slot : Slot}

/-- Whether the item is written with its alias behind it: a SELECT or the like is, as a set
    operation and a table are; an UPDATE and an INSERT of rows are not. -/
def declares : FromItem → Bool
  | query q => q.isSelection
  | table _ | setOperation _ => true
  | cte _ => false

/-- The alias of a statement is the name that it has given to a copy of itself, or else the name
    that it has where it is written. -/
theorem alias?_eq (hslot : item.statementSlot? = some slot) (ctx : Context) :
    item.alias? ctx = item.innerName?.or (ctx.scope.resolve slot) := by
  cases item with
  | query inner =>
    obtain rfl := Option.some.inj hslot
    exact Scope.resolve_enter ctx.scope inner.scope inner.slot
  | setOperation o =>
    obtain rfl := Option.some.inj hslot
    rfl
  | table t => exact nomatch hslot
  | cte name => exact nomatch hslot

/-- A statement that is asked for its alias has it behind its body. -/
theorem draft_of_declares (hslot : item.statementSlot? = some slot) (hitem : item.declares = true)
    (hdeclares : ctx.declares = true) :
    item.draft ctx = item.body ctx ++ ctx.aliasDraft (item.alias? ctx) ++ item.rest ctx := by
  have hdeclaration (aliasName : Option String) :
      ctx.declaration aliasName = ctx.aliasDraft aliasName := by
    simp only [Context.declaration, hdeclares, if_true]
  cases item with
  | query inner =>
    have hselection : inner.isSelection = true := hitem
    show inner.draft ctx = _
    rw [Query.draft_of_isSelection hselection, Query.behind, hdeclaration]
    simp only [body, rest, alias?, append_assoc]
  | setOperation o =>
    show o.draft ctx = _
    rw [o.draft_eq, hdeclaration]
    exact (append_empty _).symm
  | table t => cases hslot
  | cte name => cases hslot

/-- Other statements are not asked for it. -/
theorem draft_of_not_declares (hslot : item.statementSlot? = some slot)
    (hitem : item.declares = false) (ctx : Context) :
    item.draft ctx = item.draft { ctx with declares := false } := by
  cases item with
  | query inner =>
    have hdraft := Query.draft_of_not_isSelection (q := inner) hitem
    show inner.draft ctx = inner.draft { ctx with declares := false }
    rw [hdraft, hdraft]
    rfl
  | setOperation o => exact nomatch hitem
  | table t => exact nomatch hslot
  | cte name => exact nomatch hslot

/-- What a column of a statement is bound to is the place of its alias. -/
theorem source_of_statementSlot? (hslot : item.statementSlot? = some slot) :
    item.source = .derived slot := by
  cases item with
  | query inner =>
    obtain rfl := Option.some.inj hslot
    rfl
  | setOperation o =>
    obtain rfl := Option.some.inj hslot
    rfl
  | table t => exact nomatch hslot
  | cte name => exact nomatch hslot

end FromItem

/-! ## The theorem -/

namespace FromItem

/-- An item with a name, in the context of FROM and joins: it is written as its body, an alias and
    what stands behind, and all its columns and stars are written behind the name. The alias is the
    name, unless a statement has given a name to a copy of itself; an UPDATE and an INSERT of rows
    do not answer the request for it. -/
def GoesBy (ctx : Context) (item : FromItem) (name : String) : Prop :=
  (item.declares = true →
    item.draft ctx =
      item.body ctx ++ ctx.aliasDraft (some (item.innerName?.getD name)) ++ item.rest ctx) ∧
  (item.declares = false → item.draft ctx = item.draft { ctx with declares := false }) ∧
  ∀ ctx' : Context, ctx'.scope = ctx.scope → ∀ column : String,
    (item.column column).draft ctx' = Draft.tokens [.ident name, .dot, .ident column] ∧
      item.star.draft ctx' = Draft.tokens [.ident name, .dot, .star]

/-- An item without a name: no alias stands behind it, and nothing before its columns and stars. -/
def IsBare (ctx : Context) (item : FromItem) : Prop :=
  item.draft ctx = item.body ctx ++ item.rest ctx ∧
  ∀ ctx' : Context, ctx'.scope = ctx.scope → ∀ column : String,
    (item.column column).draft ctx' = Draft.tokens [.ident column] ∧
      item.star.draft ctx' = Draft.tokens [.star]

variable {ctx : Context} {item : FromItem} {slot : Slot}

theorem goesBy_of_resolve (hslot : item.statementSlot? = some slot)
    (hdeclares : ctx.declares = true) {name : String} (hname : ctx.scope.resolve slot = some name) :
    item.GoesBy ctx name := by
  refine ⟨fun hitem => ?_, fun hitem => draft_of_not_declares hslot hitem ctx,
    fun ctx' hscope column => ?_⟩
  · rw [draft_of_declares hslot hitem hdeclares, alias?_eq hslot, hname]
    cases item.innerName? <;> rfl
  · obtain ⟨hcolumn, hstar⟩ := item.column_draft_source ctx' column
    rw [hcolumn, hstar, source_of_statementSlot? hslot, Source.qualifier_derived, hscope, hname]
    exact ⟨rfl, rfl⟩

theorem isBare_of_resolve {o : SetOperation} (hdeclares : ctx.declares = true)
    (hnone : ctx.scope.resolve o.slot = none) : (setOperation o).IsBare ctx := by
  refine ⟨?_, fun ctx' hscope column => ?_⟩
  · rw [draft_of_declares rfl rfl hdeclares, alias?_eq rfl, hnone]
    exact congrArg (· ++ _) (append_empty _)
  · obtain ⟨hcolumn, hstar⟩ := (setOperation o).column_draft_source ctx' column
    rw [hcolumn, hstar, source_of_statementSlot? rfl, Source.qualifier_derived, hscope, hnone]
    exact ⟨rfl, rfl⟩

end FromItem

namespace Step

/-- **Every statement that is read has a name, but not every set operation.** Let calls succeed on
    an empty statement, and let an item of its FROM or joins be a statement or a set operation
    without an alias; no table that the calls read is a copy of it.
    * In FROM, and where a statement is joined, the item has a name, `sq` and a number. A set
      operation that is joined and stands nowhere in FROM has none.
    * Wherever the statement is written, the name is behind the item as its alias and in front of
      all its columns, qualified or not. Two kinds of items do not have it behind them: a statement
      that has named a copy of itself has the name of the copy there, and an UPDATE or an INSERT of
      rows has no alias at all.
    * A set operation without a name is written without an alias, and its columns are bare, if no
      builder around the statement has named it.
    * If the statement writes its FROM and joins, the item is written there. -/
theorem derived_named {identity : Identity} {dialect : Dialect} {steps : List Step} {q : Query}
    (h : run (.start identity dialect) steps = .ok q) {item : FromItem} (hitem : item ∈ q.items)
    {slot : Slot} (hslot : item.statementSlot? = some slot) (hown : slot.aliasName = none)
    (hapart : ∀ s ∈ steps, ∀ t, s.item? = some (.table t) → t.slot.identity ≠ slot.identity)
    (outer : Context) :
    (item ∈ q.sources ∨ item.isQuery = true →
      ∃ n, q.scope.resolve slot = some (Query.subqueryName n)) ∧
    (∀ name, q.scope.resolve slot = some name →
      (∃ n, name = Query.subqueryName n) ∧ item.GoesBy (q.itemContext outer) name) ∧
    (q.OnlyJoined slot → q.scope.resolve slot = none ∧
      (outer.scope.resolve slot = none → item.IsBare (q.itemContext outer))) ∧
    (q.writesItems = true → Holds (item.draft (q.itemContext outer)) (q.draft outer)) := by
  obtain ⟨hnone, hnumber⟩ := resolve_derived h hown hapart
  have hscope : (q.itemContext outer).scope.resolve slot =
      (q.scope.resolve slot).or (outer.scope.resolve slot) :=
    Scope.resolve_enter outer.scope q.scope slot
  refine ⟨?_, ?_, ?_, fun hwrites => Query.holds_item hwrites hitem outer⟩
  · intro hread
    -- without a name it would be a set operation that is joined and read nowhere
    cases hname : q.scope.resolve slot with
    | none =>
      obtain ⟨hsource, hquery⟩ := hnone.mp hname item hitem hslot
      rcases hread with hread | hread
      · exact absurd hread hsource
      · cases hquery.symm.trans hread
    | some name =>
      obtain ⟨n, rfl⟩ := hnumber name hname
      exact ⟨n, rfl⟩
  · intro name hname
    refine ⟨hnumber name hname, FromItem.goesBy_of_resolve hslot rfl ?_⟩
    rw [hscope, hname, Option.some_or]
  · intro honly
    refine ⟨hnone.mpr honly, fun houter => ?_⟩
    obtain ⟨-, hquery⟩ := honly item hitem hslot
    cases item with
    | setOperation o =>
      obtain rfl := Option.some.inj hslot
      refine FromItem.isBare_of_resolve rfl ?_
      rw [hscope, hnone.mpr honly, houter, Option.none_or]
    | query inner => cases hquery
    | table t => cases hslot
    | cte name => cases hslot

/-- A set operation in FROM, behind a table and a statement that is joined. -/
theorem derived_named_setOperation :
    let t : Table := .named 1 "t"
    let select (identity : Identity) (name : String) : Query :=
      { Query.start identity .generic with
        sources := [.table (.named 1 name)]
        selects := [.field "x"] }
    let s := (select 2 "a").combine 3 .union (select 4 "b")
    let steps := [readFrom (.table t), join (.query (select 5 "c")) .cross .cross,
      readFrom (.setOperation s)]
    ∃ q, run (.start 6 .generic) steps = .ok q ∧ s.slot.aliasName = none ∧
      (∀ step ∈ steps, ∀ t, step.item? = some (.table t) →
        t.slot.identity ≠ s.slot.identity) ∧
      ∃ n, q.scope.resolve s.slot = some (Query.subqueryName n) ∧ ∀ outer,
        (FromItem.setOperation s).GoesBy (q.itemContext outer) (Query.subqueryName n) := by
  intro t select s steps
  obtain ⟨q, hrun, hsources⟩ : ∃ q, run (.start 6 .generic) steps = .ok q ∧
      q.sources = [.table t, .setOperation s] := ⟨_, rfl, rfl⟩
  have hapart : ∀ step ∈ steps, ∀ t, step.item? = some (.table t) →
      t.slot.identity ≠ s.slot.identity := by
    intro step hstep t' ht
    simp only [steps, List.mem_cons, List.not_mem_nil, or_false] at hstep
    rcases hstep with rfl | rfl | rfl
    · obtain rfl : t = t' := FromItem.table.inj (Option.some.inj ht)
      decide
    · exact nomatch ht
    · exact nomatch ht
  have hsource : FromItem.setOperation s ∈ q.sources := by
    rw [hsources]
    exact List.mem_cons_of_mem _ List.mem_cons_self
  have hnamed := derived_named hrun (List.mem_append_left _ hsource) rfl rfl hapart
  obtain ⟨n, hn⟩ := (hnamed (.ofDialect .generic)).1 (.inl hsource)
  exact ⟨q, hrun, rfl, hapart, n, hn, fun outer => ((hnamed outer).2.1 _ hn).2⟩

/-- A table and a set operation that is joined to it: the set operation has no name, and no alias is
    written behind it. -/
theorem joined_set_operation_unnamed :
    let t : Table := .named 1 "t"
    let rows (identity : Identity) (name : String) : Query :=
      { Query.start identity .generic with
        sources := [.table (.named 1 name)]
        selects := [.field "x"] }
    let s := (rows 2 "a").combine 3 .union (rows 4 "b")
    let item := FromItem.setOperation s
    ∃ q, run (.start 5 .generic) [readFrom (.table t), join item .inner .cross,
        select [.term (item.column "x"), .term (.column "y" (some (.table t)))]] = .ok q ∧
      item ∈ q.items ∧ q.scope.resolve s.slot = none ∧
      q.sql = .ok ("SELECT \"x\",\"t\".\"y\" FROM \"t\" " ++
        "CROSS JOIN ((SELECT \"x\" FROM \"a\") UNION (SELECT \"x\" FROM \"b\"))") := by
  intro t rows s item
  refine ⟨_, rfl, ?_, rfl, by decide +kernel⟩
  exact List.mem_cons_of_mem _ List.mem_cons_self

end Step

end SqlCompose
