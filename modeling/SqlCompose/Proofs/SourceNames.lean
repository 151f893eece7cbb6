import SqlCompose.Proofs.NestedStatements
import SqlCompose.Proofs.QualifiedColumns
import SqlCompose.Proofs.SubqueryNames

/-! # Names of sources — what columns are qualified by and what a source is introduced as

    The name in front of a column is looked up by the identity of the source in the scope of the
    statement that the column is in. The name behind a source in FROM or JOIN is looked up where the
    source is written, and that is one scope further in for a nested statement: its own. Both are
    the same name, unless the nested statement has a name for itself, because it reads a copy of
    itself; then it is introduced by that name while its columns keep the outer one.

    * `FromItem.draft_eq` — an item of FROM or JOIN is a body, an alias and what stands behind it.
    * `FromItem.Introduces` — the name that an item is introduced by.
    * `Query.Built.proper`, `Query.Built.resolve_of_mem` — what every statement that is built has:
      its names are not empty, and every nested statement that it reads has one.
    * `Query.columns_named` — the theorem. -/

namespace SqlCompose

open Draft

/-! ## Names in scopes -/

namespace Scope

/-- An inner name comes before an outer one. -/
theorem resolve_enter (outer inner : Scope) (slot : Slot) :
    (outer.enter inner).resolve slot = (inner.resolve slot).or (outer.resolve slot) := by
  obtain ⟨identity, _ | own⟩ := slot
  · exact List.lookup_append
  · rfl

/-- A scope that assigns no name to a source has no say in how the source is called. -/
theorem or_resolve_of_lookup {scope : Scope} {slot : Slot}
    (h : scope.lookup slot.identity = none) (outer : Scope) :
    (scope.resolve slot).or (outer.resolve slot) = outer.resolve slot := by
  obtain ⟨identity, _ | own⟩ := slot
  · show (scope.lookup identity).or _ = _
    rw [h]
    rfl
  · rfl

/-- No name is empty. -/
def Proper (scope : Scope) : Prop := ∀ entry ∈ scope, entry.2 ≠ ""

theorem Proper.assign {scope : Scope} (h : scope.Proper) {aliasName : String}
    (hname : aliasName ≠ "") (identity : Identity) : (scope.assign identity aliasName).Proper := by
  intro entry hentry
  rcases List.mem_cons.mp hentry with rfl | hentry
  · exact hname
  · exact h entry hentry

theorem Proper.enter {outer inner : Scope} (houter : outer.Proper) (hinner : inner.Proper) :
    (outer.enter inner).Proper := by
  intro entry hentry
  rcases List.mem_append.mp hentry with hentry | hentry
  · exact hinner entry hentry
  · exact houter entry hentry

/-- What is not named by the empty text itself has no empty name. -/
theorem Proper.resolve_ne {scope : Scope} (h : scope.Proper) {slot : Slot}
    (hown : slot.aliasName ≠ some "") {aliasName : String}
    (hname : scope.resolve slot = some aliasName) : aliasName ≠ "" := by
  rintro rfl
  obtain ⟨identity, _ | own⟩ := slot
  · obtain ⟨before, after, rfl, -⟩ := List.lookup_eq_some_iff.mp hname
    exact h (identity, "") (by simp) rfl
  · exact hown hname

end Scope

/-! ## What every built statement has -/

/-- Names that are made out of others are not empty. -/
theorem Query.subqueryName_ne (n : Nat) : subqueryName n ≠ "" := by
  intro h
  have hchars := congrArg String.toList h
  simp only [subqueryName, String.toList_append] at hchars
  cases hchars

theorem Table.secondName_ne (t : Table) : t.name ++ "2" ≠ "" := by
  intro h
  have hchars := congrArg String.toList h
  rw [String.toList_append] at hchars
  exact nomatch (List.append_eq_nil_iff.mp hchars).2

namespace Query

/-- What the statement reads, FROM first. -/
def items (q : Query) : List FromItem := q.sources ++ q.joins.map Join.item

/-- A statement gives no empty names. -/
theorem Built.proper {q : Query} (hq : q.Built) : q.scope.Proper := by
  refine hq.invariant (P := fun q => q.scope.Proper) (fun _ _ => nofun) ?_
  intro s q r hs hproper
  cases Step.names hs with
  | kept hscope _ => rw [hscope]; exact hproper
  | numbered _ _ _ _ hscope _ => rw [hscope]; exact hproper.assign (subqueryName_ne _) _
  | selfJoined _ _ hscope _ => rw [hscope]; exact hproper.assign (Table.secondName_ne _) _

end Query

namespace Step

/-- A nested statement has a name once it is read. -/
theorem resolve_item {s : Step} {q r : Query} (h : s.apply q = .ok r) {inner : Query}
    (hitem : s.item? = some (.query inner)) : (r.scope.resolve inner.slot).isSome = true := by
  cases hname : q.scope.resolve inner.slot with
  | some aliasName =>
    rw [resolve_apply h hname]
    rfl
  | none =>
    cases s with
    | readFrom item =>
      obtain rfl := Option.some.inj hitem
      obtain rfl := Except.ok.inj h
      rw [Query.resolve_readFrom hname]
      rfl
    | join item kind rows =>
      obtain rfl := Option.some.inj hitem
      obtain ⟨j, -, rfl⟩ := Query.join_named h
      rw [Query.nameSelfJoined_of_table? rfl]
      have hslot : q.unnamedSlot? (.query inner) = some inner.slot :=
        Option.filter_eq_some_iff.mpr ⟨rfl, Option.isNone_iff_eq_none.mpr hname⟩
      have hscope : (q.nameJoined (.query inner)).scope =
          q.scope.assign inner.slot.identity (Query.subqueryName q.subqueryCount) := by
        simp only [Query.nameJoined, hslot]
        rfl
      show ((q.nameJoined (.query inner)).scope.resolve inner.slot).isSome = true
      rw [hscope, Scope.resolve_assigned hname]
      rfl
    | _ => cases hitem

/-- A nested statement that is read after a call was read before it or is read by it. -/
theorem query_mem_items {s : Step} {q r : Query} (h : s.apply q = .ok r) {inner : Query}
    (hmem : .query inner ∈ r.items) : .query inner ∈ q.items ∨ s.item? = some (.query inner) := by
  cases makes h with
  | readFrom =>
    simp only [Query.items, List.mem_append, List.mem_singleton] at hmem
    rcases hmem with (hmem | rfl) | hmem
    · exact .inl (List.mem_append_left _ hmem)
    · exact .inr rfl
    · exact .inl (List.mem_append_right _ hmem)
  | join hitem =>
    simp only [Query.items, List.mem_append, List.map_append, List.map_cons, List.map_nil,
      List.mem_singleton, hitem] at hmem
    rcases hmem with hmem | hmem | rfl
    · exact .inl (List.mem_append_left _ hmem)
    · exact .inl (List.mem_append_right _ hmem)
    · exact .inr rfl
  | @replaceTable current new =>
    -- no table is replaced by a nested statement
    have hback : ∀ item : FromItem, item.replaceTable current new = .query inner →
        item = .query inner := by
      intro item hitem
      cases item with
      | table t => exact nomatch hitem
      | _ => exact hitem
    left
    rcases List.mem_append.mp hmem with hmem | hmem
    · obtain ⟨item, hsource, hitem⟩ := List.mem_map.mp hmem
      exact List.mem_append_left _ (hback item hitem ▸ hsource)
    · obtain ⟨j', hj', hitem⟩ := List.mem_map.mp hmem
      obtain ⟨j, hj, rfl⟩ := List.mem_map.mp hj'
      exact List.mem_append_right _ (hback j.item hitem ▸ List.mem_map_of_mem hj)
  | _ => exact .inl hmem

end Step

/-- Every nested statement that a statement reads has a name in it. -/
theorem Query.Built.resolve_of_mem {q : Query} (hq : q.Built) {inner : Query}
    (hmem : .query inner ∈ q.items) : (q.scope.resolve inner.slot).isSome = true := by
  have hnone : ∀ (identity : Identity) (dialect : Dialect),
      .query inner ∈ (start identity dialect).items →
        ((start identity dialect).scope.resolve inner.slot).isSome = true := fun _ _ => nofun
  refine hq.invariant (P := fun q => .query inner ∈ q.items →
    (q.scope.resolve inner.slot).isSome = true) hnone ?_ hmem
  intro s q r hs hnamed hmem
  rcases Step.query_mem_items hs hmem with hbefore | hitem
  · obtain ⟨aliasName, hname⟩ := Option.isSome_iff_exists.mp (hnamed hbefore)
    rw [Step.resolve_apply hs hname]
    rfl
  · exact Step.resolve_item hs hitem

/-! ## How a source is introduced -/

/-- The context in which the items of FROM and JOIN are drafted. -/
def Query.itemContext (outer : Context) (q : Query) : Context :=
  { q.innerContext outer with nested := true, declares := true }

namespace FromItem

/-- The name that an item has whatever it is called: that of a table or a WITH clause. -/
def ownName? : FromItem → Option String
  | table t => some t.name
  | cte name => some name
  | query _ | setOperation _ => none

/-- What a nested statement calls itself: its own alias, or the name it has given to a copy of
    itself that it reads. -/
def innerName? : FromItem → Option String
  | query q => q.scope.resolve q.slot
  | table _ | setOperation _ | cte _ => none

/-- Whether a nested statement has given a name to a copy of itself. -/
def namesItself : FromItem → Bool
  | query q => (q.scope.lookup q.slot.identity).isSome
  | table _ | setOperation _ | cte _ => false

/-- What stands in front of the item's alias. -/
def body (ctx : Context) : FromItem → Draft
  | table t => Schema.qualifier t.schema ++ token (.ident t.name) ++ temporalDraft ctx t.temporal
  | query q => parensIf ctx.nested (q.inside ctx) ++ Clause.resolved (q.innerContext ctx) q q.parts
  | setOperation s => parensIf ctx.nested (s.inside ctx)
  | cte name => raw name

/-- What stands behind the item's alias. -/
def rest (ctx : Context) : FromItem → Draft
  | query q => Clause.returned (q.innerContext ctx) q q.parts
  | table _ | setOperation _ | cte _ => empty

/-- The item's alias where it is written; a nested statement looks it up in its own scope. -/
def alias? (ctx : Context) : FromItem → Option String
  | table t => ctx.aliasOf t.slot
  | query q => (ctx.scope.enter q.scope).resolve q.slot
  | setOperation s => ctx.aliasOf s.slot
  | cte _ => none

/-- The item is written as its body and the name behind it as an alias, or without an alias where
    the name is its own. -/
def Introduces (ctx : Context) (item : FromItem) (name : String) : Prop :=
  (name ≠ "" ∧ item.draft ctx = item.body ctx ++ ctx.aliasDraft (some name) ++ item.rest ctx) ∨
    (item.ownName? = some name ∧ item.draft ctx = item.body ctx ++ item.rest ctx)

/-- Items with a name: a table, a nested statement that is written as a SELECT, a set operation that
    has a name where it is written, and a WITH clause. An alias of their own is not empty. -/
inductive IsNamed (ctx : Context) : FromItem → Prop
  | table {t : Table} (hown : t.slot.aliasName ≠ some "") : IsNamed ctx (.table t)
  | query {q : Query} (hbuilt : q.Built) (hselection : q.isSelection = true)
      (hown : q.slot.aliasName ≠ some "") : IsNamed ctx (.query q)
  | setOperation {s : SetOperation} (hname : (ctx.aliasOf s.slot).isSome = true)
      (hown : s.slot.aliasName ≠ some "") : IsNamed ctx (.setOperation s)
  | cte (name : String) : IsNamed ctx (.cte name)

/-- An item with a name is a body, an alias and what stands behind it. -/
theorem draft_eq {ctx : Context} (hdeclares : ctx.declares = true) {item : FromItem}
    (hitem : item.IsNamed ctx) :
    item.draft ctx = item.body ctx ++ ctx.aliasDraft (item.alias? ctx) ++ item.rest ctx := by
  have hdeclaration : ∀ aliasName, ctx.declaration aliasName = ctx.aliasDraft aliasName := by
    intro aliasName
    simp only [Context.declaration, hdeclares, if_true]
  cases hitem with
  | @table t _ =>
    obtain ⟨name, schema, slot, temporal⟩ := t
    exact (append_empty _).symm
  | @query q _ hselection _ =>
    show q.draft ctx = _
    rw [Query.draft_of_isSelection hselection, Query.behind, hdeclaration]
    simp only [body, rest, alias?, append_assoc]
  | @setOperation s _ _ =>
    show s.draft ctx = _
    rw [s.draft_eq, hdeclaration]
    exact (append_empty _).symm
  | cte name => rfl

/-- The alias is the name by which the item is introduced. -/
theorem introduces_alias {ctx : Context} (hdeclares : ctx.declares = true) {item : FromItem}
    (hitem : item.IsNamed ctx) {name : String} (hname : item.alias? ctx = some name)
    (hne : name ≠ "") : item.Introduces ctx name := by
  refine .inl ⟨hne, ?_⟩
  rw [draft_eq hdeclares hitem, hname]

/-- Without an alias, a table or a WITH clause is introduced by its own name. -/
theorem introduces_own {ctx : Context} (hdeclares : ctx.declares = true) {item : FromItem}
    (hitem : item.IsNamed ctx) {name : String} (hnone : item.alias? ctx = none)
    (hown : item.ownName? = some name) : item.Introduces ctx name := by
  refine .inr ⟨hown, ?_⟩
  rw [draft_eq hdeclares hitem, hnone]
  exact congrArg (· ++ item.rest ctx) (append_empty _)

/-- The name that columns of an item are qualified by introduces it, unless it has named a copy of
    itself. -/
theorem introduces_name {ctx : Context} (hdeclares : ctx.declares = true)
    (hproper : ctx.scope.Proper) {item : FromItem} (hitem : item.IsNamed ctx) {name : String}
    (hname : item.source.nameIn ctx = some name) (hitself : item.namesItself = false) :
    item.Introduces ctx name := by
  cases hitem with
  | @table t hown =>
    obtain rfl : t.nameIn ctx = name := Option.some.inj hname
    -- the alias in the scope, or else the name of the table
    cases halias : ctx.aliasOf t.slot with
    | none =>
      have hcalled : t.nameIn ctx = t.name := congrArg (Option.getD · t.name) halias
      rw [hcalled]
      exact introduces_own hdeclares (.table hown) halias rfl
    | some aliasName =>
      have hcalled : t.nameIn ctx = aliasName := congrArg (Option.getD · t.name) halias
      rw [hcalled]
      exact introduces_alias hdeclares (.table hown) halias (hproper.resolve_ne hown halias)
  | @query q hbuilt hselection hown =>
    -- its own scope comes first, but has no name for it
    have hnone : q.scope.lookup q.slot.identity = none :=
      Option.isNone_iff_eq_none.mp (Option.isSome_eq_false_iff.mp hitself)
    have halias : (ctx.scope.enter q.scope).resolve q.slot = some name := by
      rw [Scope.resolve_enter, Scope.or_resolve_of_lookup hnone]
      exact hname
    exact introduces_alias hdeclares (.query hbuilt hselection hown) halias
      (hproper.resolve_ne hown hname)
  | setOperation hsome hown =>
    exact introduces_alias hdeclares (.setOperation hsome hown) hname
      (hproper.resolve_ne hown hname)
  | cte other =>
    obtain rfl : other = name := Option.some.inj hname
    exact introduces_own hdeclares (.cte other) rfl rfl

/-- A nested statement that has a name in its own scope is introduced by it. -/
theorem introduces_inner {ctx : Context} (hdeclares : ctx.declares = true) {item : FromItem}
    (hitem : item.IsNamed ctx) {inner : String} (hinner : item.innerName? = some inner) :
    item.Introduces ctx inner := by
  cases hitem with
  | @query q hbuilt hselection hown =>
    have hinner : q.scope.resolve q.slot = some inner := hinner
    have halias : (ctx.scope.enter q.scope).resolve q.slot = some inner := by
      rw [Scope.resolve_enter, hinner, Option.some_or]
    exact introduces_alias hdeclares (.query hbuilt hselection hown) halias
      (hbuilt.proper.resolve_ne hown hinner)
  | table => exact nomatch hinner
  | setOperation => exact nomatch hinner
  | cte => exact nomatch hinner

end FromItem

/-- Every item with a name that a statement reads has the name among the names in the statement. -/
theorem Query.Built.exists_name {q : Query} (hq : q.Built) {item : FromItem}
    (hitem : item ∈ q.items) {outer : Context} (hnamed : item.IsNamed (q.itemContext outer)) :
    ∃ name, item.source.nameIn (q.itemContext outer) = some name := by
  cases hnamed with
  | table => exact ⟨_, rfl⟩
  | @query inner =>
    obtain ⟨name, hname⟩ := Option.isSome_iff_exists.mp (hq.resolve_of_mem hitem)
    refine ⟨name, ?_⟩
    show (outer.scope.enter q.scope).resolve inner.slot = some name
    rw [Scope.resolve_enter, hname, Option.some_or]
  | setOperation hname => exact Option.isSome_iff_exists.mp hname
  | cte name => exact ⟨name, rfl⟩

/-! ## Where a source is written -/

namespace Draft

/-- One draft is written inside another one. -/
def Holds (part d : Draft) : Prop := ∃ before after : Draft, d = before ++ part ++ after

namespace Holds

variable {part a b : Draft}

theorem refl (part : Draft) : Holds part part := ⟨empty, empty, (append_empty part).symm⟩

/-- Anything may follow. -/
theorem before (h : Holds part a) (b : Draft) : Holds part (a ++ b) := by
  obtain ⟨first, last, rfl⟩ := h
  exact ⟨first, last ++ b, append_assoc ..⟩

/-- Anything may come first. -/
theorem behind (a : Draft) (h : Holds part b) : Holds part (a ++ b) := by
  obtain ⟨first, last, rfl⟩ := h
  exact ⟨a ++ first, last, by simp only [append_assoc]⟩

theorem join (separator : Draft) {ds : List Draft} (h : ∃ d ∈ ds, Holds part d) :
    Holds part (join separator ds) := by
  obtain ⟨d, hd, hpart⟩ := h
  induction ds with
  | nil => exact nomatch hd
  | cons first rest ih =>
    cases rest with
    | nil =>
      obtain rfl := List.mem_singleton.mp hd
      exact hpart
    | cons second rest =>
      rcases List.mem_cons.mp hd with rfl | hd
      · exact (hpart.before _).before _
      · exact (ih hd).behind _

end Holds

end Draft

theorem mem_itemDrafts (ctx : Context) {items : List FromItem} {item : FromItem}
    (h : item ∈ items) : item.draft ctx ∈ itemDrafts ctx items := by
  induction items with
  | nil => exact nomatch h
  | cons first rest ih =>
    rcases List.mem_cons.mp h with rfl | h
    · exact List.mem_cons_self
    · exact List.mem_cons_of_mem _ (ih h)

theorem mem_joinDrafts (ctx : Context) {joins : List Join} {j : Join} (h : j ∈ joins) :
    ∃ d ∈ joinDrafts ctx joins,
      Holds (j.item.draft { ctx with nested := true, declares := true }) d := by
  induction joins with
  | nil => exact nomatch h
  | cons first rest ih =>
    rcases List.mem_cons.mp h with rfl | hrest
    · obtain ⟨item, kind, condition⟩ := j
      exact ⟨_, List.mem_cons_self, ((Holds.refl _).behind _).before _⟩
    · obtain ⟨d, hd, hholds⟩ := ih hrest
      obtain ⟨item, kind, condition⟩ := first
      exact ⟨d, List.mem_cons_of_mem _ hd, hholds⟩

namespace Clause

theorem holds_from (ctx : Context) {q : Query} {item : FromItem} (h : item ∈ q.sources)
    (further : List Draft) :
    Holds (item.draft { ctx with nested := true, declares := true })
      (from_ ctx q.parts further) := by
  have hmem := mem_itemDrafts { ctx with nested := true, declares := true } h
  simp only [from_, unlessNone, q.parts_eq]
  split
  · next hnone =>
    rw [List.isEmpty_iff, List.append_eq_nil_iff] at hnone
    rw [hnone.1] at hmem
    exact nomatch hmem
  · exact (Holds.join _ ⟨_, List.mem_append_left _ hmem, .refl _⟩).behind _

theorem holds_joined (ctx : Context) {q : Query} {item : FromItem}
    (h : item ∈ q.joins.map Join.item) :
    Holds (item.draft { ctx with nested := true, declares := true }) (joined ctx q.parts) := by
  obtain ⟨j, hj, rfl⟩ := List.mem_map.mp h
  obtain ⟨d, hd, hholds⟩ := mem_joinDrafts ctx hj
  have hsome : (joinDrafts ctx q.joins).isEmpty = false := by
    rw [List.isEmpty_eq_false_iff]
    exact List.ne_nil_of_mem hd
  simp only [joined, q.parts_eq, hsome]
  exact (Holds.join _ ⟨d, hd, hholds⟩).behind _

end Clause

namespace Query

/-- Whether FROM and the joins are written: there is enough in the statement, and it is no INSERT of
    rows. -/
def writesItems (q : Query) : Bool :=
  !q.isBlank && (q.updateTable.isSome || !(q.inserts && !q.rows.isEmpty))

/-- What a statement reads is written in it. -/
theorem holds_item {q : Query} (hq : q.writesItems = true) {item : FromItem}
    (hitem : item ∈ q.items) (outer : Context) :
    Holds (item.draft (q.itemContext outer)) (q.draft outer) := by
  simp only [writesItems, Bool.and_eq_true, Bool.not_eq_true', Bool.or_eq_true] at hq
  obtain ⟨hblank, hverb⟩ := hq
  have hread : item ∈ q.sources ∨ item ∈ q.joins.map Join.item := List.mem_append.mp hitem
  show Holds _ (Clause.statement outer q q.parts)
  simp only [Clause.statement, hblank, Bool.false_eq_true, if_false]
  -- an UPDATE has its sources where its layout puts them, a selection behind what it selects
  cases hupdate : q.updateTable with
  | some table =>
    refine Holds.before (Holds.behind _ ?_) _
    cases q.dialect.updateLayout with
    | standard =>
      rcases hread with hsource | hjoin
      · exact ((Clause.holds_from _ hsource _).behind _).before _
      · exact (((Clause.holds_joined _ hjoin).before _).before _).before _
    | trailingOrderLimit =>
      rcases hread with hsource | hjoin
      · exact ((((Clause.holds_from _ hsource _).behind _).before _).before _).before _
      · exact (((((Clause.holds_joined _ hjoin).before _).before _).before _).before _).before _
    | fromAfterSet =>
      rcases hread with hsource | hjoin
      · exact (((((Clause.holds_from _ hsource _).behind _).before _).before _).before _).before _
      · exact ((((Clause.holds_joined _ hjoin).behind _).before _).before _).before _
  | none =>
    have hrows : (q.inserts && !q.rows.isEmpty) = false := by simpa [hupdate] using hverb
    simp only [hrows, Bool.false_eq_true, if_false]
    refine Holds.before (Holds.before (Holds.before ?_ _) _) _
    have hselection : Holds (item.draft (q.itemContext outer)) (q.inside outer) := by
      show Holds _ (Clause.selection _ q q.parts)
      simp only [Clause.selection, append_assoc]
      rcases hread with hsource | hjoin
      · exact (((Clause.holds_from _ hsource _).before _).behind _).behind _
      · exact (((((Clause.holds_joined _ hjoin).before _).behind _).behind _).behind _).behind _
          |>.behind _
    simp only [parensIf]
    split
    · exact (hselection.behind _).before _
    · exact hselection

end Query

/-! ## The theorem -/

/-- Columns and stars of an item stand behind what its source puts in front of them. -/
theorem FromItem.column_draft_source (item : FromItem) (ctx : Context) (column : String) :
    (item.column column).draft ctx =
        Source.qualifier ctx (some item.source) ++ token (.ident column) ∧
      item.star.draft ctx = Source.qualifier ctx (some item.source) ++ token .star := by
  refine ⟨?_, rfl⟩
  show Source.qualifier ctx (some item.source) ++ token (.ident column) ++
    ctx.declaration none = _
  rw [ctx.declaration_none, append_empty]

/-- Where columns are qualified, columns and stars of an item are written behind its name. -/
theorem FromItem.column_draft (item : FromItem) {base ctx : Context}
    (hqualified : base.qualified = true) (hc : ctx.Within base) {name : String}
    (hname : item.source.nameIn base = some name) (column : String) :
    (item.column column).draft ctx = Draft.tokens [.ident name, .dot, .ident column] ∧
      item.star.draft ctx = Draft.tokens [.ident name, .dot, .star] := by
  obtain ⟨hcolumn, hstar⟩ := item.column_draft_source ctx column
  constructor
  · rw [hcolumn, hc.qualifier, Source.qualifier_append hqualified hname]
  · rw [hstar, hc.qualifier, Source.qualifier_append hqualified hname]

namespace Query

/-- **Columns are qualified by the name that their source is introduced as**, nested statements that
    read a copy of themselves excepted. Let a statement be built, and be written inside other
    statements that are built. Of an item in its FROM or joins that has a name:
    * all columns and stars are qualified by one name, wherever they are written in the clauses of
      the statement with columns qualified;
    * the item is introduced by this name, unless it is a nested statement that has given a name to
      a copy of itself;
    * a nested statement that has a name in its own scope is introduced by that name.
    A statement that writes its FROM and joins has the item in it as it is introduced. -/
theorem columns_named {q : Query} (hq : q.Built) {builders : List Query}
    (hbuilders : ∀ b ∈ builders, b.Built) {outer : Context}
    (houter : outer.scope = builders.flatMap Query.scope) {item : FromItem} (hitem : item ∈ q.items)
    (hnamed : item.IsNamed (q.itemContext outer)) :
    (∃ name : String,
      (∀ {ctx : Context}, ctx.Within { q.innerContext outer with qualified := true } →
        ∀ column : String,
          (item.column column).draft ctx = Draft.tokens [.ident name, .dot, .ident column] ∧
            item.star.draft ctx = Draft.tokens [.ident name, .dot, .star]) ∧
      (item.namesItself = false → item.Introduces (q.itemContext outer) name) ∧
      ∀ inner : String, item.innerName? = some inner →
        item.Introduces (q.itemContext outer) inner) ∧
    (q.writesItems = true → Holds (item.draft (q.itemContext outer)) (q.draft outer)) := by
  refine ⟨?_, fun hwrites => holds_item hwrites hitem outer⟩
  -- no name in scope is empty, neither the statement's own nor those from outside
  have hproper : (outer.scope.enter q.scope).Proper := by
    refine Scope.Proper.enter ?_ hq.proper
    rw [houter]
    intro entry hentry
    obtain ⟨b, hb, hentry⟩ := List.mem_flatMap.mp hentry
    exact (hbuilders b hb).proper entry hentry
  obtain ⟨name, hname⟩ := hq.exists_name hitem hnamed
  exact ⟨name, fun hc column => item.column_draft rfl hc hname column,
    FromItem.introduces_name rfl hproper hnamed hname,
    fun inner hinner => FromItem.introduces_inner rfl hnamed hinner⟩

/-- A statement reads a table and a nested statement; around it stands a statement that has given
    the first name too. -/
theorem columns_named_nested :
    let t : Table := .named 1 "t"
    let x : Term := .column "x" (some (.table t))
    let inner := ((start 2 .generic).readFrom (.table t)).selectColumn x
    let around := (start 3 .generic).readFrom (.query (inner.withAlias 4 none))
    let q := ((start 5 .generic).readFrom (.table t)).readFrom (.query inner)
    let item := FromItem.query inner
    let outer := { Context.ofDialect .generic with scope := around.scope }
    outer.scope = [(4, "sq0")] ∧ ∃ name : String,
      (item.column "x").draft { q.innerContext outer with qualified := true } =
          Draft.tokens [.ident name, .dot, .ident "x"] ∧
        item.Introduces (q.itemContext outer) name := by
  intro t x inner around q item outer
  have hinner : inner.Built := ⟨2, .generic, [.readFrom (.table t), .select [.name "x"]], rfl⟩
  have haround : around.Built :=
    ⟨3, .generic, [.readFrom (.query (inner.withAlias 4 none))], rfl⟩
  have hq : q.Built := ⟨5, .generic, [.readFrom (.table t), .readFrom item], rfl⟩
  have hnamed : item.IsNamed (q.itemContext outer) := .query hinner rfl nofun
  have hitem : item ∈ q.items := by
    show item ∈ [.table t, item]
    exact List.mem_cons_of_mem _ List.mem_cons_self
  have hbuilders : ∀ b ∈ [around], b.Built := by
    intro b hb
    rw [List.mem_singleton.mp hb]
    exact haround
  have houter : outer.scope = [around].flatMap Query.scope := rfl
  obtain ⟨⟨name, hcolumns, hintroduced, -⟩, -⟩ := columns_named hq hbuilders houter hitem hnamed
  exact ⟨by decide +kernel, name, (hcolumns (.refl _) "x").1, hintroduced rfl⟩

/-- A statement that reads a copy of itself: read by another statement, it is introduced by the name
    of the copy, and its columns are qualified by a name that nothing has. -/
theorem copy_introduced_apart :
    let t : Table := .named 1 "t"
    let x : Term := .column "x" (some (.table t))
    let base := ((start 2 .generic).readFrom (.table t)).selectColumn x
    let item := FromItem.query (base.readFrom (.query base))
    let q := ((start 3 .generic).readFrom item).selectColumn (item.column "x")
    let ctx := Context.ofDialect .generic
    q.Built ∧ item ∈ q.items ∧ item.IsNamed (q.itemContext ctx) ∧
      (∀ name : String,
        (item.column "x").draft { q.innerContext ctx with qualified := true } =
            Draft.tokens [.ident name, .dot, .ident "x"] →
          ¬item.Introduces (q.itemContext ctx) name) ∧
      q.sql.toOption = some ("SELECT \"sq1\".\"x\" FROM (SELECT \"t\".\"x\" FROM \"t\"," ++
        "(SELECT \"x\" FROM \"t\") \"sq0\") \"sq0\"") := by
  intro t x base item q ctx
  have hbuilt : (base.readFrom (.query base)).Built :=
    ⟨2, .generic, [.readFrom (.table t), .select [.name "x"], .readFrom (.query base)], rfl⟩
  have hq : q.Built := ⟨3, .generic, [.readFrom item, .select [.name "x"]], rfl⟩
  refine ⟨hq, List.mem_cons_self, .query hbuilt rfl nofun, ?_, by decide +kernel⟩
  intro name hcolumn hintroduced
  have hqualifier : Piece.number none 0
      ((item.column "x").draft { q.innerContext ctx with qualified := true }).pieces =
        [.ident "sq1", .dot, .ident "x"] := by decide +kernel
  rw [hcolumn] at hqualifier
  obtain rfl : name = "sq1" := by
    simpa [Draft.tokens, Piece.number] using hqualifier
  rcases hintroduced with ⟨-, hdraft⟩ | ⟨hown, -⟩
  · have hwritten := congrArg (fun d => Piece.number none 0 d.pieces) hdraft
    revert hwritten
    decide +kernel
  · cases hown

end Query

end SqlCompose
