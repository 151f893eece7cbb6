import SqlCompose.Proofs.ClauseOrder
import SqlCompose.Query.Rebinding
import SqlCompose.Query.Returning
import SqlCompose.Statement

/-! # Building — a statement is what the calls on its builder make of it

    A statement starts with nothing in it and is changed by one call after the other; the first call
    that is refused ends the building. A call that succeeds changes one clause, or a few that go
    together, and leaves the others as they are. What each call does is said once, so that what is
    kept by all of them is a matter of cases.

    * `Step`, `Step.apply`, `Step.run` — a call, and what one call or a list of calls makes of a
      statement.
    * `Query.Built` — the statements that can be built.
    * `Step.run_invariant` — what every call keeps is kept by a list of calls.
    * `Step.Makes`, `Step.makes` — what each call makes of a statement, and what it asks of it. -/

namespace SqlCompose

/-! ## Calls -/

/-- A call on the builder of a statement. -/
inductive Step
  | readFrom (item : FromItem)
  | withClause (body : FromItem) (name : String) (columns : List Column)
  | join (item : FromItem) (kind : JoinKind) (rows : JoinMatch)
  | withAlias (identity : Identity) (aliasName : Option String)
  | replaceTable (current new : Table)
  | into (t : Table)
  | selectInto (t : Table)
  | update (t : Table)
  | delete
  | insertColumns (columns : List Column)
  | insertRows (rows : List (List Term))
  | replaceRows (rows : List (List Term))
  | set (column : Column) (value : Term)
  | onConflict (columns : List Column)
  | doNothing
  | doUpdate (column : Column) (value : Option Term)
  | onDuplicateKeyUpdate (column : Column) (value : Option Term)
  | onDuplicateKeyIgnore
  | returning (columns : List Column)
  | select (columns : List Column)
  | selectDistinct
  | selectDistinctOn (columns : List Column)
  | selectTop (text : String)
  | modifySelect (word : String)
  | filterBy (criterion : Term)
  | prefilterBy (criterion : Term)
  | filterGroupsBy (criterion : Term)
  | groupBy (columns : List Column)
  | groupTotals
  | rollup (terms : List Term)
  | orderBy (columns : List Column) (direction : Option Direction)
  | take (n : Int64)
  | skip (n : Int64)
  | slice (start stop : Bound)
  | lockRows (lock : Lock)
  | forceIndexes (names : List String)
  | useIndexes (names : List String)

namespace Step

/-- What a call makes of a statement. -/
def apply (q : Query) : Step → Except BuildError Query
  | readFrom item => .ok (q.readFrom item)
  | withClause body name columns => .ok (q.withClause body name columns)
  | join item kind rows => q.join item kind rows
  | withAlias identity aliasName => .ok (q.withAlias identity aliasName)
  | replaceTable current new => .ok (q.replaceTable current new)
  | into t => q.into t
  | selectInto t => q.selectInto t
  | update t => q.update t
  | delete => q.delete
  | insertColumns columns => q.insertColumns columns
  | insertRows rows => q.insertRows rows
  | replaceRows rows => q.replaceRows rows
  | set column value => .ok (q.set column value)
  | onConflict columns => q.onConflict columns
  | doNothing => q.doNothing
  | doUpdate column value => q.doUpdate column value
  | onDuplicateKeyUpdate column value => q.onDuplicateKeyUpdate column value
  | onDuplicateKeyIgnore => q.onDuplicateKeyIgnore
  | returning columns => q.returning columns
  | select columns => q.select columns
  | selectDistinct => .ok q.selectDistinct
  | selectDistinctOn columns => q.selectDistinctOn columns
  | selectTop text => q.selectTop text
  | modifySelect word => q.modifySelect word
  | filterBy criterion => q.filterBy criterion
  | prefilterBy criterion => .ok (q.prefilterBy criterion)
  | filterGroupsBy criterion => .ok (q.filterGroupsBy criterion)
  | groupBy columns => q.groupBy columns
  | groupTotals => .ok q.groupTotals
  | rollup terms => q.rollup terms
  | orderBy columns direction => .ok (q.orderBy columns direction)
  | take n => .ok (q.take n)
  | skip n => .ok (q.skip n)
  | slice start stop => .ok (q.slice start stop)
  | lockRows lock => q.lockRows lock
  | forceIndexes names => .ok (q.forceIndexes names)
  | useIndexes names => .ok (q.useIndexes names)

/-- What one call after the other makes of a statement. -/
def run (q : Query) (steps : List Step) : Except BuildError Query := steps.foldlM apply q

end Step

/-- The statements that can be built. -/
def Query.Built (q : Query) : Prop :=
  ∃ (identity : Identity) (dialect : Dialect) (steps : List Step),
    Step.run (.start identity dialect) steps = .ok q

/-! Statements that start from a table are made by calls as well. -/

namespace Table

/-- The SELECT that a table starts is built by calls. -/
theorem built_select {identity : Identity} {columns : List Column} {t : Table} {q : Query}
    (h : t.select identity columns = .ok q) : q.Built :=
  ⟨identity, .generic, [.readFrom (.table t), .select columns], (bind_pure _).trans h⟩

/-- So is its UPDATE. -/
theorem built_update (identity : Identity) (t : Table) : (t.update identity).Built :=
  ⟨identity, .generic, [.update t], rfl⟩

/-- And so is its INSERT, with the first row. -/
theorem built_insert {identity : Identity} {row : List Term} {t : Table} {q : Query}
    (h : t.insert identity row = .ok q) : q.Built :=
  ⟨identity, .generic, [.into t, .insertRows [row]], (bind_pure _).trans h⟩

end Table

/-! ## Lists of calls -/

/-- What is known of the result of a computation is known of a result that there is. -/
theorem exists_ok_of_map {α β ε : Type} {x : Except ε α} {f : α → β} {b : β}
    (h : x.toOption.map f = some b) : ∃ a, x = .ok a ∧ f a = b := by
  cases x with
  | error e => exact nomatch h
  | ok a => exact ⟨a, rfl, Option.some.inj h⟩

/-- Steps that succeed one after the other start with one that succeeds. -/
theorem foldlM_cons_ok {α β ε : Type} {f : β → α → Except ε β} {a : α} {rest : List α} {b b' : β}
    (h : (a :: rest).foldlM f b = .ok b') : ∃ b₁, f b a = .ok b₁ ∧ rest.foldlM f b₁ = .ok b' := by
  rw [List.foldlM_cons] at h
  cases ha : f b a with
  | error e =>
    rw [ha] at h
    exact nomatch h
  | ok b₁ =>
    rw [ha] at h
    exact ⟨b₁, rfl, h⟩

/-- What every step keeps that succeeds is kept by steps that succeed one after the other. -/
theorem foldlM_invariant {α β ε : Type} {f : β → α → Except ε β} {P : β → Prop}
    (hstep : ∀ {b : β} {a : α} {b' : β}, f b a = .ok b' → P b → P b') {l : List α} {b b' : β}
    (h : l.foldlM f b = .ok b') (hb : P b) : P b' := by
  induction l generalizing b with
  | nil =>
    obtain rfl : b = b' := Except.ok.inj h
    exact hb
  | cons a rest ih =>
    obtain ⟨b₁, ha, hrest⟩ := foldlM_cons_ok h
    exact ih hrest (hstep ha hb)

namespace Step

/-- Calls that succeed start with one that succeeds. -/
theorem run_cons_ok {s : Step} {rest : List Step} {q r : Query} (h : run q (s :: rest) = .ok r) :
    ∃ q', s.apply q = .ok q' ∧ run q' rest = .ok r :=
  foldlM_cons_ok h

/-- What every call keeps is kept by a list of calls. -/
theorem run_invariant {P : Query → Prop}
    (hstep : ∀ {s : Step} {q r : Query}, s.apply q = .ok r → P q → P r) {steps : List Step}
    {q r : Query} (h : run q steps = .ok r) (hq : P q) : P r :=
  foldlM_invariant hstep h hq

end Step

/-- What every argument of a call to select keeps is kept by the call. -/
theorem Query.select_invariant {P : Query → Prop}
    (hone : ∀ {q : Query} {c : Column} {r : Query}, q.selectOne c = .ok r → P q → P r)
    {columns : List Column} {q r : Query} (h : q.select columns = .ok r) (hq : P q) : P r :=
  foldlM_invariant hone h hq

/-- What an empty statement has and every call keeps, every statement has. -/
theorem Query.Built.invariant {P : Query → Prop}
    (hstart : ∀ (identity : Identity) (dialect : Dialect), P (.start identity dialect))
    (hstep : ∀ {s : Step} {q r : Query}, s.apply q = .ok r → P q → P r) {q : Query}
    (hq : q.Built) : P q := by
  obtain ⟨identity, dialect, steps, h⟩ := hq
  exact Step.run_invariant hstep h (hstart identity dialect)

namespace Query

/-! ## Calls about one clause -/

section

variable {q r : Query}

/-- DISTINCT ON gets the columns behind those it had. -/
theorem selectDistinctOn_eq {columns : List Column} (h : q.selectDistinctOn columns = .ok r) :
    r = { q with distinctOn := q.distinctOn ++ columns.map (Column.boundTo none) } := by
  simp only [selectDistinctOn] at h
  split at h
  · exact (Except.ok.inj h).symm
  · exact nomatch h

/-- TOP is a number once it is accepted. -/
theorem selectTop_eq {text : String} (h : q.selectTop text = .ok r) :
    ∃ n : Int64, r = { q with top := some n } := by
  simp only [selectTop] at h
  split at h
  · exact nomatch h
  · split at h
    · exact nomatch h
    · split at h
      · exact ⟨_, (Except.ok.inj h).symm⟩
      · exact nomatch h

/-- A modifier stands behind those that were there. -/
theorem modifySelect_eq {word : String} (h : q.modifySelect word = .ok r) :
    r = { q with modifiers := q.modifiers ++ [word] } := by
  simp only [modifySelect] at h
  split at h
  · exact (Except.ok.inj h).symm
  · exact nomatch h

/-- Columns of an INSERT stand behind those that were there. -/
theorem insertColumns_eq {columns : List Column} (h : q.insertColumns columns = .ok r) :
    ∃ added : List Term, r = { q with columns := q.columns ++ added } := by
  simp only [insertColumns] at h
  split at h
  · exact nomatch h
  · exact ⟨_, (Except.ok.inj h).symm⟩

/-- Rows are added only where something is inserted, and only those with terms. -/
theorem addRows_eq {replaces : Bool} {rows : List (List Term)}
    (h : q.addRows replaces rows = .ok r) :
    q.insertTable ≠ none ∧
      r = { q with rows := q.rows ++ rows.filter (!·.isEmpty), replaces := replaces } := by
  simp only [addRows] at h
  split at h
  · exact nomatch h
  · next hsome => exact ⟨by simpa using hsome, (Except.ok.inj h).symm⟩

/-- Only the terms to group by change. -/
theorem groupBy_eq {columns : List Column} (h : q.groupBy columns = .ok r) :
    ∃ groups : List Term, r = { q with groups := groups } := by
  have h : columns.foldlM groupByOne q = .ok r := h
  refine foldlM_invariant (P := fun r => ∃ groups : List Term, r = { q with groups := groups })
    ?_ h ⟨q.groups, by cases q; rfl⟩
  rintro _ c r h ⟨groups, rfl⟩
  cases c with
  | term t => exact ⟨_, (Except.ok.inj h).symm⟩
  | name bare =>
    simp only [groupByOne] at h
    split at h
    · exact nomatch h
    · exact ⟨_, (Except.ok.inj h).symm⟩

/-- ROLLUP changes the terms to group by, and how they are rolled up. -/
theorem rollup_eq {terms : List Term} (h : q.rollup terms = .ok r) :
    ∃ (groups : List Term) (rolled : Bool),
      r = { q with withRollup := rolled, groups := groups } := by
  simp only [rollup] at h
  split at h
  · split at h
    · exact nomatch h
    · split at h
      · exact nomatch h
      · exact ⟨_, _, (Except.ok.inj h).symm⟩
  · exact ⟨_, q.withRollup, (Except.ok.inj h).symm⟩

/-- A range sets limit and offset, and nothing else. -/
theorem slice_eq (start stop : Bound) (q : Query) :
    ∃ limit offset : Option Int64,
      q.slice start stop = { q with limit := limit, offset := offset } := by
  refine ⟨(q.slice start stop).limit, (q.slice start stop).offset, ?_⟩
  -- a range that is open at both ends changes nothing, which is equal only field by field
  cases q
  cases start <;> cases stop <;> rfl

/-- A column that is returned changes nothing but what is returned. -/
theorem returnColumn_eq {t : Term} (h : q.returnColumn t = .ok r) :
    ∃ (returns : List Term) (all : Bool), r = { q with returns := returns, returnsAll := all } := by
  simp only [returnColumn] at h
  split at h
  · exact ⟨q.returns, q.returnsAll, by cases q; exact (Except.ok.inj h).symm⟩
  · cases hcheck : q.checkReturned t with
    | error e =>
      rw [hcheck] at h
      exact nomatch h
    | ok _ =>
      rw [hcheck] at h
      obtain rfl := Except.ok.inj h
      split
      · exact ⟨_, _, rfl⟩
      · exact ⟨_, q.returnsAll, rfl⟩

theorem returnOne_eq {c : Column} (h : q.returnOne c = .ok r) :
    ∃ (returns : List Term) (all : Bool), r = { q with returns := returns, returnsAll := all } := by
  cases c with
  | name bare =>
    simp only [returnOne, returnName] at h
    split at h
    · exact ⟨_, _, (Except.ok.inj h).symm⟩
    · split at h
      · exact nomatch h
      · exact returnColumn_eq h
  | term t =>
    simp only [returnOne] at h
    split at h
    · exact returnColumn_eq h
    · split at h
      · exact nomatch h
      · cases hcheck : q.checkReturned t with
        | error e =>
          rw [hcheck] at h
          exact nomatch h
        | ok _ =>
          rw [hcheck] at h
          exact ⟨_, q.returnsAll, (Except.ok.inj h).symm⟩

/-- All columns that are returned change nothing but what is returned. -/
theorem returning_eq {columns : List Column} (h : q.returning columns = .ok r) :
    ∃ (returns : List Term) (all : Bool), r = { q with returns := returns, returnsAll := all } := by
  simp only [returning] at h
  split at h
  · refine foldlM_invariant (P := fun r => ∃ (returns : List Term) (all : Bool),
      r = { q with returns := returns, returnsAll := all }) ?_ h
      ⟨q.returns, q.returnsAll, by cases q; rfl⟩
    rintro _ c r hone ⟨_, _, rfl⟩
    obtain ⟨returns, all, rfl⟩ := returnOne_eq hone
    exact ⟨returns, all, rfl⟩
  · exact nomatch h

end

/-! ## Calls about what is changed -/

section

variable {q r : Query}

/-- A table is inserted into only where nothing is changed yet. -/
theorem into_eq {t : Table} (h : q.into t = .ok r) :
    (q.insertTable = none ∧ q.updateTable = none ∧ q.deletes = false) ∧
      r = { q with insertTable := some t, selectsInto := q.selectsInto || !q.selects.isEmpty } := by
  simp only [into] at h
  split at h
  · exact nomatch h
  · next hnone =>
    simp only [Bool.or_eq_true, not_or, Bool.not_eq_true, Option.isSome_eq_false_iff,
      Option.isNone_iff_eq_none] at hnone
    exact ⟨⟨hnone.1.1, hnone.1.2, hnone.2⟩, (Except.ok.inj h).symm⟩

/-- SELECT .. INTO is asked for where nothing is inserted. -/
theorem selectInto_eq {t : Table} (h : q.selectInto t = .ok r) :
    q.insertTable = none ∧ r = { q with insertTable := some t, selectsInto := true } := by
  simp only [selectInto] at h
  cases hinto : q.into t with
  | error e =>
    rw [hinto] at h
    exact nomatch h
  | ok r' =>
    rw [hinto] at h
    obtain ⟨hnone, rfl⟩ := into_eq hinto
    exact ⟨hnone.1, (Except.ok.inj h).symm⟩

/-- A statement without a verb does not insert. -/
theorem insertTable_of_hasVerb (h : q.hasVerb = false) : q.insertTable = none := by
  simp only [hasVerb, Bool.or_eq_false_iff, Option.isSome_eq_false_iff,
    Option.isNone_iff_eq_none] at h
  exact h.2

/-- UPDATE is asked for where there is no verb. -/
theorem update_eq {t : Table} (h : q.update t = .ok r) :
    q.hasVerb = false ∧ r = { q with updateTable := some t } := by
  simp only [update] at h
  split at h
  · exact nomatch h
  · next hverb => exact ⟨by simpa using hverb, (Except.ok.inj h).symm⟩

/-- And so is DELETE. -/
theorem delete_eq (h : q.delete = .ok r) :
    q.hasVerb = false ∧ r = { q with deletes := true } := by
  simp only [delete] at h
  split at h
  · exact nomatch h
  · next hverb => exact ⟨by simpa using hverb, (Except.ok.inj h).symm⟩

/-- While a conflict clause is open, criteria for rows are criteria for conflicts. -/
theorem filterBy_of_criterion {criterion : Term} (hopen : q.conflict.isOpen = true)
    (hempty : criterion.isEmpty = false) (h : q.filterBy criterion = .ok r) :
    ∃ c, q.conflict.filterBy criterion = .ok c ∧ r = { q with conflict := c } := by
  simp only [filterBy, hempty, hopen, Bool.false_eq_true, if_true, if_false] at h
  cases hfilter : q.conflict.filterBy criterion with
  | error e =>
    rw [hfilter] at h
    cases h
  | ok c =>
    rw [hfilter] at h
    exact ⟨c, rfl, (Except.ok.inj h).symm⟩

/-- A conflict clause is opened where something is inserted, and gets columns. -/
theorem onConflict_eq {columns : List Column} (h : q.onConflict columns = .ok r) :
    ∃ t, q.insertTable = some t ∧
      r = { q with conflict :=
        { q.conflict with
          isOpen := true
          fields := q.conflict.fields ++ columns.map (Column.boundTo (some (.table t))) } } := by
  simp only [onConflict, insertSource?] at h
  cases ht : q.insertTable with
  | none =>
    rw [ht] at h
    exact nomatch h
  | some t =>
    rw [ht] at h
    exact ⟨t, rfl, (Except.ok.inj h).symm⟩

/-- Conflicting rows are skipped where none are updated. -/
theorem doNothing_eq (h : q.doNothing = .ok r) :
    q.conflict.resolutions = [] ∧
      r = { q with conflict := { q.conflict with doNothing := true } } := by
  simp only [doNothing] at h
  split at h
  · next hnone => exact ⟨by simpa using hnone, (Except.ok.inj h).symm⟩
  · exact nomatch h

/-- An update of conflicting rows is added behind the others. -/
theorem doUpdate_eq {column : Column} {value : Option Term} (h : q.doUpdate column value = .ok r) :
    q.conflict.doNothing = false ∧
      r = { q with conflict :=
        { q.conflict with
          resolutions := q.conflict.resolutions ++
            [⟨column.boundTo q.insertSource?, value⟩] } } := by
  simp only [doUpdate] at h
  split at h
  · exact nomatch h
  · next hnothing => exact ⟨by simpa using hnothing, (Except.ok.inj h).symm⟩

/-- ON DUPLICATE KEY UPDATE opens a conflict clause and updates rows in it. -/
theorem onDuplicateKeyUpdate_eq {column : Column} {value : Option Term}
    (h : q.onDuplicateKeyUpdate column value = .ok r) :
    q.insertTable ≠ none ∧
      ({ q with conflict := { q.conflict with isOpen := true } } : Query).doUpdate column value =
        .ok r := by
  simp only [onDuplicateKeyUpdate] at h
  split at h
  · exact nomatch h
  · split at h
    · exact nomatch h
    · next hsome => exact ⟨by simpa using hsome, h⟩

/-- Skipping duplicate keys is skipping conflicting rows. -/
theorem onDuplicateKeyIgnore_eq (h : q.onDuplicateKeyIgnore = .ok r) : q.doNothing = .ok r := by
  simp only [onDuplicateKeyIgnore] at h
  split at h
  · exact h
  · exact nomatch h

end

/-- What is read is added to the sources, under a name if need be. -/
theorem readFrom_eq (item : FromItem) (q : Query) :
    ∃ (scope : Scope) (count : Nat),
      q.readFrom item =
        { q with scope := scope, subqueryCount := count, sources := q.sources ++ [item] } := by
  simp only [readFrom]
  split
  · exact ⟨_, _, rfl⟩
  · exact ⟨q.scope, q.subqueryCount, by cases q; rfl⟩

end Query

/-! ## What a call makes of a statement -/

namespace Step

variable {s : Step} {q r : Query}

/-- What a call makes of a statement where it succeeds, and what it asks of the statement for that.
    The names of what is read and the terms of some clauses are left open: how these are found is
    said where they matter. -/
inductive Makes (q : Query) : Step → Query → Prop
  | readFrom {item : FromItem} {scope : Scope} {count : Nat} :
    Makes q (.readFrom item)
      { q with scope := scope, subqueryCount := count, sources := q.sources ++ [item] }
  | withClause {body : FromItem} {name : String} {columns : List Column} :
    Makes q (.withClause body name columns) (q.withClause body name columns)
  | join {item : FromItem} {kind : JoinKind} {rows : JoinMatch} {j : Join} {scope : Scope}
      {count : Nat} (hitem : j.item = item) :
    Makes q (.join item kind rows)
      { q with scope := scope, subqueryCount := count, joins := q.joins ++ [j] }
  | withAlias {identity : Identity} {aliasName : Option String} :
    Makes q (.withAlias identity aliasName) (q.withAlias identity aliasName)
  | replaceTable {current new : Table} :
    Makes q (.replaceTable current new) (q.replaceTable current new)
  | into {t : Table}
      (hnone : q.insertTable = none ∧ q.updateTable = none ∧ q.deletes = false) :
    Makes q (.into t)
      { q with insertTable := some t, selectsInto := q.selectsInto || !q.selects.isEmpty }
  | selectInto {t : Table} (hnone : q.insertTable = none) :
    Makes q (.selectInto t) { q with insertTable := some t, selectsInto := true }
  | update {t : Table} (hverb : q.hasVerb = false) :
    Makes q (.update t) { q with updateTable := some t }
  | delete (hverb : q.hasVerb = false) : Makes q .delete { q with deletes := true }
  | insertColumns {columns : List Column} {added : List Term} :
    Makes q (.insertColumns columns) { q with columns := q.columns ++ added }
  | insertRows {rows : List (List Term)} (htable : q.insertTable ≠ none) :
    Makes q (.insertRows rows)
      { q with rows := q.rows ++ rows.filter (!·.isEmpty), replaces := false }
  | replaceRows {rows : List (List Term)} (htable : q.insertTable ≠ none) :
    Makes q (.replaceRows rows)
      { q with rows := q.rows ++ rows.filter (!·.isEmpty), replaces := true }
  | set {column : Column} {value : Term} : Makes q (.set column value) (q.set column value)
  | onConflict {columns : List Column} {t : Table} (htable : q.insertTable = some t) :
    Makes q (.onConflict columns)
      { q with conflict :=
        { q.conflict with
          isOpen := true
          fields := q.conflict.fields ++ columns.map (Column.boundTo (some (.table t))) } }
  | doNothing (hnone : q.conflict.resolutions = []) :
    Makes q .doNothing { q with conflict := { q.conflict with doNothing := true } }
  | doUpdate {column : Column} {value : Option Term} (hnothing : q.conflict.doNothing = false) :
    Makes q (.doUpdate column value)
      { q with conflict :=
        { q.conflict with
          resolutions := q.conflict.resolutions ++ [⟨column.boundTo q.insertSource?, value⟩] } }
  | onDuplicateKeyUpdate {column : Column} {value : Option Term} (htable : q.insertTable ≠ none)
      (hnothing : q.conflict.doNothing = false) :
    Makes q (.onDuplicateKeyUpdate column value)
      { q with conflict :=
        { q.conflict with
          isOpen := true
          resolutions := q.conflict.resolutions ++ [⟨column.boundTo q.insertSource?, value⟩] } }
  | onDuplicateKeyIgnore (hnone : q.conflict.resolutions = []) :
    Makes q .onDuplicateKeyIgnore { q with conflict := { q.conflict with doNothing := true } }
  | returning {columns : List Column} {returns : List Term} {all : Bool} :
    Makes q (.returning columns) { q with returns := returns, returnsAll := all }
  | select {columns : List Column} {selects : List Term} {all : Bool}
      {starred : List (Option Source)} :
    Makes q (.select columns)
      { q with selects := selects, selectsAll := all, starred := starred }
  | selectDistinct : Makes q .selectDistinct q.selectDistinct
  | selectDistinctOn {columns : List Column} :
    Makes q (.selectDistinctOn columns)
      { q with distinctOn := q.distinctOn ++ columns.map (Column.boundTo none) }
  | selectTop {text : String} {n : Int64} : Makes q (.selectTop text) { q with top := some n }
  | modifySelect {word : String} :
    Makes q (.modifySelect word) { q with modifiers := q.modifiers ++ [word] }
  /-- An empty criterion asks for nothing. -/
  | skipped {criterion : Term} (hempty : criterion.isEmpty = true) :
    Makes q (.filterBy criterion) q
  | filtered {criterion : Term} (hempty : criterion.isEmpty = false)
      (hopen : q.conflict.isOpen = false) :
    Makes q (.filterBy criterion)
      { q.noteSources criterion with filter := q.filter.and criterion }
  /-- While a conflict clause is open, a criterion is about conflicts. -/
  | conflictFiltered {criterion : Term} {c : Conflict} (hempty : criterion.isEmpty = false)
      (hopen : q.conflict.isOpen = true) (hfilter : q.conflict.filterBy criterion = .ok c) :
    Makes q (.filterBy criterion) { q with conflict := c }
  | prefilterBy {criterion : Term} : Makes q (.prefilterBy criterion) (q.prefilterBy criterion)
  | filterGroupsBy {criterion : Term} :
    Makes q (.filterGroupsBy criterion) (q.filterGroupsBy criterion)
  | groupBy {columns : List Column} {groups : List Term} :
    Makes q (.groupBy columns) { q with groups := groups }
  | groupTotals : Makes q .groupTotals q.groupTotals
  | rollup {terms groups : List Term} {rolled : Bool} :
    Makes q (.rollup terms) { q with withRollup := rolled, groups := groups }
  | orderBy {columns : List Column} {direction : Option Direction} :
    Makes q (.orderBy columns direction) (q.orderBy columns direction)
  | take {n : Int64} : Makes q (.take n) (q.take n)
  | skip {n : Int64} : Makes q (.skip n) (q.skip n)
  | slice {start stop : Bound} {limit offset : Option Int64} :
    Makes q (.slice start stop) { q with limit := limit, offset := offset }
  | lockRows {lock : Lock} : Makes q (.lockRows lock) { q with lock := some lock }
  | forceIndexes {names : List String} : Makes q (.forceIndexes names) (q.forceIndexes names)
  | useIndexes {names : List String} : Makes q (.useIndexes names) (q.useIndexes names)

/-- A criterion for rows is about rows, about conflicts, or about nothing. -/
theorem makes_filterBy {criterion : Term} (h : q.filterBy criterion = .ok r) :
    Makes q (.filterBy criterion) r := by
  cases hempty : criterion.isEmpty with
  | true =>
    obtain rfl : q = r := Except.ok.inj ((if_pos hempty).symm.trans h)
    exact .skipped hempty
  | false =>
    cases hopen : q.conflict.isOpen with
    | true =>
      obtain ⟨c, hfilter, rfl⟩ := Query.filterBy_of_criterion hopen hempty h
      exact .conflictFiltered hempty hopen hfilter
    | false =>
      rcases Query.filterBy_eq hopen h with ⟨hskipped, -⟩ | rfl
      · exact Bool.noConfusion (hempty.symm.trans hskipped)
      · exact .filtered hempty hopen

/-- A call that succeeds makes of a statement what it says. Whatever is known of all calls is proved
    by the cases of this. -/
theorem makes (h : s.apply q = .ok r) : s.Makes q r := by
  -- calls that can be refused are taken apart by their own lemmas, the others make what they say
  cases s with
  | readFrom item =>
    obtain rfl := Except.ok.inj h
    obtain ⟨scope, count, hread⟩ := q.readFrom_eq item
    rw [hread]
    exact .readFrom
  | join item kind rows =>
    obtain ⟨j, hitem, rfl⟩ := Query.join_named h
    obtain ⟨scope, count, hnamed⟩ := q.nameJoined_eq item
    obtain ⟨scope', hself⟩ := (q.nameJoined item).nameSelfJoined_eq item
    rw [hself, hnamed]
    exact .join hitem
  | into t =>
    obtain ⟨hnone, rfl⟩ := Query.into_eq h
    exact .into hnone
  | selectInto t =>
    obtain ⟨hnone, rfl⟩ := Query.selectInto_eq h
    exact .selectInto hnone
  | update t =>
    obtain ⟨hverb, rfl⟩ := Query.update_eq h
    exact .update hverb
  | delete =>
    obtain ⟨hverb, rfl⟩ := Query.delete_eq h
    exact .delete hverb
  | insertColumns columns =>
    obtain ⟨added, rfl⟩ := Query.insertColumns_eq h
    exact .insertColumns
  | insertRows rows =>
    obtain ⟨htable, rfl⟩ := Query.addRows_eq h
    exact .insertRows htable
  | replaceRows rows =>
    obtain ⟨htable, rfl⟩ := Query.addRows_eq h
    exact .replaceRows htable
  | onConflict columns =>
    obtain ⟨t, htable, rfl⟩ := Query.onConflict_eq h
    exact .onConflict htable
  | doNothing =>
    obtain ⟨hnone, rfl⟩ := Query.doNothing_eq h
    exact .doNothing hnone
  | doUpdate column value =>
    obtain ⟨hnothing, rfl⟩ := Query.doUpdate_eq h
    exact .doUpdate hnothing
  | onDuplicateKeyUpdate column value =>
    obtain ⟨htable, h⟩ := Query.onDuplicateKeyUpdate_eq h
    obtain ⟨hnothing, rfl⟩ := Query.doUpdate_eq h
    exact .onDuplicateKeyUpdate htable hnothing
  | onDuplicateKeyIgnore =>
    obtain ⟨hnone, rfl⟩ := Query.doNothing_eq (Query.onDuplicateKeyIgnore_eq h)
    exact .onDuplicateKeyIgnore hnone
  | returning columns =>
    obtain ⟨returns, all, rfl⟩ := Query.returning_eq h
    exact .returning
  | select columns =>
    obtain ⟨selects, all, starred, rfl⟩ := Query.select_eq h
    exact .select
  | selectDistinctOn columns =>
    obtain rfl := Query.selectDistinctOn_eq h
    exact .selectDistinctOn
  | selectTop text =>
    obtain ⟨n, rfl⟩ := Query.selectTop_eq h
    exact .selectTop
  | modifySelect word =>
    obtain rfl := Query.modifySelect_eq h
    exact .modifySelect
  | filterBy criterion => exact makes_filterBy h
  | groupBy columns =>
    obtain ⟨groups, rfl⟩ := Query.groupBy_eq h
    exact .groupBy
  | rollup terms =>
    obtain ⟨groups, rolled, rfl⟩ := Query.rollup_eq h
    exact .rollup
  | slice start stop =>
    obtain rfl := Except.ok.inj h
    obtain ⟨limit, offset, hslice⟩ := q.slice_eq start stop
    rw [hslice]
    exact .slice
  | lockRows lock =>
    obtain rfl := Query.lockRows_eq h
    exact .lockRows
  | _ =>
    obtain rfl := Except.ok.inj h
    constructor

end Step

end SqlCompose
