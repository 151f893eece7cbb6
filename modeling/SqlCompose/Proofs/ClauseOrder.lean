import SqlCompose.Query.Arranging
import SqlCompose.Query.Selecting
import SqlCompose.Render

/-! # The order of clauses — a statement does not show when its clauses were added

    Each clause of a statement has fields of its own. What is added to a clause is read and written
    in these fields, whatever is in those of other clauses; so two lists of additions that are the
    same clause by clause leave the same fields. The note that a criterion names a foreign source is
    the one exception, as it depends on the joins that are there when the criterion is added. It is
    not seen in what is written: with a join, columns are qualified anyway, and without one it
    depends on the criteria alone.

    * `Addition` — what can be added, and the clause to which it is added.
    * `Query.only` — the statement with one clause alone.
    * `Addition.only_addTo`, `Addition.only_of_addTo` — an addition to a clause does not look at
      others and does not change them.
    * `Addition.only_run` — the same for a list of additions.
    * `Addition.foreignSource_run` — the note, where there are no joins.
    * `Addition.render_eq` — the theorem. -/

namespace SqlCompose

/-! ## Additions -/

/-- The clauses to which something can be added. -/
inductive AddedClause
  | joins | filter | prefilter | groupFilter | selects | groups | orderings | limit | offset
  | distinct | totals | forcedIndexes | usedIndexes | lock
deriving DecidableEq

/-- Something that is added to a statement; groups and order are given as terms. -/
inductive Addition
  | join (item : FromItem) (kind : JoinKind) (rows : JoinMatch)
  | filter (criterion : Term)
  | prefilter (criterion : Term)
  | groupFilter (criterion : Term)
  | select (columns : List Column)
  | groups (terms : List Term)
  | orderings (terms : List Term) (direction : Option Direction)
  | limit (n : Int64)
  | offset (n : Int64)
  | distinct
  | totals
  | forcedIndexes (names : List String)
  | usedIndexes (names : List String)
  | lock (rows : Lock)

namespace Addition

/-- The clause to which it is added. -/
def clause : Addition → AddedClause
  | join _ _ _ => .joins
  | filter _ => .filter
  | prefilter _ => .prefilter
  | groupFilter _ => .groupFilter
  | select _ => .selects
  | groups _ => .groups
  | orderings _ _ => .orderings
  | limit _ => .limit
  | offset _ => .offset
  | distinct => .distinct
  | totals => .totals
  | forcedIndexes _ => .forcedIndexes
  | usedIndexes _ => .usedIndexes
  | lock _ => .lock

/-- The statement with it added. -/
def addTo (q : Query) : Addition → Except BuildError Query
  | join item kind rows => q.join item kind rows
  | filter criterion => q.filterBy criterion
  | prefilter criterion => .ok (q.prefilterBy criterion)
  | groupFilter criterion => .ok (q.filterGroupsBy criterion)
  | select columns => q.select columns
  | groups terms => q.groupBy (terms.map .term)
  | orderings terms direction => .ok (q.orderBy (terms.map .term) direction)
  | limit n => .ok (q.take n)
  | offset n => .ok (q.skip n)
  | distinct => .ok q.selectDistinct
  | totals => .ok q.groupTotals
  | forcedIndexes names => .ok (q.forceIndexes names)
  | usedIndexes names => .ok (q.useIndexes names)
  | lock rows => q.lockRows rows

/-- The statement with one after the other added. -/
def run (q : Query) (additions : List Addition) : Except BuildError Query :=
  additions.foldlM addTo q

end Addition

/-! ## One clause alone -/

/-- What belongs to a clause, or else what is there when the clause is not looked at. -/
def AddedClause.keep {α : Type} (k own : AddedClause) (there default : α) : α :=
  if k = own then there else default

namespace Query

open AddedClause (keep)

/-- The statement with the fields of one clause and those that belong to none of the clauses. The
    names given to sources belong to the joins. -/
def only (k : AddedClause) (q : Query) : Query :=
  { q with
    joins := keep k .joins q.joins []
    scope := keep k .joins q.scope []
    subqueryCount := keep k .joins q.subqueryCount 0
    filter := keep k .filter q.filter .empty
    prefilter := keep k .prefilter q.prefilter .empty
    groupFilter := keep k .groupFilter q.groupFilter .empty
    selects := keep k .selects q.selects []
    selectsAll := keep k .selects q.selectsAll false
    starred := keep k .selects q.starred []
    groups := keep k .groups q.groups []
    orderings := keep k .orderings q.orderings []
    limit := keep k .limit q.limit none
    offset := keep k .offset q.offset none
    distinct := keep k .distinct q.distinct false
    withTotals := keep k .totals q.withTotals false
    forcedIndexes := keep k .forcedIndexes q.forcedIndexes []
    usedIndexes := keep k .usedIndexes q.usedIndexes []
    lock := keep k .lock q.lock none
    foreignSource := false }

/-- Statements that agree in each of their clauses differ at most in what is noted about
    criteria. -/
theorem eq_of_only {q r : Query} (h : ∀ k, q.only k = r.only k) :
    q = { r with foreignSource := q.foreignSource } := by
  -- any clause tells the fields that belong to none of them
  cases q
  cases r
  simp only [Query.mk.injEq, and_true]
  exact ⟨(congrArg Query.dialect (h .limit) :),
    (congrArg Query.slot (h .limit) :),
    (congrArg Query.sources (h .limit) :),
    (congrArg Query.ctes (h .limit) :),
    (congrArg Query.selects (h .selects) :),
    (congrArg Query.selectsAll (h .selects) :),
    (congrArg Query.starred (h .selects) :),
    (congrArg Query.distinct (h .distinct) :),
    (congrArg Query.distinctOn (h .limit) :),
    (congrArg Query.top (h .limit) :),
    (congrArg Query.modifiers (h .limit) :),
    (congrArg Query.insertTable (h .limit) :),
    (congrArg Query.updateTable (h .limit) :),
    (congrArg Query.deletes (h .limit) :),
    (congrArg Query.replaces (h .limit) :),
    (congrArg Query.selectsInto (h .limit) :),
    (congrArg Query.columns (h .limit) :),
    (congrArg Query.rows (h .limit) :),
    (congrArg Query.assignments (h .limit) :),
    (congrArg Query.forcedIndexes (h .forcedIndexes) :),
    (congrArg Query.usedIndexes (h .usedIndexes) :),
    (congrArg Query.joins (h .joins) :),
    (congrArg Query.prefilter (h .prefilter) :),
    (congrArg Query.filter (h .filter) :),
    (congrArg Query.groups (h .groups) :),
    (congrArg Query.withTotals (h .totals) :),
    (congrArg Query.withRollup (h .limit) :),
    (congrArg Query.groupFilter (h .groupFilter) :),
    (congrArg Query.orderings (h .orderings) :),
    (congrArg Query.limit (h .limit) :),
    (congrArg Query.offset (h .offset) :),
    (congrArg Query.lock (h .lock) :),
    (congrArg Query.conflict (h .limit) :),
    (congrArg Query.returns (h .limit) :),
    (congrArg Query.returnsAll (h .limit) :),
    (congrArg Query.subqueryCount (h .joins) :),
    (congrArg Query.scope (h .joins) :)⟩

/-! ## The joins alone -/

/-- Naming an item concerns nothing but the joins. -/
theorem only_joins_nameJoined (item : FromItem) (q : Query) :
    (q.only .joins).nameJoined item = (q.nameJoined item).only .joins := by
  have hslot : (q.only .joins).unnamedSlot? item = q.unnamedSlot? item := rfl
  simp only [nameJoined, hslot]
  split <;> rfl

/-- So does naming a table that is joined to itself. -/
theorem only_joins_nameSelfJoined (item : FromItem) (q : Query) :
    (q.only .joins).nameSelfJoined item = (q.nameSelfJoined item).only .joins := by
  have hslot : (q.only .joins).unnamedSlot? item = q.unnamedSlot? item := rfl
  have hreadable : (q.only .joins).readable = q.readable := rfl
  simp only [nameSelfJoined, hslot, hreadable]
  split
  · split <;> rfl
  · rfl

/-- So does adding a join. -/
theorem only_joins_addJoin (j : Join) (q : Query) :
    (q.only .joins).addJoin j = (q.addJoin j).map (only .joins) := by
  have hreadable : (q.only .joins).readable = q.readable := rfl
  have hjoins : (q.only .joins).joins = q.joins := rfl
  simp only [addJoin, hreadable, hjoins, only_joins_nameSelfJoined]
  split <;> rfl

/-- So does joining on a criterion. -/
theorem only_joins_joinOn (item : FromItem) (kind : JoinKind) (criterion : Term)
    (collation : Option String) (q : Query) :
    (q.only .joins).joinOn item kind criterion collation =
      (q.joinOn item kind criterion collation).map (only .joins) := by
  simp only [joinOn, only_joins_addJoin]
  split <;> rfl

/-- So does a join of any kind. -/
theorem only_joins_join (item : FromItem) (kind : JoinKind) (rows : JoinMatch) (q : Query) :
    (q.only .joins).join item kind rows = (q.join item kind rows).map (only .joins) := by
  have hsources : ((q.nameJoined item).only .joins).sources = (q.nameJoined item).sources := rfl
  cases rows with
  | on criterion collation =>
    simp only [join, only_joins_nameJoined, only_joins_joinOn]
  | onFields names =>
    simp only [join, only_joins_nameJoined, only_joins_joinOn, hsources]
    split
    · rfl
    · split <;> rfl
  | «using» names =>
    simp only [join, only_joins_nameJoined, only_joins_addJoin]
    split <;> rfl
  | cross => simp only [join, only_joins_nameJoined, only_joins_addJoin]

/-! ## The select list alone -/

/-- Selecting a column concerns nothing but what is selected. -/
theorem only_selects_selectColumn (t : Term) (q : Query) :
    (q.only .selects).selectColumn t = (q.selectColumn t).only .selects := by
  have hall : (q.only .selects).selectsAll = q.selectsAll := rfl
  have hstarred : (q.only .selects).starred = q.starred := rfl
  simp only [selectColumn, hall, hstarred]
  split
  · rfl
  · split <;> rfl

/-- So does selecting a column, a name or a star. -/
theorem only_selects_selectOne (c : Column) (q : Query) :
    (q.only .selects).selectOne c = (q.selectOne c).map (only .selects) := by
  have hsource : (q.only .selects).firstSource? = q.firstSource? := rfl
  cases c with
  | name bare =>
    simp only [selectOne, selectName, hsource, only_selects_selectColumn]
    split
    · rfl
    · split <;> rfl
  | term t =>
    simp only [selectOne, only_selects_selectColumn]
    split <;> rfl

/-- So does selecting all of them. -/
theorem only_selects_select (columns : List Column) (q : Query) :
    (q.only .selects).select columns = (q.select columns).map (only .selects) := by
  induction columns generalizing q with
  | nil => rfl
  | cons c rest ih =>
    show ((q.only .selects).selectOne c).bind (select rest) =
      ((q.selectOne c).bind (select rest)).map (only .selects)
    rw [only_selects_selectOne]
    cases q.selectOne c with
    | error e => rfl
    | ok r => exact ih r

/-! ## What an addition changes -/

/-- Naming an item changes the scope and the number of subqueries at most. -/
theorem nameJoined_eq (item : FromItem) (q : Query) :
    ∃ (scope : Scope) (count : Nat),
      q.nameJoined item = { q with scope := scope, subqueryCount := count } := by
  simp only [nameJoined]
  split
  · exact ⟨_, _, rfl⟩
  · exact ⟨q.scope, q.subqueryCount, by cases q; rfl⟩

/-- Naming a table that is joined to itself changes the scope at most. -/
theorem nameSelfJoined_eq (item : FromItem) (q : Query) :
    ∃ scope : Scope, q.nameSelfJoined item = { q with scope := scope } := by
  have hsame : ∃ scope : Scope, q = { q with scope := scope } := ⟨q.scope, by cases q; rfl⟩
  simp only [nameSelfJoined]
  split
  · split
    · exact ⟨_, rfl⟩
    · exact hsame
  · exact hsame

/-- A join is added behind the others, its item named if need be. -/
theorem addJoin_eq {j : Join} {q r : Query} (h : q.addJoin j = .ok r) :
    r = { q.nameSelfJoined j.item with joins := q.joins ++ [j] } := by
  have hjoins : (q.nameSelfJoined j.item).joins = q.joins := by
    obtain ⟨scope, hnamed⟩ := q.nameSelfJoined_eq j.item
    rw [hnamed]
  simp only [addJoin] at h
  split at h
  · rw [hjoins] at h
    exact (Except.ok.inj h).symm
  · exact nomatch h

/-- Joining on a criterion adds one join with the item. -/
theorem joinOn_eq {item : FromItem} {kind : JoinKind} {criterion : Term}
    {collation : Option String} {q r : Query}
    (h : q.joinOn item kind criterion collation = .ok r) :
    ∃ j : Join, j.item = item ∧ r = { q.nameSelfJoined item with joins := q.joins ++ [j] } := by
  simp only [joinOn] at h
  split at h
  · exact nomatch h
  · exact ⟨_, rfl, addJoin_eq h⟩

/-- A join names the joined item and adds one join. -/
theorem join_named {item : FromItem} {kind : JoinKind} {rows : JoinMatch} {q r : Query}
    (h : q.join item kind rows = .ok r) :
    ∃ j : Join, j.item = item ∧
      r = { (q.nameJoined item).nameSelfJoined item with joins := q.joins ++ [j] } := by
  have hjoins : (q.nameJoined item).joins = q.joins := by
    obtain ⟨scope, count, hnamed⟩ := q.nameJoined_eq item
    rw [hnamed]
  rw [← hjoins]
  cases rows with
  | on criterion collation => exact joinOn_eq h
  | onFields names =>
    simp only [join] at h
    split at h
    · exact nomatch h
    · split at h
      · exact nomatch h
      · exact joinOn_eq h
  | «using» names =>
    simp only [join] at h
    split at h
    · exact nomatch h
    · exact ⟨_, rfl, addJoin_eq h⟩
  | cross =>
    have h : (q.nameJoined item).addJoin ⟨item, .cross, .none⟩ = .ok r := h
    exact ⟨_, rfl, addJoin_eq h⟩

/-- Nothing else is changed by a join. -/
theorem join_eq {item : FromItem} {kind : JoinKind} {rows : JoinMatch} {q r : Query}
    (h : q.join item kind rows = .ok r) :
    ∃ (j : Join) (scope : Scope) (count : Nat),
      r = { q with scope := scope, subqueryCount := count, joins := q.joins ++ [j] } := by
  obtain ⟨j, -, rfl⟩ := join_named h
  obtain ⟨scope, count, hnamed⟩ := q.nameJoined_eq item
  obtain ⟨scope', hself⟩ := (q.nameJoined item).nameSelfJoined_eq item
  rw [hself, hnamed]
  exact ⟨j, scope', count, rfl⟩

/-- Selecting a column changes what is selected, and which stars are noted. -/
theorem selectColumn_eq (t : Term) (q : Query) :
    ∃ (selects : List Term) (starred : List (Option Source)),
      q.selectColumn t = { q with selects := selects, starred := starred } := by
  simp only [selectColumn]
  split
  · exact ⟨q.selects, q.starred, by cases q; rfl⟩
  · split
    · exact ⟨_, _, rfl⟩
    · exact ⟨_, q.starred, rfl⟩

/-- Selecting anything changes nothing else. -/
theorem selectOne_eq {c : Column} {q r : Query} (h : q.selectOne c = .ok r) :
    ∃ (selects : List Term) (all : Bool) (starred : List (Option Source)),
      r = { q with selects := selects, selectsAll := all, starred := starred } := by
  have hcolumn : ∀ t : Term, q.selectColumn t = r →
      ∃ (selects : List Term) (all : Bool) (starred : List (Option Source)),
        r = { q with selects := selects, selectsAll := all, starred := starred } := by
    intro t ht
    obtain ⟨selects, starred, hselected⟩ := q.selectColumn_eq t
    exact ⟨selects, q.selectsAll, starred, ht.symm.trans hselected⟩
  cases c with
  | name bare =>
    simp only [selectOne, selectName] at h
    split at h
    · exact nomatch h
    · split at h
      · exact ⟨_, true, q.starred, (Except.ok.inj h).symm⟩
      · exact hcolumn _ (Except.ok.inj h)
  | term t =>
    simp only [selectOne] at h
    split at h
    · exact hcolumn _ (Except.ok.inj h)
    · exact ⟨_, q.selectsAll, q.starred, (Except.ok.inj h).symm⟩

/-- Arguments that are selected start with one that is. -/
theorem select_cons_ok {c : Column} {rest : List Column} {q r : Query}
    (h : q.select (c :: rest) = .ok r) : ∃ q', q.selectOne c = .ok q' ∧ q'.select rest = .ok r := by
  have h : (q.selectOne c).bind (select rest) = .ok r := h
  cases hone : q.selectOne c with
  | error e =>
    rw [hone] at h
    exact nomatch h
  | ok q' =>
    rw [hone] at h
    exact ⟨q', rfl, h⟩

/-- What is selected goes to the select list. -/
theorem select_eq {columns : List Column} {q r : Query} (h : q.select columns = .ok r) :
    ∃ (selects : List Term) (all : Bool) (starred : List (Option Source)),
      r = { q with selects := selects, selectsAll := all, starred := starred } := by
  induction columns generalizing q with
  | nil =>
    refine ⟨q.selects, q.selectsAll, q.starred, ?_⟩
    obtain rfl : q = r := Except.ok.inj h
    cases q
    rfl
  | cons c rest ih =>
    obtain ⟨q', hone, hrest⟩ := select_cons_ok h
    obtain ⟨selects, all, starred, hr⟩ := ih hrest
    obtain ⟨_, _, _, rfl⟩ := selectOne_eq hone
    exact ⟨selects, all, starred, hr⟩

/-- Terms are added to the groups as they are. -/
theorem groupBy_terms (terms : List Term) (q : Query) :
    q.groupBy (terms.map .term) = .ok { q with groups := q.groups ++ terms } := by
  induction terms generalizing q with
  | nil =>
    show Except.ok q = .ok { q with groups := q.groups ++ [] }
    rw [List.append_nil]
    cases q
    rfl
  | cons t rest ih =>
    show ({ q with groups := q.groups ++ [t] } : Query).groupBy (rest.map .term) = _
    rw [ih]
    show Except.ok { q with groups := q.groups ++ [t] ++ rest } = _
    rw [List.append_assoc]
    rfl

/-- While no conflict clause is open, a criterion for rows is noted and added to the others; the
    empty one changes nothing. -/
theorem filterBy_eq {criterion : Term} {q r : Query} (hopen : q.conflict.isOpen = false)
    (h : q.filterBy criterion = .ok r) :
    (criterion.isEmpty = true ∧ r = q) ∨
      r = { q.noteSources criterion with filter := q.filter.and criterion } := by
  simp only [filterBy, hopen, Bool.false_eq_true, if_false] at h
  split at h
  · next hempty => exact .inl ⟨hempty, (Except.ok.inj h).symm⟩
  · exact .inr (Except.ok.inj h).symm

/-- A lock is set, or it is refused. -/
theorem lockRows_eq {lock : Lock} {q r : Query} (h : q.lockRows lock = .ok r) :
    r = { q with lock := some lock } := by
  simp only [lockRows] at h
  split at h
  · exact nomatch h
  · exact (Except.ok.inj h).symm

end Query

namespace Addition

/-- An addition to a clause looks at no other clause. -/
theorem only_addTo (a : Addition) (q : Query) :
    (a.addTo (q.only a.clause)).map (Query.only a.clause) =
      (a.addTo q).map (Query.only a.clause) := by
  -- an addition reads its own clause and what no addition changes
  cases a with
  | join item kind rows =>
    show ((q.only .joins).join item kind rows).map (Query.only .joins) = _
    rw [Query.only_joins_join]
    show _ = (q.join item kind rows).map (Query.only .joins)
    cases q.join item kind rows <;> rfl
  | filter criterion =>
    show ((q.only .filter).filterBy criterion).map (Query.only .filter) =
      (q.filterBy criterion).map (Query.only .filter)
    have hconflict : (q.only .filter).conflict = q.conflict := rfl
    simp only [Query.filterBy, hconflict]
    split
    · rfl
    · split
      · cases q.conflict.filterBy criterion <;> rfl
      · rfl
  | select columns =>
    show ((q.only .selects).select columns).map (Query.only .selects) = _
    rw [Query.only_selects_select]
    show _ = (q.select columns).map (Query.only .selects)
    cases q.select columns <;> rfl
  | groups terms =>
    show ((q.only .groups).groupBy (terms.map .term)).map _ =
      (q.groupBy (terms.map .term)).map (Query.only .groups)
    rw [Query.groupBy_terms, Query.groupBy_terms]
    rfl
  | lock rows =>
    show ((q.only .lock).lockRows rows).map (Query.only .lock) =
      (q.lockRows rows).map (Query.only .lock)
    have hdialect : (q.only .lock).dialect = q.dialect := rfl
    simp only [Query.lockRows, hdialect]
    split <;> rfl
  | _ => rfl

/-- An addition to another clause is not seen. -/
theorem only_of_addTo {a : Addition} {q r : Query} (hopen : q.conflict.isOpen = false)
    (h : a.addTo q = .ok r) {k : AddedClause} (hk : a.clause ≠ k) : r.only k = q.only k := by
  cases a with
  | join item kind rows =>
    obtain ⟨j, scope, count, rfl⟩ := Query.join_eq h
    cases k <;> first | rfl | exact absurd rfl hk
  | filter criterion =>
    rcases Query.filterBy_eq hopen h with ⟨-, rfl⟩ | rfl
    · rfl
    · cases k <;> first | rfl | exact absurd rfl hk
  | select columns =>
    obtain ⟨selects, all, starred, rfl⟩ := Query.select_eq h
    cases k <;> first | rfl | exact absurd rfl hk
  | groups terms =>
    obtain rfl := Except.ok.inj ((Query.groupBy_terms terms q).symm.trans h)
    cases k <;> first | rfl | exact absurd rfl hk
  | lock rows =>
    obtain rfl := Query.lockRows_eq h
    cases k <;> first | rfl | exact absurd rfl hk
  | _ =>
    obtain rfl := Except.ok.inj h
    cases k <;> first | rfl | exact absurd rfl hk

/-! ## Lists of additions -/

/-- No addition concerns the conflict clause unless it is open. -/
theorem conflict_of_addTo {a : Addition} {q r : Query} (hopen : q.conflict.isOpen = false)
    (h : a.addTo q = .ok r) : r.conflict = q.conflict := by
  -- the conflict clause is left in place whichever clause is looked at
  obtain ⟨k, hk⟩ : ∃ k, a.clause ≠ k := by
    by_cases hlimit : a.clause = .limit
    · exact ⟨.offset, by rw [hlimit]; exact nofun⟩
    · exact ⟨.limit, hlimit⟩
  exact (congrArg Query.conflict (only_of_addTo hopen h hk) :)

/-- Additions are made one after the other. -/
theorem run_cons (q : Query) (a : Addition) (rest : List Addition) :
    run q (a :: rest) = (a.addTo q).bind fun r => run r rest := List.foldlM_cons

/-- A list of additions starts with one that succeeds, and goes on where no conflict clause is
    open either. -/
theorem run_cons_ok {q r : Query} {a : Addition} {rest : List Addition}
    (hopen : q.conflict.isOpen = false) (h : run q (a :: rest) = .ok r) :
    ∃ q', a.addTo q = .ok q' ∧ q'.conflict.isOpen = false ∧ run q' rest = .ok r := by
  rw [run_cons] at h
  cases hadd : a.addTo q with
  | error e =>
    rw [hadd] at h
    exact nomatch h
  | ok q' =>
    rw [hadd] at h
    refine ⟨q', rfl, ?_, h⟩
    rw [conflict_of_addTo hopen hadd]
    exact hopen

/-- What a list of additions makes of a clause, those to this clause make of it alone, in any
    statement where the clause is the same. -/
theorem only_run {k : AddedClause} {additions : List Addition} {q q' r : Query}
    (hopen : q.conflict.isOpen = false) (hq : q'.only k = q.only k)
    (h : run q additions = .ok r) :
    ∃ r', run q' (additions.filter fun a => a.clause = k) = .ok r' ∧ r'.only k = r.only k := by
  induction additions generalizing q q' with
  | nil =>
    obtain rfl : q = r := Except.ok.inj h
    exact ⟨q', rfl, hq⟩
  | cons a rest ih =>
    obtain ⟨q₁, hadd, hopen₁, hrest⟩ := run_cons_ok hopen h
    by_cases hk : a.clause = k
    · -- the addition is made in both statements, and neither looks at other clauses
      subst hk
      have hmap : (a.addTo q').map (Query.only a.clause) = .ok (q₁.only a.clause) := by
        rw [← only_addTo, hq, only_addTo, hadd]
        rfl
      obtain ⟨q₁', hadd', hq₁⟩ : ∃ q₁', a.addTo q' = .ok q₁' ∧
          q₁'.only a.clause = q₁.only a.clause := by
        cases hadd' : a.addTo q' with
        | error e =>
          rw [hadd'] at hmap
          exact nomatch hmap
        | ok q₁' =>
          rw [hadd'] at hmap
          exact ⟨q₁', rfl, Except.ok.inj hmap⟩
      obtain ⟨r', hrun, hr⟩ := ih hopen₁ hq₁ hrest
      refine ⟨r', ?_, hr⟩
      rw [List.filter_cons_of_pos (by simp), run_cons, hadd']
      exact hrun
    · rw [List.filter_cons_of_neg (by simpa using hk)]
      exact ih hopen₁ (hq.trans (only_of_addTo hopen hadd hk).symm) hrest

/-- Lists of additions that are the same clause by clause leave the same clauses. -/
theorem only_run_eq {xs ys : List Addition} {q r s : Query} (hopen : q.conflict.isOpen = false)
    (hxs : run q xs = .ok r) (hys : run q ys = .ok s)
    (hsame : ∀ k, xs.filter (fun a => a.clause = k) = ys.filter fun a => a.clause = k)
    (k : AddedClause) : r.only k = s.only k := by
  obtain ⟨r', hr', hr⟩ := only_run (k := k) hopen rfl hxs
  obtain ⟨s', hs', hs⟩ := only_run (k := k) hopen rfl hys
  rw [hsame k, hs'] at hr'
  obtain rfl : s' = r' := Except.ok.inj hr'
  exact hr.symm.trans hs

/-! ## Foreign sources -/

/-- The criterion that an addition adds to rows. -/
def criterion? : Addition → Option Term
  | filter criterion | prefilter criterion => some criterion
  | _ => none

/-- Whether the addition is a criterion that names a source which the statement does not have. -/
def isForeign (q : Query) (a : Addition) : Bool :=
  a.criterion?.any fun criterion => criterion.fieldSources.reduceOption.any fun s => !q.owns s

/-- The empty criterion names no source. -/
theorem fieldSources_of_isEmpty {t : Term} (h : t.isEmpty = true) : t.fieldSources = [] := by
  obtain ⟨expr, aliasName⟩ := t
  cases expr <;> first | rfl | exact nomatch h

/-- A criterion that names a foreign source is noted, and nothing else is. -/
theorem foreignSource_of_addTo {a : Addition} {q r : Query} (hopen : q.conflict.isOpen = false)
    (h : a.addTo q = .ok r) : r.foreignSource = (q.foreignSource || a.isForeign q) := by
  cases a with
  | join item kind rows =>
    obtain ⟨j, scope, count, rfl⟩ := Query.join_eq h
    exact (Bool.or_false _).symm
  | filter criterion =>
    -- an empty criterion names no source
    rcases Query.filterBy_eq hopen h with ⟨hempty, rfl⟩ | rfl
    · have hnone : (Addition.filter criterion).isForeign r = false := by
        show criterion.fieldSources.reduceOption.any _ = false
        rw [fieldSources_of_isEmpty hempty]
        rfl
      rw [hnone, Bool.or_false]
    · rfl
  | select columns =>
    obtain ⟨selects, all, starred, rfl⟩ := Query.select_eq h
    exact (Bool.or_false _).symm
  | groups terms =>
    obtain rfl := Except.ok.inj ((Query.groupBy_terms terms q).symm.trans h)
    exact (Bool.or_false _).symm
  | lock rows =>
    obtain rfl := Query.lockRows_eq h
    exact (Bool.or_false _).symm
  | prefilter criterion =>
    obtain rfl := Except.ok.inj h
    rfl
  | _ =>
    obtain rfl := Except.ok.inj h
    exact (Bool.or_false _).symm

/-- Only joins change which sources a statement has. -/
theorem owns_of_addTo {a : Addition} {q r : Query} (hopen : q.conflict.isOpen = false)
    (h : a.addTo q = .ok r) (hjoin : a.clause ≠ .joins) (source : Source) :
    r.owns source = q.owns source :=
  (congrArg (Query.owns source) (only_of_addTo hopen h hjoin) :)

/-- There are no joins only if there were none and none was added. -/
theorem joins_of_addTo {a : Addition} {q r : Query} (hopen : q.conflict.isOpen = false)
    (h : a.addTo q = .ok r) (hr : r.joins = []) : a.clause ≠ .joins ∧ q.joins = [] := by
  by_cases hjoin : a.clause = .joins
  · obtain ⟨item, kind, rows, rfl⟩ : ∃ item kind rows, a = .join item kind rows := by
      cases a <;> first | exact ⟨_, _, _, rfl⟩ | exact nomatch hjoin
    obtain ⟨j, scope, count, rfl⟩ := Query.join_eq h
    exact absurd hr (by simp)
  · have hjoins : r.joins = q.joins := (congrArg Query.joins (only_of_addTo hopen h hjoin) :)
    exact ⟨hjoin, hjoins.symm.trans hr⟩

/-- Where there are no joins after additions, there were none before. -/
theorem joins_of_run {additions : List Addition} {q r : Query} (hopen : q.conflict.isOpen = false)
    (h : run q additions = .ok r) (hr : r.joins = []) : q.joins = [] := by
  induction additions generalizing q with
  | nil =>
    obtain rfl : q = r := Except.ok.inj h
    exact hr
  | cons a rest ih =>
    obtain ⟨q', hadd, hopen', hrest⟩ := run_cons_ok hopen h
    exact (joins_of_addTo hopen hadd (ih hopen' hrest)).2

/-- Where no joins are added, it does not matter when a criterion is added. -/
theorem foreignSource_run {additions : List Addition} {q r : Query}
    (hopen : q.conflict.isOpen = false) (h : run q additions = .ok r) (hr : r.joins = []) :
    r.foreignSource = (q.foreignSource || additions.any (isForeign q)) := by
  induction additions generalizing q with
  | nil =>
    obtain rfl : q = r := Except.ok.inj h
    exact (Bool.or_false _).symm
  | cons a rest ih =>
    obtain ⟨q', hadd, hopen', hrest⟩ := run_cons_ok hopen h
    have hjoin := (joins_of_addTo hopen hadd (joins_of_run hopen' hrest hr)).1
    have howns : isForeign q' = isForeign q := by
      funext b
      simp only [isForeign, owns_of_addTo hopen hadd hjoin]
    rw [ih hopen' hrest, foreignSource_of_addTo hopen hadd, howns, List.any_cons, Bool.or_assoc]

/-! ## The theorem -/

/-- Of the additions of two lists that are the same clause by clause, each is in both. -/
theorem mem_of_same {xs ys : List Addition}
    (hsame : ∀ k, xs.filter (fun a => a.clause = k) = ys.filter fun a => a.clause = k)
    {a : Addition} (ha : a ∈ xs) : a ∈ ys := by
  have hfilter : a ∈ xs.filter fun b => b.clause = a.clause :=
    List.mem_filter.mpr ⟨ha, decide_eq_true rfl⟩
  rw [hsame] at hfilter
  exact (List.mem_filter.mp hfilter).1

end Addition

/-- What is noted about criteria is seen only in whether columns are qualified. -/
theorem Query.draft_foreignSource (q : Query) (isForeign : Bool)
    (h : ({ q with foreignSource := isForeign } : Query).isQualified = q.isQualified)
    (ctx : Context) : ({ q with foreignSource := isForeign } : Query).draft ctx = q.draft ctx := by
  have hctx : ∀ outer : Context,
      ({ q with foreignSource := isForeign } : Query).clauseContext outer =
        q.clauseContext outer := by
    intro outer
    simp only [Query.clauseContext]
    rw [h]
  show Clause.statement ctx { q with foreignSource := isForeign } _ = Clause.statement ctx q q.parts
  simp only [Clause.statement]
  rw [hctx]
  cases q
  rfl

namespace Addition

/-- **The order of clauses does not matter.** Let two lists of additions to a statement without an
    open conflict clause succeed, and let them be the same clause by clause, however their clauses
    take turns. Then both statements are written alike in every context: they give the same text or
    stop for the same reason, and they bind the same values. -/
theorem render_eq {q r s : Query} (hopen : q.conflict.isOpen = false) {xs ys : List Addition}
    (hxs : run q xs = .ok r) (hys : run q ys = .ok s)
    (hsame : ∀ k, xs.filter (fun a => a.clause = k) = ys.filter fun a => a.clause = k)
    (ctx : Context) (p : Parameters) : (r.draft ctx).render ctx p = (s.draft ctx).render ctx p := by
  have hfields : r = { s with foreignSource := r.foreignSource } :=
    Query.eq_of_only (only_run_eq hopen hxs hys hsame)
  have hqualified : ({ s with foreignSource := r.foreignSource } : Query).isQualified =
      s.isQualified := by
    by_cases hjoins : s.joins = []
    · -- without joins the criteria alone decide, and both lists have the same ones
      have hjoins' : r.joins = [] := by
        rw [hfields]
        exact hjoins
      have hany : xs.any (isForeign q) = ys.any (isForeign q) := by
        rw [Bool.eq_iff_iff, List.any_eq_true, List.any_eq_true]
        constructor
        · rintro ⟨a, ha, hforeign⟩
          exact ⟨a, mem_of_same hsame ha, hforeign⟩
        · rintro ⟨a, ha, hforeign⟩
          exact ⟨a, mem_of_same (fun k => (hsame k).symm) ha, hforeign⟩
      have hforeign : r.foreignSource = s.foreignSource := by
        rw [foreignSource_run hopen hxs hjoins', foreignSource_run hopen hys hjoins, hany]
      rw [hforeign]
      rfl
    · have hsome : (!s.joins.isEmpty) = true := by simpa using hjoins
      simp only [Query.isQualified, hsome, Bool.true_or]
  rw [hfields, s.draft_foreignSource r.foreignSource hqualified ctx]

/-- A criterion about a table that is joined behind it is noted, and one about a table that is
    joined in front of it is not. -/
theorem render_eq_joined :
    let source : Table := ⟨"t", none, ⟨0, none⟩, none⟩
    let other : Table := ⟨"u", none, ⟨1, none⟩, none⟩
    let x (t : Table) : Term := .column "x" (some (.table t))
    let q := ((Query.start 2 .postgres).readFrom (.table source)).selectColumn (x source)
    let join := Addition.join (.table other) .inner (.on ((x source).compare .eq (x other)) none)
    let filter := Addition.filter (x other).isNull
    ∃ r s : Query, run q [filter, .limit 1, join] = .ok r ∧ run q [join, filter, .limit 1] = .ok s ∧
      r.foreignSource = true ∧ s.foreignSource = false ∧
        ∀ (ctx : Context) (p : Parameters),
          (r.draft ctx).render ctx p = (s.draft ctx).render ctx p := by
  intro source other x q join filter
  have hok : ∀ (additions : List Addition) (isForeign : Bool),
      (run q additions).toOption.map Query.foreignSource = some isForeign →
        ∃ r, run q additions = .ok r ∧ r.foreignSource = isForeign := by
    intro additions isForeign h
    cases hrun : run q additions with
    | error e =>
      rw [hrun] at h
      exact nomatch h
    | ok r =>
      rw [hrun] at h
      exact ⟨r, rfl, Option.some.inj h⟩
  obtain ⟨r, hr, hforeign⟩ := hok [filter, .limit 1, join] true (by decide +kernel)
  obtain ⟨s, hs, hown⟩ := hok [join, filter, .limit 1] false (by decide +kernel)
  refine ⟨r, s, hr, hs, hforeign, hown, render_eq rfl hr hs ?_⟩
  intro k
  cases k <;> rfl

end Addition

end SqlCompose
