import SqlCompose.Proofs.Verbs
import SqlCompose.Proofs.WrittenLists

/-! # Inserted rows — where the rows go that a statement is given

    Rows are taken as soon as there is a table that they can go to, and an INSERT has all of them. A
    statement that selects into a table has that table too, and takes rows, but has no place for
    them: whatever the rows are, the same is written.

    * `Step.newRows`, `Step.newRows_run` — the rows of a statement are those of the calls, in the
      order of the calls.
    * `Step.inserts_of_rows` — a statement with rows inserts or selects into a table, and changes
      nothing else.
    * `Step.selectsInto_run` — which of the two it does.
    * `Query.draft_rows` — a statement that selects into a table is written alike with all rows.
    * `Step.rows_written` — the theorem. -/

namespace SqlCompose

open Draft

namespace Step

/-! ## The rows in the order of the calls -/

/-- The rows that a call gives; rows without terms are none. -/
def ownRows : Step → List (List Term)
  | insertRows rows | replaceRows rows => rows.filter (!·.isEmpty)
  | _ => []

/-- What a call makes of a row that is there. -/
def rebindRow : Step → List Term → List Term
  | replaceTable current new => List.map (Term.replaceTable current new)
  | _ => id

/-- The rows that calls give, each as the calls behind it leave it. -/
def newRows : List Step → List (List Term)
  | [] => []
  | s :: rest =>
    s.ownRows.map (fun row => rest.foldl (fun row s => s.rebindRow row) row) ++ newRows rest

variable {s : Step} {steps : List Step} {q r : Query}

/-- A call adds its rows behind those that are there. -/
theorem rows_apply (h : s.apply q = .ok r) : r.rows = q.rows.map s.rebindRow ++ s.ownRows := by
  cases makes h with
  | insertRows | replaceRows =>
    show _ = q.rows.map id ++ _
    rw [List.map_id]
    rfl
  | replaceTable => exact (List.append_nil _).symm
  | _ =>
    show q.rows = q.rows.map id ++ []
    rw [List.map_id, List.append_nil]

/-- The rows of a statement are those it had, and behind them those that the calls give. -/
theorem newRows_run (h : run q steps = .ok r) :
    r.rows = q.rows.map (fun row => steps.foldl (fun row s => s.rebindRow row) row) ++
      newRows steps := by
  induction steps generalizing q with
  | nil =>
    obtain rfl : q = r := Except.ok.inj h
    show _ = q.rows.map id ++ []
    rw [List.map_id, List.append_nil]
  | cons s rest ih =>
    obtain ⟨q', hs, hrest⟩ := run_cons_ok h
    rw [ih hrest, rows_apply hs, List.map_append, List.map_map, List.append_assoc]
    rfl

/-! ## The table that they go to -/

/-- A statement with rows has a table to insert into. -/
theorem asked_into_of_rows (h : s.apply q = .ok r) (hlisted : q.Listed)
    (hq : q.rows ≠ [] → q.Asked .into) (hrows : r.rows ≠ []) : r.Asked .into := by
  rw [asked_iff h hlisted]
  left
  cases s with
  | insertRows rows | replaceRows rows => exact (Query.addRows_eq h).1
  | _ =>
    refine hq fun hnone => hrows ?_
    rw [rows_apply h, hnone]
    rfl

/-- A statement with rows inserts or selects into a table, and changes nothing else. -/
theorem inserts_of_rows {identity : Identity} {dialect : Dialect}
    (h : run (.start identity dialect) steps = .ok q) (hrows : q.rows ≠ []) :
    q.insertTable ≠ none ∧ q.updateTable = none ∧ q.deletes = false := by
  have hkept : q.Listed ∧ (q.rows ≠ [] → q.Asked .into) :=
    run_invariant (P := fun q => q.Listed ∧ (q.rows ≠ [] → q.Asked .into))
      (fun h hq => ⟨listed_of_apply h hq.1, asked_into_of_rows h hq.1 hq.2⟩) h
      ⟨Query.listed_start identity dialect, absurd rfl⟩
  have hinto := hkept.2 hrows
  have hapart (v : Verb) (hv : v ≠ .select) (hne : v ≠ .into) : ¬q.Asked v :=
    fun hasked => hne (exclusive_run h v .into hv nofun hasked hinto)
  refine ⟨hinto, ?_, ?_⟩
  · exact Classical.not_not.mp (hapart .update nofun nofun)
  · exact Bool.not_eq_true _ ▸ hapart .delete nofun nofun

/-! ## Selecting into it -/

/-- Whether the call makes of the statement one that selects into a table. -/
def Diverts (q : Query) : Step → Prop
  | selectInto _ => True
  | into _ => q.Asked .select
  | _ => False

/-- A statement selects into a table if it did so before, or if the call makes it one. -/
theorem selectsInto_apply (h : s.apply q = .ok r) :
    r.selectsInto = true ↔ q.selectsInto = true ∨ s.Diverts q := by
  cases makes h with
  | into => simp [Diverts, Query.Asked]
  | selectInto => exact iff_of_true rfl (.inr trivial)
  | _ => exact (or_iff_left id).symm

/-- A statement is diverted to a table by SELECT .. INTO, or by INTO behind what is selected. -/
theorem diverts_iff (s : Step) (q : Query) :
    s.Diverts q ↔ (∃ t, s = selectInto t) ∨ (q.Asked .select ∧ ∃ t, s = into t) := by
  cases s <;> simp [Diverts]

/-- A call to select asks for SELECT unless it names nothing. -/
theorem verb?_eq_select_iff (s : Step) :
    s.verb? = some .select ↔ ∃ columns, columns ≠ [] ∧ s = select columns := by
  cases s with
  | select columns => cases columns <;> simp [verb?]
  | _ => simp [verb?]

/-- Calls make of a statement one that selects into a table: one of them asks for that, or one asks
    for a table to insert into where something is selected already. -/
theorem selectsInto_run (h : run q steps = .ok r) (hq : q.Listed) :
    r.selectsInto = true ↔ q.selectsInto = true ∨ (∃ t, selectInto t ∈ steps) ∨
      (q.Asked .select ∧ ∃ t, into t ∈ steps) ∨
      ∃ columns t, columns ≠ [] ∧ [select columns, into t].Sublist steps := by
  induction steps generalizing q with
  | nil =>
    obtain rfl : q = r := Except.ok.inj h
    simp
  | cons s rest ih =>
    obtain ⟨q', hs, hrest⟩ := run_cons_ok h
    have hselectInto : (∃ t, selectInto t ∈ s :: rest) ↔
        (∃ t, s = selectInto t) ∨ ∃ t, selectInto t ∈ rest := by
      simp only [List.mem_cons, exists_or, eq_comm]
    have hinto : (∃ t, into t ∈ s :: rest) ↔ (∃ t, s = into t) ∨ ∃ t, into t ∈ rest := by
      simp only [List.mem_cons, exists_or, eq_comm]
    -- a pair of calls starts with the first one, or stands behind it
    have hpair : (∃ columns t, columns ≠ [] ∧ [select columns, into t].Sublist (s :: rest)) ↔
        ((∃ columns, columns ≠ [] ∧ s = select columns) ∧ ∃ t, into t ∈ rest) ∨
          ∃ columns t, columns ≠ [] ∧ [select columns, into t].Sublist rest := by
      simp only [List.cons_sublist_cons', List.singleton_sublist]
      grind
    rw [ih hrest (listed_of_apply hs hq), selectsInto_apply hs, asked_iff hs hq, diverts_iff,
      verb?_eq_select_iff, hselectInto, hinto, hpair]
    grind

end Step

/-! ## The theorem -/

namespace Query

/-- With a table that rows are selected into, and with rows, a statement is written as what it
    selects. -/
theorem isSelection_of_selectsInto {q : Query} (hselects : q.selectsInto = true)
    (htable : q.insertTable ≠ none) (hupdate : q.updateTable = none) (hrows : q.rows ≠ []) :
    q.isSelection = true := by
  have hsome : q.insertTable.isSome = true := Option.isSome_iff_ne_none.mpr htable
  simp [isSelection, isBlank, inserts, hselects, hsome, hupdate, hrows]

/-- A statement that selects into a table is written alike with all rows. -/
theorem draft_rows {q : Query} (hselects : q.selectsInto = true) (htable : q.insertTable ≠ none)
    (hupdate : q.updateTable = none) (hrows : q.rows ≠ []) {rows : List (List Term)}
    (hrows' : rows ≠ []) (outer : Context) :
    Query.draft outer { q with rows := rows } = q.draft outer := by
  have hother : isSelection { q with rows := rows } = true :=
    isSelection_of_selectsInto hselects htable hupdate hrows'
  rw [draft_of_isSelection hother,
    draft_of_isSelection (isSelection_of_selectsInto hselects htable hupdate hrows)]
  have hinside : inside outer { q with rows := rows } = q.inside outer := by
    cases q
    cases hselects
    rfl
  have hbehind : behind outer { q with rows := rows } = q.behind outer := by
    cases q
    rfl
  rw [hinside, hbehind]

end Query

namespace Step

/-- **An INSERT has all its rows, and a selection into a table none.** Let calls on an empty
    statement succeed.
    * Its rows are those of the calls that have terms in them, in the order of the calls, each once,
      with the tables in the place of others that later calls put there.
    * With rows, it inserts or selects into a table, and neither updates nor deletes.
    * Where it inserts, what is written of it is an INSERT or a REPLACE in which all rows stand
      behind `VALUES`, in their order and with all terms in their order.
    * Where it selects into the table, it is written as with any other rows.
    * It selects into the table exactly if a call asked for that, or if the table was asked for to
      insert into it by a call behind one that selected something. -/
theorem rows_written {identity : Identity} {dialect : Dialect} {steps : List Step} {q : Query}
    (h : run (.start identity dialect) steps = .ok q) :
    q.rows = newRows steps ∧
    (q.rows ≠ [] → q.insertTable ≠ none ∧ q.updateTable = none ∧ q.deletes = false) ∧
    (q.rows ≠ [] → q.selectsInto = false →
      ∀ (outer : Context) (p : Parameters) (ts : List Token),
        ((q.draft outer).finish p).1 = .ok ts → q.ShowsRows outer ts) ∧
    (q.rows ≠ [] → q.selectsInto = true → ∀ rows : List (List Term), rows ≠ [] →
      ∀ outer : Context, Query.draft outer { q with rows := rows } = q.draft outer) ∧
    (q.selectsInto = true ↔ (∃ t, selectInto t ∈ steps) ∨
      ∃ columns t, columns ≠ [] ∧ [select columns, into t].Sublist steps) := by
  refine ⟨newRows_run h, inserts_of_rows h, ?_, ?_, ?_⟩
  · intro hrows hselects outer p ts hfinish
    obtain ⟨htable, hupdate, hdeletes⟩ := inserts_of_rows h hrows
    exact Query.showsRows_of_writes ⟨htable, hupdate, hdeletes, hselects⟩ hrows
      ⟨p, _, Prod.ext hfinish rfl⟩
  · intro hrows hselects rows hrows' outer
    obtain ⟨htable, hupdate, -⟩ := inserts_of_rows h hrows
    exact Query.draft_rows hselects htable hupdate hrows hrows' outer
  · rw [selectsInto_run h (Query.listed_start identity dialect)]
    have hnone := Query.not_asked_start identity dialect .select
    have hstart : (Query.start identity dialect).selectsInto = false := rfl
    simp only [hnone, hstart, Bool.false_eq_true, false_or, false_and]

/-- Two rows with terms and one without. -/
theorem rows_written_insert :
    let t := Table.named 1 "t"
    let one : Term := .value (.int 1)
    let two : Term := .value (.int 2)
    let ctx := Context.ofDialect .generic
    ∃ q, run (.start 2 .generic) [.into t, .insertRows [[one, two], []], .insertRows [[two, one]]] =
        .ok q ∧
      q.rows = [[one, two], [two, one]] ∧
      ∃ ts, ((q.draft ctx).finish {}).1 = .ok ts ∧
        Token.texts ctx ts = "INSERT INTO \"t\" VALUES (1,2),(2,1)" ∧ q.ShowsRows ctx ts := by
  intro t one two ctx
  let q : Query :=
    { Query.start 2 .generic with insertTable := some t, rows := [[one, two], [two, one]] }
  have hrun : run (.start 2 .generic)
      [.into t, .insertRows [[one, two], []], .insertRows [[two, one]]] = .ok q := rfl
  have htext : ((q.draft ctx).finish {}).1.toOption.map (Token.texts ctx) =
      some "INSERT INTO \"t\" VALUES (1,2),(2,1)" := by decide +kernel
  obtain ⟨ts, hts, htext⟩ := exists_ok_of_map htext
  obtain ⟨hrows, -, hshown, -⟩ := rows_written hrun
  exact ⟨q, hrun, hrows, ts, hts, htext, hshown nofun rfl ctx {} ts hts⟩

/-- A row for a table that something is selected into. -/
theorem rows_after_select_into :
    let t := Table.named 1 "t"
    let u := Table.named 2 "u"
    let one : Term := .value (.int 1)
    let q : Query :=
      { Query.start 3 .generic with
        sources := [.table t]
        selects := [.column "a" (some (.table t))]
        insertTable := some u
        selectsInto := true
        rows := [[one]] }
    run (.start 3 .generic)
        [.readFrom (.table t), .select [.name "a"], .into u, .insertRows [[one]]] = .ok q ∧
      q.sql = .ok "SELECT \"a\" INTO \"u\" FROM \"t\"" :=
  ⟨rfl, by decide +kernel⟩

end Step

end SqlCompose
