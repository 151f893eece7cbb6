import SqlCompose.Proofs.References
import SqlCompose.Query.Rebinding

/-! # Replaced tables — which references to a table outlive its replacement

    Where one table is put in the place of another, every reference to it is bound to the other,
    those in filters and windows of calls excepted, and nothing else is touched. In a statement two
    more places are passed over: the column lists of WITH clauses and the periods of tables.

    * `Reference.rebind` — what becomes of a reference.
    * `Term.references_replaceTable` — the references of a rebound term.
    * `Query.references` — the references in all terms that a statement holds.
    * `replaceTable_remaining` — the theorem. -/

namespace SqlCompose

/-! ## References -/

namespace Reference

/-- The reference bound to the new table if it is one to the current table, unless it stands
    aside. -/
def rebind (current new : Table) (r : Reference) : Reference :=
  if r.aside then r else { r with source := r.source.map (Source.replaceTable current new) }

variable {current new : Table}

@[simp] theorem rebind_aside (r : Reference) : (r.rebind current new).aside = r.aside := by
  simp only [rebind]
  split <;> rfl

/-- A rebound reference is no longer one to the current table. -/
theorem rebind_isTo (h : new.same current = false) {r : Reference} (hr : r.aside = false) :
    (r.rebind current new).isTo current = false := by
  obtain ⟨column, source, aside⟩ := r
  obtain rfl : aside = false := hr
  rcases source with _ | t | slot | name
  · rfl
  · show isTo current ⟨column, some (if t.same current then .table new else .table t), false⟩ = _
    split
    · exact h
    · next hother => exact Bool.eq_false_iff.mpr hother
  · rfl
  · rfl

end Reference

/-! ## Terms -/

section

variable (current new : Table)

/-- What stands aside is not rebound. -/
theorem map_rebind_putAside (rs : List Reference) :
    (rs.map Reference.putAside).map (Reference.rebind current new) = rs.map Reference.putAside := by
  rw [List.map_map]
  rfl

/-- Rebinding does not put anything aside. -/
theorem filter_map_rebind (rs : List Reference) :
    (rs.map (Reference.rebind current new)).filter (fun r => !r.aside) =
      (rs.filter fun r => !r.aside).map (Reference.rebind current new) := by
  rw [List.filter_map]
  simp [Function.comp_def]

mutual

/-- The references of a rebound term are those of the term, each rebound where it stands. -/
theorem Term.references_replaceTable :
    (t : Term) → (t.replaceTable current new).references =
      t.references.map (Reference.rebind current new)
  | ⟨expr, _⟩ => Expr.references_replaceTable expr

theorem Expr.references_replaceTable :
    (e : Expr) → (e.replaceTable current new).references =
      e.references.map (Reference.rebind current new)
  | .field name source => rfl
  | .star source => rfl
  | .tuple items => termReferences_replaceTable items
  | .array items => termReferences_replaceTable items
  | .call c => Call.references_replaceTable c
  | .case branches otherwise => by
    rw [Expr.replaceTable, Expr.references, Expr.references, List.map_append,
      branchReferences_replaceTable branches, optionReferences_replaceTable otherwise]
  | .arithmetic op left right => by
    rw [Expr.replaceTable, Expr.references, Expr.references, List.map_append,
      Term.references_replaceTable left, Term.references_replaceTable right]
  | .negative operand => Term.references_replaceTable operand
  | .comparison op left right => by
    rw [Expr.replaceTable, Expr.references, Expr.references, List.map_append,
      Term.references_replaceTable left, Term.references_replaceTable right]
  | .combination op left right => by
    rw [Expr.replaceTable, Expr.references, Expr.references, List.map_append,
      Term.references_replaceTable left, Term.references_replaceTable right]
  | .chain first second left middle right => by
    rw [Expr.replaceTable, Expr.references, Expr.references, List.map_append, List.map_append,
      Term.references_replaceTable left, Term.references_replaceTable middle,
      Term.references_replaceTable right]
  | .membership operand container negated => by
    rw [Expr.replaceTable, Expr.references, Expr.references, List.map_append,
      Term.references_replaceTable operand, Term.references_replaceTable container]
  | .between operand lower upper => by
    rw [Expr.replaceTable, Expr.references, Expr.references, List.map_append, List.map_append,
      Term.references_replaceTable operand, Term.references_replaceTable lower,
      Term.references_replaceTable upper]
  | .period operand start stop => by
    rw [Expr.replaceTable, Expr.references, Expr.references, List.map_append, List.map_append,
      Term.references_replaceTable operand, Term.references_replaceTable start,
      Term.references_replaceTable stop]
  | .bitAnd operand _ => Term.references_replaceTable operand
  | .isNull operand => Term.references_replaceTable operand
  | .not operand => Term.references_replaceTable operand
  | .all operand => Term.references_replaceTable operand
  | .jsonPath column _ => Term.references_replaceTable column
  | .insertedValue field => Term.references_replaceTable field
  | .atTimeZone operand _ _ => Term.references_replaceTable operand
  | .literal _ | .value _ _ | .interval _ | .document _ | .parameter _ | .subquery _
  | .setOperation _ | .index _ | .pseudoColumn _ | .empty => rfl

theorem termReferences_replaceTable :
    (ts : List Term) → termReferences (listReplaceTable current new ts) =
      (termReferences ts).map (Reference.rebind current new)
  | [] => rfl
  | t :: rest => by
    rw [listReplaceTable, termReferences, termReferences, List.map_append,
      Term.references_replaceTable t, termReferences_replaceTable rest]

theorem branchReferences_replaceTable :
    (bs : List Branch) → branchReferences (branchesReplaceTable current new bs) =
      (branchReferences bs).map (Reference.rebind current new)
  | [] => rfl
  | ⟨condition, result⟩ :: rest => by
    rw [branchesReplaceTable, branchReferences, branchReferences, List.map_append, List.map_append,
      Term.references_replaceTable condition, Term.references_replaceTable result,
      branchReferences_replaceTable rest]

theorem optionReferences_replaceTable :
    (t : Option Term) → optionReferences (optionReplaceTable current new t) =
      (optionReferences t).map (Reference.rebind current new)
  | none => rfl
  | some t => Term.references_replaceTable t

theorem Call.references_replaceTable :
    (c : Call) → (c.replaceTable current new).references =
      c.references.map (Reference.rebind current new)
  | ⟨_, arguments, _, suffix, _, _, _, filter, window, _⟩ => by
    rw [Call.replaceTable, Call.references, Call.references, termReferences_replaceTable arguments,
      suffixReferences_replaceTable suffix]
    simp only [List.map_append, map_rebind_putAside]

theorem suffixReferences_replaceTable :
    (s : Option CallSuffix) → suffixReferences (suffixReplaceTable current new s) =
      (suffixReferences s).map (Reference.rebind current new)
  | none => rfl
  | some (.words _) => rfl
  | some .ignoreNulls => rfl
  | some (.source t) => Term.references_replaceTable t

end

end

/-! ## Statements -/

/-- What a table's period is described by. -/
def Table.periodTerms (t : Table) : List Term :=
  match t.temporal with
  | none => []
  | some (.period term) | some (.portion term) => [term]

/-- The terms of a join's condition. -/
def JoinCondition.terms : JoinCondition → List Term
  | .none => []
  | .on criterion _ => [criterion]
  | .using fields => fields

/-- The terms of a conflict clause. -/
def Conflict.terms (c : Conflict) : List Term :=
  c.fields ++ c.resolutions.flatMap (fun r => r.field :: r.value.toList) ++
    [c.targetFilter, c.updateFilter]

namespace Query

/-- The terms of a statement, clause by clause. -/
def terms (q : Query) : List Term :=
  q.selects ++ q.distinctOn ++ q.columns ++ q.rows.flatten ++
    q.assignments.flatMap (fun a => [a.field, a.value]) ++
    q.joins.flatMap (fun j => j.condition.terms) ++ [q.prefilter, q.filter] ++ q.groups ++
    [q.groupFilter] ++ q.orderings.map Ordering.term ++ q.conflict.terms ++ q.returns

/-- The tables that a statement reads or changes. -/
def tables (q : Query) : List Table :=
  (q.sources ++ q.joins.map Join.item ++ q.ctes.map Cte.body).filterMap FromItem.table? ++
    q.insertTable.toList ++ q.updateTable.toList

/-- The terms that stand beside the clauses: the columns of WITH clauses and the periods of
    tables. -/
def sideTerms (q : Query) : List Term :=
  q.ctes.flatMap Cte.columns ++ q.tables.flatMap Table.periodTerms

/-- The references in all terms that a statement holds, and to the sources all of whose columns it
    selects. -/
def references (q : Query) : List Reference :=
  q.terms.flatMap Term.references ++
    q.starred.map (fun source => { column := none, source }) ++
    (q.sideTerms.flatMap Term.references).map Reference.putAside

/-- The terms of a rebound statement are those of the statement, each rebound. -/
theorem terms_replaceTable (current new : Table) (q : Query) :
    (q.replaceTable current new).terms = q.terms.map (Term.replaceTable current new) := by
  have hcondition : ∀ c : JoinCondition,
      (c.replaceTable current new).terms = c.terms.map (Term.replaceTable current new) := by
    intro c
    cases c <;> rfl
  have hvalue : ∀ t : Option Term, (t.map (Term.replaceTable current new)).toList =
      t.toList.map (Term.replaceTable current new) := by
    intro t
    cases t <;> rfl
  have hconflict : (q.conflict.replaceTable current new).terms =
      q.conflict.terms.map (Term.replaceTable current new) := by
    simp [Conflict.terms, Conflict.replaceTable, List.flatMap_map, List.map_flatMap, hvalue]
  have hjoins : (q.joins.map (Join.replaceTable current new)).flatMap (fun j => j.condition.terms) =
      (q.joins.flatMap fun j => j.condition.terms).map (Term.replaceTable current new) := by
    rw [List.flatMap_map, List.map_flatMap]
    exact congrArg (q.joins.flatMap ·) (funext fun j => hcondition j.condition)
  simp only [terms, Query.replaceTable]
  rw [hconflict, hjoins]
  simp [List.flatMap_map, List.map_flatMap, List.map_flatten]

/-- The references of a rebound statement that are looked for are those of the statement, each
    rebound where it stands. -/
theorem references_replaceTable (current new : Table) (q : Query) :
    (q.replaceTable current new).references.filter (fun r => !r.aside) =
      (q.references.filter (fun r => !r.aside)).map (Reference.rebind current new) := by
  have haside : ∀ rs : List Reference,
      (rs.map Reference.putAside).filter (fun r => !r.aside) = [] := by
    intro rs
    simp [Reference.putAside]
  have hterms : (q.replaceTable current new).terms.flatMap Term.references =
      (q.terms.flatMap Term.references).map (Reference.rebind current new) := by
    rw [terms_replaceTable, List.flatMap_map, List.map_flatMap]
    exact congrArg (q.terms.flatMap ·) (funext (Term.references_replaceTable current new))
  have hstarred : (q.replaceTable current new).starred.map
        (fun source => ({ column := none, source } : Reference)) =
      (q.starred.map fun source => ({ column := none, source } : Reference)).map
        (Reference.rebind current new) := by
    simp only [Query.replaceTable]
    rw [List.map_map, List.map_map]
    rfl
  simp only [references]
  rw [hterms, hstarred, ← List.map_append, List.filter_append, List.filter_append, haside, haside,
    filter_map_rebind, List.append_nil, List.append_nil]

end Query

/-! ## The theorem -/

/-- Where what is looked for has been rebound, what is left of the current table stands aside. -/
theorem aside_of_rebound {current new : Table} (h : new.same current = false)
    {rs rs' : List Reference}
    (heq : rs'.filter (fun r => !r.aside) =
      (rs.filter fun r => !r.aside).map (Reference.rebind current new)) :
    ∀ r ∈ rs', r.isTo current = true → r.aside = true := by
  intro r hr hto
  by_contra haside
  have hr' : r ∈ rs'.filter (fun r => !r.aside) :=
    List.mem_filter.mpr ⟨hr, by simpa using haside⟩
  rw [heq] at hr'
  obtain ⟨r₀, hr₀, rfl⟩ := List.mem_map.mp hr'
  have hnear : r₀.aside = false := by simpa using (List.mem_filter.mp hr₀).2
  rw [Reference.rebind_isTo h hnear] at hto
  exact nomatch hto

/-- **A replaced table is only left where nobody looks for it.** Let a table be put in the place of
    a different one. In a term, every column and star outside of nested statements stands where it
    stood, bound to the new table if it was one of the current table, and those in filters and
    windows of calls are what they were; so what is still bound to the current table stands in a
    filter or a window. In a statement the same holds of all terms of all clauses and of the sources
    all of whose columns are selected; there, the columns of WITH clauses and the periods of tables
    may be bound to the current table as well. -/
theorem replaceTable_remaining {current new : Table} (h : new.same current = false) :
    (∀ t : Term,
      (t.replaceTable current new).references = t.references.map (Reference.rebind current new) ∧
      ∀ r ∈ (t.replaceTable current new).references, r.isTo current = true → r.aside = true) ∧
    ∀ q : Query,
      (q.replaceTable current new).references.filter (fun r => !r.aside) =
        (q.references.filter fun r => !r.aside).map (Reference.rebind current new) ∧
      ∀ r ∈ (q.replaceTable current new).references, r.isTo current = true → r.aside = true := by
  constructor
  · intro t
    have hterm := t.references_replaceTable current new
    have hnear : (t.replaceTable current new).references.filter (fun r => !r.aside) =
        (t.references.filter fun r => !r.aside).map (Reference.rebind current new) := by
      rw [hterm, filter_map_rebind]
    exact ⟨hterm, aside_of_rebound h hnear⟩
  · intro q
    have hquery := q.references_replaceTable current new
    exact ⟨hquery, aside_of_rebound h hquery⟩

/-- A CASE expression compared with a column, both of the replaced table. -/
theorem replaceTable_remaining_case :
    let a := Table.named 1 "a"
    let b := Table.named 2 "b"
    let column (name : String) : Term := .column name (some (.table a))
    let case_ : Term := ⟨.case [⟨(column "x").isNull, column "y"⟩] none, none⟩
    let t := case_.compare .eq (column "z")
    let rebound (name : String) : Reference := { column := some name, source := some (.table b) }
    (t.replaceTable a b).references = [rebound "x", rebound "y", rebound "z"] := by
  intro a b column case_ t rebound
  have hab : b.same a = false := by decide
  exact ((replaceTable_remaining hab).1 t).1

/-- A sum of one column of the table where another one is 1: in the filter, the table is left. -/
theorem replaceTable_filter :
    let a := Table.named 1 "a"
    let b := Table.named 2 "b"
    let column (name : String) : Term := .column name (some (.table a))
    let sum : Term := ⟨.call
      { name := "SUM"
        arguments := [column "x"]
        filter := some ((column "y").compare .eq ⟨.value (.int 1) true, none⟩) }, none⟩
    let q : Query := { Query.start 3 .generic with sources := [.table a], selects := [sum] }
    let ctx := { Context.ofDialect .generic with qualified := true }
    b.same a = false ∧
      (∃ r ∈ (sum.replaceTable a b).references, r.isTo a = true) ∧
      (∃ r ∈ (q.replaceTable a b).references, r.isTo a = true) ∧
      ((sum.replaceTable a b).draft ctx).text ctx =
        .ok "SUM(\"b\".\"x\") FILTER(WHERE \"a\".\"y\"=1)" := by
  decide +kernel

end SqlCompose
