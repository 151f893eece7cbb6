import SqlCompose.Proofs.ReplacedTables

/-! # Rebound sources — asking for sources and replacing a table go over the same columns

    Two functions go over a term: one lists the sources of its columns, the other puts one table in
    the place of another. They are two recursions over the same kinds of terms, and they agree:
    after a replacement the list is what it was, with the new table wherever the current one stood.
    A replacement leaves nothing of the current table where it looks, so a second one finds nothing
    to do.

    * `Source.replacedIn` — what becomes of the source of a column.
    * `checkedSources_rebind` — the sources that are asked for among rebound references.
    * `WithoutTable`, `Term.replaceTable_of_without` — a term in which nothing is looked for that
      belongs to the table stays as it is.
    * `Term.replaceTable_sources` — the theorem. -/

namespace SqlCompose

/-! ## One source -/

/-- Whether two tables are the same does not depend on which of them is asked. -/
theorem Table.same_comm (a b : Table) : a.same b = b.same a := by
  have hname : (a.name == b.name) = (b.name == a.name) := BEq.comm
  have hschema : (a.schema == b.schema) = (b.schema == a.schema) := BEq.comm
  have halias : (a.slot.aliasName == b.slot.aliasName) = (b.slot.aliasName == a.slot.aliasName) :=
    BEq.comm
  rw [same, same, hname, hschema, halias]

/-- The source of a column, or the new table where that is the current one. -/
def Source.replacedIn (current new : Table) (source : Option Source) : Option Source :=
  if sameOption source (some (.table current)) then some (.table new) else source

/-- A column's source is replaced if it is the current table, and otherwise kept. -/
theorem Source.map_replaceTable (current new : Table) (source : Option Source) :
    source.map (replaceTable current new) = replacedIn current new source := by
  rcases source with _ | t | slot | name
  · rfl
  · show some (if t.same current then table new else table t) =
      if t.same current then some (table new) else some (table t)
    split <;> rfl
  · rfl
  · rfl

section

variable {current new : Table}

/-- The sources that are asked for among rebound references are those among the references, each
    replaced where it stands. -/
theorem checkedSources_rebind (rs : List Reference) :
    checkedSources (rs.map (Reference.rebind current new)) =
      (checkedSources rs).map (Source.replacedIn current new) := by
  have hone : ∀ r : Reference, (r.rebind current new).checked? =
      r.checked?.map (Source.replacedIn current new) := by
    rintro ⟨_ | name, source, _ | _⟩
    · rfl
    · rfl
    · exact congrArg some (Source.map_replaceTable current new source)
    · rfl
  simp only [checkedSources, List.filterMap_map, List.map_filterMap, Function.comp_def, hone]

/-! ## Terms without the table -/

/-- Nothing among the references belongs to the table, but what stands aside. -/
def WithoutTable (current : Table) (rs : List Reference) : Prop :=
  ∀ r ∈ rs, r.aside = false → r.isTo current = false

theorem withoutTable_append {rs rs' : List Reference} :
    WithoutTable current (rs ++ rs') ↔ WithoutTable current rs ∧ WithoutTable current rs' :=
  List.forall_mem_append

/-- A source that is not the current table is kept. -/
theorem Source.map_replaceTable_of_without {column : Option String} {source : Option Source}
    (h : WithoutTable current [{ column, source }]) :
    source.map (replaceTable current new) = source := by
  have hother : (Reference.mk column source false).isTo current = false :=
    h _ (List.mem_singleton_self _) rfl
  rcases source with _ | t | slot | name
  · rfl
  · have hother : t.same current = false := hother
    show some (if t.same current then table new else table t) = some (table t)
    rw [hother]
    rfl
  · rfl
  · rfl

end

section

variable {current new : Table}

mutual

/-- A term in which nothing is looked for that belongs to the table stays as it is. -/
theorem Term.replaceTable_of_without :
    (t : Term) → WithoutTable current t.references → t.replaceTable current new = t
  | ⟨expr, aliasName⟩, h => congrArg (Term.mk · aliasName) (Expr.replaceTable_of_without expr h)

theorem Expr.replaceTable_of_without :
    (e : Expr) → WithoutTable current e.references → e.replaceTable current new = e
  | .field name source, h => congrArg (Expr.field name) (Source.map_replaceTable_of_without h)
  | .star source, h => congrArg Expr.star (Source.map_replaceTable_of_without h)
  | .tuple items, h => congrArg Expr.tuple (listReplaceTable_of_without items h)
  | .array items, h => congrArg Expr.array (listReplaceTable_of_without items h)
  | .call c, h => congrArg Expr.call (Call.replaceTable_of_without c h)
  | .case branches otherwise, h => by
    obtain ⟨hbranches, hotherwise⟩ := withoutTable_append.mp h
    rw [Expr.replaceTable, branchesReplaceTable_of_without branches hbranches,
      optionReplaceTable_of_without otherwise hotherwise]
  | .arithmetic op left right, h => by
    obtain ⟨hleft, hright⟩ := withoutTable_append.mp h
    rw [Expr.replaceTable, Term.replaceTable_of_without left hleft,
      Term.replaceTable_of_without right hright]
  | .negative operand, h => congrArg Expr.negative (Term.replaceTable_of_without operand h)
  | .comparison op left right, h => by
    obtain ⟨hleft, hright⟩ := withoutTable_append.mp h
    rw [Expr.replaceTable, Term.replaceTable_of_without left hleft,
      Term.replaceTable_of_without right hright]
  | .combination op left right, h => by
    obtain ⟨hleft, hright⟩ := withoutTable_append.mp h
    rw [Expr.replaceTable, Term.replaceTable_of_without left hleft,
      Term.replaceTable_of_without right hright]
  | .chain first second left middle right, h => by
    obtain ⟨hfirst, hright⟩ := withoutTable_append.mp h
    obtain ⟨hleft, hmiddle⟩ := withoutTable_append.mp hfirst
    rw [Expr.replaceTable, Term.replaceTable_of_without left hleft,
      Term.replaceTable_of_without middle hmiddle, Term.replaceTable_of_without right hright]
  | .membership operand container negated, h => by
    obtain ⟨hoperand, hcontainer⟩ := withoutTable_append.mp h
    rw [Expr.replaceTable, Term.replaceTable_of_without operand hoperand,
      Term.replaceTable_of_without container hcontainer]
  | .between operand lower upper, h => by
    obtain ⟨hfirst, hupper⟩ := withoutTable_append.mp h
    obtain ⟨hoperand, hlower⟩ := withoutTable_append.mp hfirst
    rw [Expr.replaceTable, Term.replaceTable_of_without operand hoperand,
      Term.replaceTable_of_without lower hlower, Term.replaceTable_of_without upper hupper]
  | .period operand start stop, h => by
    obtain ⟨hfirst, hstop⟩ := withoutTable_append.mp h
    obtain ⟨hoperand, hstart⟩ := withoutTable_append.mp hfirst
    rw [Expr.replaceTable, Term.replaceTable_of_without operand hoperand,
      Term.replaceTable_of_without start hstart, Term.replaceTable_of_without stop hstop]
  | .bitAnd operand mask, h =>
    congrArg (Expr.bitAnd · mask) (Term.replaceTable_of_without operand h)
  | .isNull operand, h => congrArg Expr.isNull (Term.replaceTable_of_without operand h)
  | .not operand, h => congrArg Expr.not (Term.replaceTable_of_without operand h)
  | .all operand, h => congrArg Expr.all (Term.replaceTable_of_without operand h)
  | .jsonPath column path, h =>
    congrArg (Expr.jsonPath · path) (Term.replaceTable_of_without column h)
  | .insertedValue field, h => congrArg Expr.insertedValue (Term.replaceTable_of_without field h)
  | .atTimeZone operand zone isInterval, h =>
    congrArg (Expr.atTimeZone · zone isInterval) (Term.replaceTable_of_without operand h)
  | .literal _, _ | .value _ _, _ | .interval _, _ | .document _, _ | .parameter _, _
  | .subquery _, _ | .setOperation _, _ | .index _, _ | .pseudoColumn _, _ | .empty, _ => rfl

theorem listReplaceTable_of_without :
    (ts : List Term) → WithoutTable current (termReferences ts) →
      listReplaceTable current new ts = ts
  | [], _ => rfl
  | t :: rest, h => by
    obtain ⟨hfirst, hrest⟩ := withoutTable_append.mp h
    rw [listReplaceTable, Term.replaceTable_of_without t hfirst,
      listReplaceTable_of_without rest hrest]

theorem branchesReplaceTable_of_without :
    (bs : List Branch) → WithoutTable current (branchReferences bs) →
      branchesReplaceTable current new bs = bs
  | [], _ => rfl
  | ⟨condition, result⟩ :: rest, h => by
    obtain ⟨hfirst, hrest⟩ := withoutTable_append.mp h
    obtain ⟨hcondition, hresult⟩ := withoutTable_append.mp hfirst
    rw [branchesReplaceTable, Term.replaceTable_of_without condition hcondition,
      Term.replaceTable_of_without result hresult, branchesReplaceTable_of_without rest hrest]

theorem optionReplaceTable_of_without :
    (t : Option Term) → WithoutTable current (optionReferences t) →
      optionReplaceTable current new t = t
  | none, _ => rfl
  | some t, h => congrArg some (Term.replaceTable_of_without t h)

theorem Call.replaceTable_of_without :
    (c : Call) → WithoutTable current c.references → c.replaceTable current new = c
  | ⟨_, arguments, _, suffix, _, _, _, filter, window, _⟩, h => by
    -- the filter and the window stand aside, and are not rebound either
    obtain ⟨hinside, -⟩ := withoutTable_append.mp h
    obtain ⟨harguments, hsuffix⟩ := withoutTable_append.mp hinside
    rw [Call.replaceTable, listReplaceTable_of_without arguments harguments,
      suffixReplaceTable_of_without suffix hsuffix]

theorem suffixReplaceTable_of_without :
    (s : Option CallSuffix) → WithoutTable current (suffixReferences s) →
      suffixReplaceTable current new s = s
  | none, _ => rfl
  | some (.words _), _ => rfl
  | some .ignoreNulls, _ => rfl
  | some (.source t), h =>
    congrArg (fun t => some (CallSuffix.source t)) (Term.replaceTable_of_without t h)

end

end

/-! ## The theorem -/

namespace Term

/-- Nothing of the current table is left where a replacement by a different table looks. -/
theorem withoutTable_replaceTable {current new : Table} (h : new.same current = false) (t : Term) :
    WithoutTable current (t.replaceTable current new).references := by
  intro r hr haside
  rw [t.references_replaceTable current new] at hr
  obtain ⟨r, -, rfl⟩ := List.mem_map.mp hr
  rw [Reference.rebind_aside] at haside
  exact Reference.rebind_isTo h haside

/-- **Both ways over a term meet the same columns.** Let a table be put in the place of another one
    in a term.
    * The sources of the columns are listed as before, in the same order and as often: the new table
      wherever the current one was listed, and every other source, or none, where it was.
    * If the tables are different, putting the new one in the place of the current one once more
      leaves the whole term as it is. -/
theorem replaceTable_sources (current new : Table) (t : Term) :
    (t.replaceTable current new).fieldSources =
      t.fieldSources.map (Source.replacedIn current new) ∧
    (current.same new = false →
      (t.replaceTable current new).replaceTable current new = t.replaceTable current new) := by
  constructor
  · calc (t.replaceTable current new).fieldSources
        = checkedSources (t.replaceTable current new).references :=
          (t.replaceTable current new).fieldSources_eq
      _ = checkedSources (t.references.map (Reference.rebind current new)) := by
          rw [t.references_replaceTable current new]
      _ = (checkedSources t.references).map (Source.replacedIn current new) :=
          checkedSources_rebind t.references
      _ = t.fieldSources.map (Source.replacedIn current new) := by rw [t.fieldSources_eq]
  · intro h
    have hnew : new.same current = false := (Table.same_comm new current).trans h
    exact (t.replaceTable current new).replaceTable_of_without (t.withoutTable_replaceTable hnew)

/-- A CASE over columns of two tables and of none, with a star, which is rebound and not listed. -/
theorem replaceTable_sources_case :
    let a := Table.named 1 "a"
    let b := Table.named 2 "b"
    let c := Table.named 3 "c"
    let x (table : Table) : Term := .column "x" (some (.table table))
    let t : Term := ⟨.case [⟨(x a).compare .eq (x c), .starOf (.table a)⟩,
      ⟨(x c).isNull, (x a).compare .lt (.field "y")⟩] (some (x a)), some "n"⟩
    (t.replaceTable a b).fieldSources =
        [some (.table b), some (.table c), some (.table c), some (.table b), none,
          some (.table b)] ∧
      (t.replaceTable a b).replaceTable a b = t.replaceTable a b := by
  intro a b c x t
  obtain ⟨hsources, hagain⟩ := replaceTable_sources a b t
  exact ⟨hsources, hagain (by decide)⟩

end Term

end SqlCompose
