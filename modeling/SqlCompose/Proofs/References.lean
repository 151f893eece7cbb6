import SqlCompose.Proofs.Leaves
import SqlCompose.Term.Sources

/-! # References — every column and star of a term

    Two functions of a builder go over a term and look at its columns: one asks for their sources,
    the other binds them to another table. Both pass over the filters and the windows of calls. The
    references of a term are all of its columns and stars outside of nested statements, and each
    says whether it stands in such a place.

    * `Reference`, `Term.references` — the references of a term, in the order in which they stand in
      it.
    * `Term.leaves_named` — what a term is written around are its references.
    * `Term.fieldSources_eq` — the sources that are asked for are those of the columns that do not
      stand in a filter or a window. -/

namespace SqlCompose

/-! ## References -/

/-- A column or a star as it stands in a term. -/
structure Reference where
  /-- The name of the column; a star has none. -/
  column : Option String
  source : Option Source
  /-- Whether it stands where the builder does not look for it, as in the filter of a call. -/
  aside  : Bool := false

namespace Reference

/-- The reference in such a place. -/
def putAside (r : Reference) : Reference := { r with aside := true }

/-- What a term is written around where the reference stands. -/
def leaf (r : Reference) : Leaf :=
  match r.column with
  | some name => .column name r.source
  | none => .star r.source

/-- The source of a column, where the builder looks for it. -/
def checked? (r : Reference) : Option (Option Source) :=
  if r.aside || r.column.isNone then none else some r.source

/-- Whether the reference is to the table. -/
def isTo (t : Table) (r : Reference) : Bool :=
  match r.source with
  | some (.table other) => other.same t
  | _ => false

end Reference

mutual

/-- The references of a term. -/
def Term.references : Term → List Reference
  | { expr, .. } => expr.references

/-- The references of an expression. -/
def Expr.references : Expr → List Reference
  | .field name source => [{ column := some name, source }]
  | .star source => [{ column := none, source }]
  | .tuple items => termReferences items
  | .array items => termReferences items
  | .call c => c.references
  | .case branches otherwise => branchReferences branches ++ optionReferences otherwise
  | .arithmetic _ left right => left.references ++ right.references
  | .negative operand => operand.references
  | .comparison _ left right => left.references ++ right.references
  | .combination _ left right => left.references ++ right.references
  | .chain _ _ left middle right => left.references ++ middle.references ++ right.references
  | .membership operand container _ => operand.references ++ container.references
  | .between operand lower upper => operand.references ++ lower.references ++ upper.references
  | .period operand start stop => operand.references ++ start.references ++ stop.references
  | .bitAnd operand _ => operand.references
  | .isNull operand => operand.references
  | .not operand => operand.references
  | .all operand => operand.references
  | .jsonPath column _ => column.references
  | .insertedValue field => field.references
  | .atTimeZone operand _ _ => operand.references
  | _ => []

/-- The references of terms. -/
def termReferences : List Term → List Reference
  | [] => []
  | t :: rest => t.references ++ termReferences rest

/-- The references of a term that may be missing. -/
def optionReferences : Option Term → List Reference
  | none => []
  | some t => t.references

/-- The references of the branches of a CASE expression. -/
def branchReferences : List Branch → List Reference
  | [] => []
  | { condition, result } :: rest =>
    condition.references ++ result.references ++ branchReferences rest

/-- The references of a call; nobody looks for those in its filter and its window. -/
def Call.references : Call → List Reference
  | { arguments, suffix, filter, window, .. } =>
    termReferences arguments ++ suffixReferences suffix ++
      (optionReferences filter ++ windowReferences window).map Reference.putAside

/-- The references behind the arguments of a call. -/
def suffixReferences : Option CallSuffix → List Reference
  | some (.source t) => t.references
  | _ => []

/-- The references of an OVER clause. -/
def windowReferences : Option Window → List Reference
  | none => []
  | some { partition, orderings } => termReferences partition ++ orderingReferences orderings

/-- The references of terms to sort by. -/
def orderingReferences : List Ordering → List Reference
  | [] => []
  | { term, .. } :: rest => term.references ++ orderingReferences rest

end

/-! ## References and leaves -/

/-- Whether the leaf is a column or a star. -/
def Leaf.isColumn : Leaf → Bool
  | column _ _ | star _ => true
  | statement _ _ | setOperation _ _ => false

/-- The columns and stars among the leaves are references. -/
def Named (leaves : List Leaf) (rs : List Reference) : Prop :=
  ∀ x ∈ leaves, x.isColumn = true → ∃ r ∈ rs, r.leaf = x

namespace Named

variable {leaves leaves' : List Leaf} {rs rs' : List Reference}

/-- Where there are no leaves, none is left without a reference. -/
theorem nil (rs : List Reference) : Named [] rs := nofun

theorem single (r : Reference) : Named [r.leaf] [r] :=
  fun _ hx _ => ⟨r, List.mem_singleton_self r, (List.mem_singleton.mp hx).symm⟩

/-- Leaves of two parts have the references of both. -/
theorem append (h : Named leaves rs) (h' : Named leaves' rs') :
    Named (leaves ++ leaves') (rs ++ rs') := by
  intro x hx hcolumn
  rcases List.mem_append.mp hx with hx | hx
  · obtain ⟨r, hr, hleaf⟩ := h x hx hcolumn
    exact ⟨r, List.mem_append_left _ hr, hleaf⟩
  · obtain ⟨r, hr, hleaf⟩ := h' x hx hcolumn
    exact ⟨r, List.mem_append_right _ hr, hleaf⟩

/-- References that stand aside are still those of the leaves. -/
theorem putAside (h : Named leaves rs) : Named leaves (rs.map Reference.putAside) := by
  intro x hx hcolumn
  obtain ⟨r, hr, hleaf⟩ := h x hx hcolumn
  exact ⟨r.putAside, List.mem_map_of_mem hr, hleaf⟩

end Named

mutual

/-- What a term is written around are its references and nested statements. -/
theorem Term.leaves_named (nested : Bool) : (t : Term) → Named (t.leaves nested) t.references
  | ⟨expr, _⟩ => Expr.leaves_named nested expr

/-- So it is with an expression. -/
theorem Expr.leaves_named (nested : Bool) : (e : Expr) → Named (e.leaves nested) e.references
  | .field name source => .single { column := some name, source }
  | .star source => .single { column := none, source }
  | .tuple items => termLeaves_named nested items
  | .array items => termLeaves_named nested items
  | .call c => Call.leaves_named nested c
  | .case branches otherwise =>
    (branchLeaves_named nested branches).append (optionLeaves_named nested otherwise)
  | .arithmetic _ left right => (left.leaves_named nested).append (right.leaves_named nested)
  | .negative operand => operand.leaves_named nested
  | .comparison _ left right => (left.leaves_named nested).append (right.leaves_named nested)
  | .combination _ left right => (left.leaves_named nested).append (right.leaves_named nested)
  | .chain _ _ left middle right =>
    ((left.leaves_named nested).append (middle.leaves_named nested)).append
      (right.leaves_named nested)
  | .membership operand container _ =>
    (operand.leaves_named nested).append (container.leaves_named true)
  | .between operand lower upper =>
    ((operand.leaves_named nested).append (lower.leaves_named nested)).append
      (upper.leaves_named nested)
  | .period operand start stop =>
    ((operand.leaves_named nested).append (start.leaves_named nested)).append
      (stop.leaves_named nested)
  | .bitAnd operand _ => operand.leaves_named nested
  | .isNull operand => operand.leaves_named nested
  | .not operand => operand.leaves_named nested
  | .all operand => operand.leaves_named nested
  | .jsonPath column _ => column.leaves_named nested
  | .insertedValue field => field.leaves_named nested
  | .atTimeZone operand _ _ => operand.leaves_named nested
  -- a nested statement is a leaf by itself
  | .subquery q => fun x hx hcolumn => by
    obtain rfl := List.mem_singleton.mp hx
    exact nomatch hcolumn
  | .setOperation s => fun x hx hcolumn => by
    obtain rfl := List.mem_singleton.mp hx
    exact nomatch hcolumn
  | .literal _ | .value _ _ | .interval _ | .document _ | .parameter _ | .index _
  | .pseudoColumn _ | .empty => .nil _

/-- With terms. -/
theorem termLeaves_named (nested : Bool) :
    (ts : List Term) → Named (termLeaves nested ts) (termReferences ts)
  | [] => .nil _
  | t :: rest => (t.leaves_named nested).append (termLeaves_named nested rest)

theorem optionLeaves_named (nested : Bool) :
    (t : Option Term) → Named (optionLeaves nested t) (optionReferences t)
  | none => .nil _
  | some t => t.leaves_named nested

/-- With the branches of a CASE. -/
theorem branchLeaves_named (nested : Bool) :
    (bs : List Branch) → Named (branchLeaves nested bs) (branchReferences bs)
  | [] => .nil _
  | ⟨condition, result⟩ :: rest =>
    ((condition.leaves_named nested).append (result.leaves_named nested)).append
      (branchLeaves_named nested rest)

/-- With a call, and what stands behind it. -/
theorem Call.leaves_named (nested : Bool) : (c : Call) → Named (c.leaves nested) c.references
  | ⟨_, arguments, _, suffix, bare, _, _, filter, window, _⟩ => by
    have hinside := (termLeaves_named nested arguments).append (suffixLeaves_named nested suffix)
    have haside := (optionLeaves_named nested filter).append (windowLeaves_named nested window)
    show Named (if _ then _ else _) _
    split
    · exact .nil _
    · rw [List.append_assoc]
      exact hinside.append haside.putAside

theorem suffixLeaves_named (nested : Bool) :
    (s : Option CallSuffix) → Named (suffixLeaves nested s) (suffixReferences s)
  | none => .nil _
  | some (.words _) => .nil _
  | some .ignoreNulls => .nil _
  | some (.source t) => t.leaves_named nested

theorem windowLeaves_named (nested : Bool) :
    (w : Option Window) → Named (windowLeaves nested w) (windowReferences w)
  | none => .nil _
  | some ⟨partition, orderings⟩ =>
    (termLeaves_named nested partition).append (orderingLeaves_named nested orderings)

/-- And with orders. -/
theorem orderingLeaves_named (nested : Bool) :
    (os : List Ordering) →
      Named (orderingLeaves nested (fun _ => none) os) (orderingReferences os)
  | [] => .nil _
  | ⟨term, _⟩ :: rest => by
    have hshort : (term.knownAs.bind fun _ => (none : Option (List Leaf))) = none := by
      cases term.knownAs <;> rfl
    rw [orderingLeaves, hshort]
    exact (term.leaves_named nested).append (orderingLeaves_named nested rest)

end

/-! ## References and sources -/

/-- The sources of the columns among the references that do not stand in a filter or a window. -/
def checkedSources (rs : List Reference) : List (Option Source) := rs.filterMap Reference.checked?

/-- The sources of two lists of references, one behind the other. -/
theorem checkedSources_append (rs rs' : List Reference) :
    checkedSources (rs ++ rs') = checkedSources rs ++ checkedSources rs' := List.filterMap_append

/-- A source is checked if a column refers to it that does not stand aside. -/
theorem mem_checkedSources {source : Option Source} {rs : List Reference} :
    source ∈ checkedSources rs ↔
      ∃ r ∈ rs, r.aside = false ∧ r.column.isSome = true ∧ r.source = source := by
  simp only [checkedSources, List.mem_filterMap]
  refine exists_congr fun r => and_congr_right fun _ => ?_
  obtain ⟨_ | name, other, _ | _⟩ := r <;> simp [Reference.checked?]

/-- Nothing that stands in a filter or a window is checked. -/
theorem checkedSources_putAside (rs : List Reference) :
    checkedSources (rs.map Reference.putAside) = [] := by
  simp [checkedSources, Reference.checked?, Reference.putAside]

mutual

/-- The sources that are asked for are those of the columns outside of filters and windows. -/
theorem Term.fieldSources_eq : (t : Term) → t.fieldSources = checkedSources t.references
  | ⟨expr, _⟩ => Expr.fieldSources_eq expr

/-- What an expression is checked for are the sources of its references. -/
theorem Expr.fieldSources_eq : (e : Expr) → e.fieldSources = checkedSources e.references
  | .field name source => rfl
  | .star source => rfl
  | .tuple items => listFieldSources_eq items
  | .array items => listFieldSources_eq items
  | .call c => Call.fieldSources_eq c
  | .case branches otherwise => by
    rw [Expr.fieldSources, Expr.references, checkedSources_append, branchFieldSources_eq branches,
      optionFieldSources_eq otherwise]
  | .arithmetic _ left right => by
    rw [Expr.fieldSources, Expr.references, checkedSources_append, left.fieldSources_eq,
      right.fieldSources_eq]
  | .negative operand => operand.fieldSources_eq
  | .comparison _ left right => by
    rw [Expr.fieldSources, Expr.references, checkedSources_append, left.fieldSources_eq,
      right.fieldSources_eq]
  | .combination _ left right => by
    rw [Expr.fieldSources, Expr.references, checkedSources_append, left.fieldSources_eq,
      right.fieldSources_eq]
  | .chain _ _ left middle right => by
    rw [Expr.fieldSources, Expr.references, checkedSources_append, checkedSources_append,
      left.fieldSources_eq, middle.fieldSources_eq, right.fieldSources_eq]
  | .membership operand container _ => by
    rw [Expr.fieldSources, Expr.references, checkedSources_append, operand.fieldSources_eq,
      container.fieldSources_eq]
  | .between operand lower upper => by
    rw [Expr.fieldSources, Expr.references, checkedSources_append, checkedSources_append,
      operand.fieldSources_eq, lower.fieldSources_eq, upper.fieldSources_eq]
  | .period operand start stop => by
    rw [Expr.fieldSources, Expr.references, checkedSources_append, checkedSources_append,
      operand.fieldSources_eq, start.fieldSources_eq, stop.fieldSources_eq]
  | .bitAnd operand _ => operand.fieldSources_eq
  | .isNull operand => operand.fieldSources_eq
  | .not operand => operand.fieldSources_eq
  | .all operand => operand.fieldSources_eq
  | .jsonPath column _ => column.fieldSources_eq
  | .insertedValue field => field.fieldSources_eq
  | .atTimeZone operand _ _ => operand.fieldSources_eq
  | .literal _ | .value _ _ | .interval _ | .document _ | .parameter _ | .subquery _
  | .setOperation _ | .index _ | .pseudoColumn _ | .empty => rfl

/-- So it is for terms. -/
theorem listFieldSources_eq :
    (ts : List Term) → listFieldSources ts = checkedSources (termReferences ts)
  | [] => rfl
  | t :: rest => by
    rw [listFieldSources, termReferences, checkedSources_append, t.fieldSources_eq,
      listFieldSources_eq rest]

/-- For the branches of a CASE. -/
theorem branchFieldSources_eq :
    (bs : List Branch) → branchFieldSources bs = checkedSources (branchReferences bs)
  | [] => rfl
  | ⟨condition, result⟩ :: rest => by
    rw [branchFieldSources, branchReferences, checkedSources_append, checkedSources_append,
      condition.fieldSources_eq, result.fieldSources_eq, branchFieldSources_eq rest]

theorem optionFieldSources_eq :
    (t : Option Term) → optionFieldSources t = checkedSources (optionReferences t)
  | none => rfl
  | some t => t.fieldSources_eq

/-- For a call, whose filter and window are not looked at. -/
theorem Call.fieldSources_eq : (c : Call) → c.fieldSources = checkedSources c.references
  | ⟨_, arguments, _, suffix, _, _, _, filter, window, _⟩ => by
    rw [Call.fieldSources, Call.references, checkedSources_append, checkedSources_append,
      checkedSources_putAside, List.append_nil, listFieldSources_eq arguments,
      suffixFieldSources_eq suffix]

theorem suffixFieldSources_eq :
    (s : Option CallSuffix) → suffixFieldSources s = checkedSources (suffixReferences s)
  | none => rfl
  | some (.words _) => rfl
  | some .ignoreNulls => rfl
  | some (.source t) => t.fieldSources_eq

end

end SqlCompose
