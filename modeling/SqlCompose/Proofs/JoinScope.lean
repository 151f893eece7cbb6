import Mathlib.Data.List.ReduceOption
import SqlCompose.Proofs.ClauseOrder
import SqlCompose.Proofs.Everywhere
import SqlCompose.Proofs.References

/-! # Scope of joins — which columns a criterion may name

    A join on a criterion is accepted if the source of every column in it is read already or joined
    by it: what the check goes by is known exactly. It passes over the filters and the windows of
    calls, so what is written of an accepted criterion keeps to what is read, those places excepted.

    * `Query.InScope` — the five ways in which a source is at hand.
    * `Query.join_on_iff` — what the check accepts.
    * `Part.Bare` — a call whose name stands alone has no columns behind it.
    * `Term.fieldSources_shown` — then every column that is checked is written.
    * `Query.join_on_scope` — the theorem. -/

namespace SqlCompose

/-! ## Sources at hand -/

/-- Columns of the source may be named in the criterion by which the item is joined. -/
inductive Query.InScope (q : Query) (item : FromItem) (s : Source) : Prop
  /-- An item of FROM. -/
  | read {other : FromItem} : other ∈ q.sources → other.owns s = true → q.InScope item s
  /-- The table that is updated. -/
  | updated {t : Table} :
      q.updateTable = some t → (FromItem.table t).owns s = true → q.InScope item s
  /-- A WITH clause. -/
  | named {cte : Cte} : cte ∈ q.ctes → (FromItem.cte cte.name).owns s = true → q.InScope item s
  /-- The item of an earlier join. -/
  | joined {j : Join} : j ∈ q.joins → j.item.owns s = true → q.InScope item s
  /-- The item itself. -/
  | item : item.owns s = true → q.InScope item s

namespace Query

variable {q : Query} {item : FromItem}

/-- The check looks through all that is at hand. -/
theorem any_owns_iff (s : Source) :
    ((q.readable ++ q.joins.map Join.item) ++ [item]).any (·.owns s) = true ↔
      q.InScope item s := by
  -- one place for each of the five ways to be in scope
  constructor
  · intro h
    obtain ⟨other, hother, howns⟩ := List.any_eq_true.mp h
    rcases List.mem_append.mp hother with hother | hitem
    · rcases List.mem_append.mp hother with hreadable | hjoined
      · rcases List.mem_append.mp hreadable with hread | hcte
        · rcases List.mem_append.mp hread with hsource | hupdated
          · exact .read hsource howns
          · obtain ⟨t, ht, rfl⟩ := Option.map_eq_some_iff.mp (Option.mem_toList.mp hupdated)
            exact .updated ht howns
        · obtain ⟨cte, hwith, rfl⟩ := List.mem_map.mp hcte
          exact .named hwith howns
      · obtain ⟨j, hj, rfl⟩ := List.mem_map.mp hjoined
        exact .joined hj howns
    · obtain rfl := List.mem_singleton.mp hitem
      exact .item howns
  · intro h
    rw [List.any_eq_true]
    cases h with
    | @read other hsource howns =>
      exact ⟨other, by simp [readable, hsource], howns⟩
    | @updated t ht howns =>
      exact ⟨.table t, by simp [readable, ht], howns⟩
    | @named cte hcte howns =>
      refine ⟨.cte cte.name, ?_, howns⟩
      simp only [readable, List.mem_append, List.mem_map]
      exact Or.inl (Or.inl (Or.inr ⟨cte, hcte, rfl⟩))
    | @joined j hj howns =>
      refine ⟨j.item, ?_, howns⟩
      simp only [List.mem_append, List.mem_map]
      exact Or.inl (Or.inr ⟨j, hj, rfl⟩)
    | item howns =>
      exact ⟨item, List.mem_append_right _ (List.mem_singleton_self item), howns⟩

/-- A join is accepted just if no source is missing. -/
theorem addJoin_iff (j : Join) :
    (∃ r, q.addJoin j = .ok r) ↔ ∀ s, some s ∈ j.criterionSources → q.InScope j.item s := by
  have hmissing : j.missingSources (q.readable ++ q.joins.map Join.item) = [] ↔
      ∀ s, some s ∈ j.criterionSources → q.InScope j.item s := by
    simp only [Join.missingSources]
    rw [List.filter_eq_nil_iff]
    constructor
    · intro h s hs
      have hnot := h s (List.reduceOption_mem_iff.mpr hs)
      rwa [Bool.not_eq_true', Bool.not_eq_false, any_owns_iff] at hnot
    · intro h s hs
      have howns := (any_owns_iff s).mpr (h s (List.reduceOption_mem_iff.mp hs))
      rw [howns]
      exact Bool.false_ne_true
  rw [← hmissing]
  simp only [addJoin]
  split
  · next hnone => exact iff_of_true ⟨_, rfl⟩ hnone
  · next hsome =>
    refine iff_of_false ?_ hsome
    rintro ⟨r, h⟩
    cases h

/-- Naming the joined item does not change what is at hand. -/
theorem inScope_nameJoined (other : FromItem) (s : Source) :
    (q.nameJoined other).InScope item s ↔ q.InScope item s := by
  obtain ⟨scope, count, hnamed⟩ := q.nameJoined_eq other
  rw [← any_owns_iff, ← any_owns_iff, hnamed]
  rfl

/-- **What a join accepts.** A join on a criterion that asks for something is accepted if and only
    if every bound column of the criterion outside of nested statements, filters and windows belongs
    to what is at hand. -/
theorem join_on_iff {criterion : Term} (hc : criterion.isEmpty = false) (kind : JoinKind)
    (collation : Option String) :
    (∃ r, q.join item kind (.on criterion collation) = .ok r) ↔
      ∀ s, some s ∈ criterion.fieldSources → q.InScope item s := by
  have hjoin : q.join item kind (.on criterion collation) =
      (q.nameJoined item).addJoin ⟨item, kind, .on criterion collation⟩ := by
    simp only [join, joinOn]
    rw [if_neg (Bool.eq_false_iff.mp hc)]
  rw [hjoin, addJoin_iff]
  exact forall_congr' fun s => imp_congr_right fun _ => inScope_nameJoined item s

end Query

/-! ## Columns that are checked and columns that are written -/

/-- A call whose name stands alone has no columns behind it, which would not be written. -/
def Part.Bare (p : Part) : Prop :=
  match p with
  | .expr (.call c) => c.bare = true → c.fieldSources = []
  | _ => True

/-- Every source is that of a column among the leaves. -/
def Shown (sources : List (Option Source)) (leaves : List Leaf) : Prop :=
  ∀ source ∈ sources, ∃ name, .column name source ∈ leaves

namespace Shown

variable {sources sources' : List (Option Source)} {leaves leaves' : List Leaf}

theorem nil (leaves : List Leaf) : Shown [] leaves := nofun

theorem append (h : Shown sources leaves) (h' : Shown sources' leaves') :
    Shown (sources ++ sources') (leaves ++ leaves') := by
  intro source hsource
  rcases List.mem_append.mp hsource with hin | hin
  · obtain ⟨name, hname⟩ := h source hin
    exact ⟨name, List.mem_append_left _ hname⟩
  · obtain ⟨name, hname⟩ := h' source hin
    exact ⟨name, List.mem_append_right _ hname⟩

theorem before (h : Shown sources leaves) (leaves' : List Leaf) :
    Shown sources (leaves ++ leaves') :=
  List.append_nil sources ▸ h.append (nil leaves')

end Shown

mutual

/-- Every column that is checked is written. -/
theorem Term.fieldSources_shown (nested : Bool) :
    (t : Term) → t.Everywhere Part.Bare → Shown t.fieldSources (t.leaves nested)
  | ⟨expr, _⟩, h => Expr.fieldSources_shown nested expr h.1 h.2

theorem Expr.fieldSources_shown (nested : Bool) :
    (e : Expr) → Part.Bare (.expr e) → e.Below Part.Bare → Shown e.fieldSources (e.leaves nested)
  | .field name _, _, _ => fun _ hs =>
    ⟨name, List.mem_singleton.mp hs ▸ List.mem_singleton_self _⟩
  | .tuple items, _, h => listFieldSources_shown nested items h
  | .array items, _, h => listFieldSources_shown nested items h
  | .call c, hc, h => Call.fieldSources_shown nested c hc h
  | .case branches otherwise, _, h =>
    (branchFieldSources_shown nested branches h.1).append
      (optionFieldSources_shown nested otherwise h.2)
  | .arithmetic _ left right, _, h =>
    (left.fieldSources_shown nested h.1).append (right.fieldSources_shown nested h.2)
  | .negative operand, _, h => operand.fieldSources_shown nested h
  | .comparison _ left right, _, h =>
    (left.fieldSources_shown nested h.1).append (right.fieldSources_shown nested h.2)
  | .combination _ left right, _, h =>
    (left.fieldSources_shown nested h.1).append (right.fieldSources_shown nested h.2)
  | .chain _ _ left middle right, _, h =>
    ((left.fieldSources_shown nested h.1).append (middle.fieldSources_shown nested h.2.1)).append
      (right.fieldSources_shown nested h.2.2)
  | .membership operand container _, _, h =>
    (operand.fieldSources_shown nested h.1).append (container.fieldSources_shown true h.2)
  | .between operand lower upper, _, h =>
    ((operand.fieldSources_shown nested h.1).append (lower.fieldSources_shown nested h.2.1)).append
      (upper.fieldSources_shown nested h.2.2)
  | .period operand start stop, _, h =>
    ((operand.fieldSources_shown nested h.1).append (start.fieldSources_shown nested h.2.1)).append
      (stop.fieldSources_shown nested h.2.2)
  | .bitAnd operand _, _, h => operand.fieldSources_shown nested h
  | .isNull operand, _, h => operand.fieldSources_shown nested h
  | .not operand, _, h => operand.fieldSources_shown nested h
  | .all operand, _, h => operand.fieldSources_shown nested h
  | .jsonPath column _, _, h => column.fieldSources_shown nested h
  | .insertedValue field, _, h => field.fieldSources_shown nested h
  | .atTimeZone operand _ _, _, h => operand.fieldSources_shown nested h
  | .literal _, _, _ | .value _ _, _, _ | .star _, _, _ | .interval _, _, _ | .document _, _, _
  | .parameter _, _, _ | .subquery _, _, _ | .setOperation _, _, _ | .index _, _, _
  | .pseudoColumn _, _, _ | .empty, _, _ => .nil _

theorem listFieldSources_shown (nested : Bool) :
    (ts : List Term) → termsEverywhere Part.Bare ts →
      Shown (listFieldSources ts) (termLeaves nested ts)
  | [], _ => .nil _
  | t :: rest, h =>
    (t.fieldSources_shown nested h.1).append (listFieldSources_shown nested rest h.2)

theorem branchFieldSources_shown (nested : Bool) :
    (bs : List Branch) → branchesEverywhere Part.Bare bs →
      Shown (branchFieldSources bs) (branchLeaves nested bs)
  | [], _ => .nil _
  | ⟨condition, result⟩ :: rest, h =>
    ((condition.fieldSources_shown nested h.1).append
      (result.fieldSources_shown nested h.2.1)).append
        (branchFieldSources_shown nested rest h.2.2)

theorem optionFieldSources_shown (nested : Bool) :
    (t : Option Term) → optionEverywhere Part.Bare t →
      Shown (optionFieldSources t) (optionLeaves nested t)
  | none, _ => .nil _
  | some t, h => t.fieldSources_shown nested h

theorem Call.fieldSources_shown (nested : Bool) :
    (c : Call) → Part.Bare (.expr (.call c)) → c.Everywhere Part.Bare →
      Shown c.fieldSources (c.leaves nested)
  | ⟨name, arguments, schema, suffix, bare, aggregate, distinct, filter, window, frame⟩,
      hbare, h => by
    have harguments := listFieldSources_shown nested arguments h.1
    have hsuffix := suffixFieldSources_shown nested suffix h.2.1
    cases bare with
    | true =>
      have hnone : Call.fieldSources ⟨name, arguments, schema, suffix, true, aggregate, distinct,
          filter, window, frame⟩ = [] := hbare rfl
      rw [hnone]
      exact .nil _
    | false => exact ((harguments.append hsuffix).before _).before _

theorem suffixFieldSources_shown (nested : Bool) :
    (s : Option CallSuffix) → suffixEverywhere Part.Bare s →
      Shown (suffixFieldSources s) (suffixLeaves nested s)
  | none, _ => .nil _
  | some (.words _), _ => .nil _
  | some .ignoreNulls, _ => .nil _
  | some (.source t), h => t.fieldSources_shown nested h

end

/-! ## The theorem -/

namespace Query

variable {q : Query} {item : FromItem}

/-- A bound column that a term is written with is checked, unless it stands in a filter or a
    window. -/
theorem checked_or_aside {t : Term} {nested : Bool} {name : String} {s : Source}
    (h : .column name (some s) ∈ t.leaves nested) :
    some s ∈ t.fieldSources ∨
      { column := some name, source := some s, aside := true } ∈ t.references := by
  obtain ⟨⟨column, source, aside⟩, hr, hleaf⟩ := t.leaves_named nested _ h rfl
  -- the reference is that of the column
  cases column with
  | none => exact nomatch hleaf
  | some name' =>
    obtain ⟨rfl, rfl⟩ := Leaf.column.inj hleaf
    cases aside with
    | true => exact Or.inr hr
    | false =>
      rw [t.fieldSources_eq]
      exact Or.inl (mem_checkedSources.mpr ⟨_, hr, rfl, rfl, rfl⟩)

/-- **Criteria keep to their scope, filters and windows excepted.** Let an item be joined on a
    criterion that asks for something. The join is accepted if and only if every bound column of the
    criterion, outside of nested statements and of filters and windows of calls, belongs to an item
    of FROM, the updated table, a WITH clause, an earlier join or the item. If it is accepted, every
    bound column that the criterion is written with belongs to one of these or stands in a filter or
    a window; and if every bound column that it is written with belongs to one of these, it is
    accepted. -/
theorem join_on_scope {criterion : Term} (hc : criterion.isEmpty = false) (kind : JoinKind)
    (collation : Option String) (nested : Bool) :
    ((∃ r, q.join item kind (.on criterion collation) = .ok r) ↔
      ∀ r ∈ criterion.references, r.aside = false → r.column.isSome = true →
        ∀ s, r.source = some s → q.InScope item s) ∧
    ((∃ r, q.join item kind (.on criterion collation) = .ok r) →
      ∀ name s, .column name (some s) ∈ criterion.leaves nested →
        q.InScope item s ∨
          { column := some name, source := some s, aside := true } ∈ criterion.references) ∧
    (criterion.Everywhere Part.Bare →
      (∀ name s, .column name (some s) ∈ criterion.leaves nested → q.InScope item s) →
        ∃ r, q.join item kind (.on criterion collation) = .ok r) := by
  have haccepted : (∃ r, q.join item kind (.on criterion collation) = .ok r) ↔
      ∀ s, some s ∈ criterion.fieldSources → q.InScope item s := join_on_iff hc kind collation
  refine ⟨?_, ?_, ?_⟩
  · rw [haccepted, criterion.fieldSources_eq]
    constructor
    · intro h r hr haside hcolumn s hs
      exact h s (mem_checkedSources.mpr ⟨r, hr, haside, hcolumn, hs⟩)
    · intro h s hs
      obtain ⟨r, hr, haside, hcolumn, hsource⟩ := mem_checkedSources.mp hs
      exact h r hr haside hcolumn s hsource
  · intro h name s hleaf
    rcases checked_or_aside hleaf with hchecked | haside
    · exact Or.inl (haccepted.mp h s hchecked)
    · exact Or.inr haside
  · intro hbare h
    refine haccepted.mpr ?_
    intro s hs
    obtain ⟨name, hname⟩ := criterion.fieldSources_shown nested hbare (some s) hs
    exact h name s hname

/-- A joined table, and a criterion that names it and the one that is read. -/
theorem join_on_scope_equal :
    let t := Table.named 1 "t"
    let u := Table.named 2 "u"
    let q : Query := { Query.start 0 .generic with sources := [.table t] }
    let column (t : Table) : Term := .column "x" (some (.table t))
    ∃ r, q.join (.table u) .inner (.on ((column t).compare .eq (column u)) none) = .ok r := by
  intro t u q column
  have hc : ((column t).compare .eq (column u)).isEmpty = false := rfl
  have hread : FromItem.table t ∈ q.sources := List.mem_singleton_self _
  refine (join_on_scope hc .inner none true).1.mpr ?_
  intro r hr _ _ s hs
  rcases List.mem_cons.mp hr with rfl | hr
  · obtain rfl := Option.some.inj hs
    exact .read hread (by decide)
  · obtain rfl := List.mem_singleton.mp hr
    obtain rfl := Option.some.inj hs
    exact .item (by decide)

/-- A joined table, and a criterion whose call has a filter with a table that is not read. -/
theorem join_on_filter :
    let t := Table.named 1 "t"
    let u := Table.named 2 "u"
    let z := Table.named 3 "z"
    let q : Query := { Query.start 0 .generic with sources := [.table t] }
    let column (name : String) (t : Table) : Term := .column name (some (.table t))
    let count : Term := ⟨.call
      { name := "COUNT", arguments := [column "x" t], filter := some (column "y" z).isNull }, none⟩
    let criterion := count.compare .eq (column "x" u)
    criterion.isEmpty = false ∧
      (∃ r, q.join (.table u) .inner (.on criterion none) = .ok r) ∧
      .column "y" (some (.table z)) ∈ criterion.leaves true ∧
      ¬ q.InScope (.table u) (.table z) := by
  intro t u z q column count criterion
  refine ⟨rfl, ⟨_, rfl⟩, ?_, ?_⟩
  · exact List.mem_cons_of_mem _ (List.mem_cons_self ..)
  · rw [← any_owns_iff]
    decide

end Query

end SqlCompose
