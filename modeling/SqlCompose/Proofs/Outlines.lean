import SqlCompose.Proofs.SetLayouts
import SqlCompose.Proofs.Simulation

/-! # Outlines — what statements write of their own

    A statement is its own words and, among them, its parts: terms, tables and other statements.
    These may hold any words themselves, an order or a page among them. The outline of a statement
    is what is left of it if none of its parts writes anything.

    * `Parts.blank`, `Query.outline`, `SetOperation.outline` — the parts with nothing written in
      them, and what is put together from them.
    * `Draft.Spans` — all of a draft is written in another one, in its order.
    * `Query.spans_outline`, `SetOperation.spans_outline` — what is in the outline of a statement is
      in the statement. -/

namespace SqlCompose

open Draft

/-! ## Parts without text -/

/-- As many drafts, with nothing written in them. -/
def Draft.blanks (ds : List Draft) : List Draft := ds.map fun _ => empty

/-- The parts of a conflict clause, as many of each kind, with nothing written in them. -/
def ConflictParts.blank (p : ConflictParts) : ConflictParts where
  fields := fun ctx => blanks (p.fields ctx)
  resolutions := fun columnCtx valueCtx inserted =>
    blanks (p.resolutions columnCtx valueCtx inserted)
  targetFilter := fun _ => empty
  updateFilter := fun _ => empty

/-- The parts of a statement, as many of each kind, with nothing written in them. -/
def Parts.blank (p : Parts) : Parts where
  ctes := fun ctx => blanks (p.ctes ctx)
  sources := fun ctx => blanks (p.sources ctx)
  joins := fun ctx => blanks (p.joins ctx)
  distinctOn := fun ctx => blanks (p.distinctOn ctx)
  selects := fun ctx => blanks (p.selects ctx)
  selected := fun ctx name => (p.selected ctx name).map fun _ => empty
  insertTable := fun _ _ => empty
  updateTable := fun _ _ => empty
  columns := fun ctx => blanks (p.columns ctx)
  rows := fun ctx => blanks (p.rows ctx)
  assignments := fun ctx => blanks (p.assignments ctx)
  prefilter := fun _ => empty
  filter := fun _ => empty
  groups := fun ctx short => blanks (p.groups ctx short)
  groupFilter := fun _ => empty
  orderings := fun ctx short => blanks (p.orderings ctx short)
  conflict := p.conflict.blank
  returns := fun ctx => blanks (p.returns ctx)

/-- What a statement writes of its own. -/
def Query.outline (outer : Context) (q : Query) : Draft := Clause.statement outer q q.parts.blank

namespace SetOperation

/-- The statements of a set operation with the operators between them, put together from drafts of
    the statements. -/
def chained (s : SetOperation) (statement : Query → Draft) : Draft :=
  statement s.base ++
    s.operands.foldr (fun o rest => tokens o.operator.tokens ++ statement o.query ++ rest) empty

/-- A set operation, put together from drafts of its statements and of the terms to sort by. -/
def assembled (outer : Context) (s : SetOperation) (statement : Query → Draft)
    (sorted : List Draft) : Draft :=
  parensIf outer.nested
      (s.chained statement ++ Clause.unlessNone [.orderBy] sorted ++
        s.base.dialect.pagination (s.limit.map fun n => token (.int n))
          (s.offset.map fun n => token (.int n)) (!s.orderings.isEmpty)) ++
    outer.declaration (outer.aliasOf s.slot)

/-- The terms that a set operation is sorted by, as they are written. -/
def sorted (outer : Context) (s : SetOperation) : List Draft :=
  orderingDrafts (s.orderContext outer) s.byAlias s.orderings

/-- What a set operation writes of its own. -/
def outline (outer : Context) (s : SetOperation) : Draft :=
  s.assembled outer (fun _ => empty) (blanks (s.sorted outer))

end SetOperation

/-! ## Drafts in drafts -/

namespace Draft

/-- If the first draft is written to its end, then so is the second one, and all of it is written in
    the first one, in its order. -/
def Spans (d own : Draft) : Prop :=
  d.stop = none → own.stop = none ∧ own.pieces.Sublist d.pieces

namespace Spans

theorem refl (d : Draft) : d.Spans d := fun h => ⟨h, .refl _⟩

theorem blank (d : Draft) : d.Spans empty := fun _ => ⟨rfl, List.nil_sublist _⟩

theorem append {a a' b b' : Draft} (ha : a.Spans a') (hb : b.Spans b') :
    (a ++ b).Spans (a' ++ b') := by
  intro h
  obtain ⟨hstop, hrest⟩ := stop_append h
  obtain ⟨hstop', hpieces⟩ := ha hstop
  obtain ⟨hrest', hpieces'⟩ := hb hrest
  rw [append_of_complete hstop, append_of_complete hstop']
  exact ⟨hrest', hpieces.append hpieces'⟩

theorem congruence : Congruence Spans where
  empty := refl _
  token := fun _ _ => refl _
  fail := fun _ => refl _
  append := append
  parens := fun hd => append (append (refl _) hd) (refl _)
  brackets := fun hd => append (append (refl _) hd) (refl _)

/-- Any drafts span as many blank ones. -/
theorem blanks {ds es : List Draft} (h : ds.length = es.length) :
    List.Forall₂ Spans ds (blanks es) := by
  induction ds generalizing es with
  | nil =>
    obtain rfl := List.length_eq_zero_iff.mp h.symm
    exact .nil
  | cons d rest ih =>
    obtain ⟨e, es, rfl⟩ := List.exists_cons_of_length_eq_add_one h.symm
    exact .cons (blank d) (ih (Nat.succ.inj h))

end Spans

end Draft

/-! ## Statements -/

theorem groupDrafts_length (ctx : Context) (short : String → Option Draft) (ts : List Term) :
    (groupDrafts ctx short ts).length = ts.length := by
  induction ts with
  | nil => rfl
  | cons t rest ih => exact congrArg Nat.succ ih

theorem orderingDrafts_length (ctx : Context) (short : String → Option Draft) (os : List Ordering) :
    (orderingDrafts ctx short os).length = os.length := by
  induction os with
  | nil => rfl
  | cons o rest ih =>
    obtain ⟨term, direction⟩ := o
    exact congrArg Nat.succ ih

theorem resolutionDrafts_length (columnCtx valueCtx : Context) (inserted : Draft → Draft)
    (rs : List Resolution) :
    (resolutionDrafts columnCtx valueCtx inserted rs).length = rs.length := by
  induction rs with
  | nil => rfl
  | cons r rest ih =>
    obtain ⟨field, value⟩ := r
    exact congrArg Nat.succ ih

/-- The same tree in the same context, with parts that may have nothing written in them on the
    second side. -/
def outlining : Simulation where
  exchange := .id
  part := fun _ => True
  alike := fun c c' => c' = c
  rel := Spans
  congruence := Spans.congruence
  flags := by
    rintro _ c rfl
    constructor <;> rfl
  nested := by
    rintro _ c rfl b
    rfl
  declares := by
    rintro _ c rfl b
    rfl
  qualified := by
    rintro _ c rfl b
    rfl
  bracketed := by
    rintro _ c rfl b
    rfl
  grouping := by
    rintro _ c rfl b
    rfl
  inDialect := by
    rintro _ c rfl d
    rfl
  enter := by
    rintro _ c rfl scope
    rfl
  names := by
    rintro _ c rfl p - slot -
    rfl
  value := by
    rintro _ c rfl v mayBind -
    rw [Exchange.constant_id]
    exact .refl _
  count := by
    rintro _ c rfl n
    exact .refl _
  array := by
    rintro _ c rfl items - aliasName -
    rw [exchangeTerms_id]
    exact .refl _
  document := by
    rintro _ c rfl d -
    rfl
  unequal := by
    -- operands that do not fit together end the writing
    intro c _ _ a a' b b' _ _ h
    exact absurd h (unequal_stop c a b)

theorem Conflict.parts_blank (c : Conflict) : c.parts.Sim outlining c.parts.blank := by
  rw [c.parts_eq]
  exact
    { fields := by
        rintro _ ctx rfl
        exact Spans.blanks rfl
      resolutions := by
        rintro ctx _ valueCtx _ rfl rfl inserted inserted' -
        exact Spans.blanks (by rw [resolutionDrafts_length, resolutionDrafts_length])
      targetFilter := fun _ => .blank _
      updateFilter := fun _ => .blank _ }

theorem Query.parts_blank (q : Query) : q.parts.Sim outlining q q q.parts.blank := by
  have hlayout : q.SameLayout q := by
    have h := q.exchange_sameLayout .id
    rwa [q.exchange_id] at h
  have hcount (n : Option Int64) : n = n.map outlining.exchange.count := by cases n <;> rfl
  rw [q.parts_eq]
  exact
    { layout := hlayout
      whole := trivial
      target := fun _ _ => trivial
      changed := fun _ _ => trivial
      limit := hcount q.limit
      offset := hcount q.offset
      ctes := by
        rintro _ ctx rfl
        exact Spans.blanks rfl
      sources := by
        rintro _ ctx rfl
        exact Spans.blanks rfl
      joins := by
        rintro _ ctx rfl
        exact Spans.blanks rfl
      distinctOn := by
        rintro _ ctx rfl
        exact Spans.blanks rfl
      selects := by
        rintro _ ctx rfl
        exact Spans.blanks rfl
      selected := by
        rintro _ ctx rfl name
        show Option.Rel Spans (namedDraft? ctx name q.selects)
          ((namedDraft? ctx name q.selects).map _)
        cases namedDraft? ctx name q.selects with
        | none => exact .none
        | some d => exact .some (.blank d)
      insertTable := fun _ => .blank _
      updateTable := fun _ => .blank _
      columns := by
        rintro _ ctx rfl
        exact Spans.blanks rfl
      rows := by
        rintro _ ctx rfl
        exact Spans.blanks rfl
      assignments := by
        rintro _ ctx rfl
        exact Spans.blanks rfl
      prefilter := fun _ => .blank _
      filter := fun _ => .blank _
      groups := by
        rintro _ ctx rfl short short' -
        exact Spans.blanks (by rw [groupDrafts_length, groupDrafts_length])
      groupFilter := fun _ => .blank _
      orderings := by
        rintro _ ctx rfl short short' -
        exact Spans.blanks (by rw [orderingDrafts_length, orderingDrafts_length])
      conflict := q.conflict.parts_blank
      returns := by
        rintro _ ctx rfl
        exact Spans.blanks rfl }

/-- What a statement writes of its own is written in it, in its order. -/
theorem Query.spans_outline (outer : Context) (q : Query) :
    (q.draft outer).Spans (q.outline outer) :=
  Clause.statement_sim q.parts_blank (S := outlining) rfl

/-! ## Set operations -/

namespace SetOperation

variable {outer : Context} {s : SetOperation}

/-- Statements that fit together are written one behind the other. -/
theorem draft_eq_assembled (hfits : ∀ o ∈ s.operands, s.Fits o) :
    s.draft outer =
      s.assembled outer (fun q => q.draft (s.operandContext outer)) (s.sorted outer) := by
  have hoperands : ∀ {operands : List Operand}, (∀ o ∈ operands, s.Fits o) →
      operandsDraft (s.operandContext outer) s.base.selects.length
        (s.base.draft (s.operandContext outer)) operands =
      operands.foldr (fun o rest =>
        tokens o.operator.tokens ++ o.query.draft (s.operandContext outer) ++ rest) empty := by
    intro operands hfits
    induction operands with
    | nil => rfl
    | cons o rest ih =>
      obtain ⟨hfit, hrest⟩ := List.forall_mem_cons.mp hfits
      rw [operandsDraft_cons hfit, ih hrest]
      rfl
  rw [SetOperation.draft_eq, inside_eq, hoperands hfits]
  rfl

/-- What is written to its end has statements that fit together. -/
theorem fits_of_complete (h : (s.draft outer).stop = none) : ∀ o ∈ s.operands, s.Fits o := by
  rw [SetOperation.draft_eq, inside_eq] at h
  obtain ⟨henclosed, -⟩ := stop_append h
  have hinside := (complete_parensIf_iff outer.nested).mp henclosed
  obtain ⟨-, hoperands⟩ := stop_append (stop_append (stop_append hinside).1).1
  intro o ho
  exact ((complete_operandsDraft s.operands).mp hoperands o ho).1

/-- What a set operation writes of its own is written in it, in its order. -/
theorem spans_outline (outer : Context) (s : SetOperation) :
    (s.draft outer).Spans (s.outline outer) := by
  intro hstop
  have h := Spans.congruence
  have hoperands (operands : List Operand) : Spans
      (operands.foldr (fun o rest =>
        tokens o.operator.tokens ++ o.query.draft (s.operandContext outer) ++ rest) empty)
      (operands.foldr (fun o rest => tokens o.operator.tokens ++ empty ++ rest) empty) := by
    induction operands with
    | nil => exact .refl _
    | cons o rest ih => exact .append (.append (.refl _) (.blank _)) ih
  have hchained : Spans (s.chained fun q => q.draft (s.operandContext outer))
      (s.chained fun _ => empty) := .append (.blank _) (hoperands s.operands)
  have hsorted : List.Forall₂ Spans (s.sorted outer) (blanks (s.sorted outer)) :=
    Spans.blanks rfl
  have horder := h.unlessNone [.orderBy] hsorted
  have hassembled : Spans
      (s.assembled outer (fun q => q.draft (s.operandContext outer)) (s.sorted outer))
      (s.outline outer) :=
    h.append (h.parensIf outer.nested (h.append (h.append hchained horder) (.refl _))) (.refl _)
  have hfits := fits_of_complete hstop
  rw [draft_eq_assembled hfits] at hstop ⊢
  exact hassembled hstop

end SetOperation

end SqlCompose
