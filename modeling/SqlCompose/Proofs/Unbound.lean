import SqlCompose.Proofs.Capturing
import SqlCompose.Proofs.Lockstep

/-! # Unbound contexts — where nothing is bound, only tokens are written

    A context that does not bind constants asks for no placeholders, in no part of a tree. What is
    written in it has no holes, so it is the same tokens wherever the numbers of placeholders start,
    and what is written of parts can be put together as tokens.

    * `Context.Unbound`, `unbound` — the simulation of writing a tree in such a context.
    * `Node.draft_binds_nothing` — no tree binds values there, whether it can be written or not.
    * `Draft.written`, `Draft.eq_tokens_written` — a draft that can be written is its tokens. -/

namespace SqlCompose

open Draft

/-! ## Trees -/

/-- One context on both sides, which binds nothing. -/
def Context.Unbound (c c' : Context) : Prop := c = c' ∧ c.binding = false

/-- A part that changes its context does not make it bind. -/
theorem Context.Unbound.change {c c' : Context} (h : c.Unbound c') (f : Context → Context)
    (hf : (f c).binding = c.binding) : (f c).Unbound (f c') := by
  obtain ⟨rfl, hplain⟩ := h
  exact ⟨rfl, hf.trans hplain⟩

/-- Writing a tree in a context that binds nothing; no values are bound then. -/
def unbound : Simulation where
  exchange := .id
  part := fun _ => True
  alike := Context.Unbound
  rel := fun d _ => d.Binds True []
  congruence := Binds.quiet
  flags := by
    rintro c _ ⟨rfl, -⟩
    constructor <;> rfl
  nested := fun h b => h.change (fun c => { c with nested := b }) rfl
  declares := fun h b => h.change (fun c => { c with declares := b }) rfl
  qualified := fun h b => h.change (fun c => { c with qualified := b }) rfl
  bracketed := fun h b => h.change (fun c => { c with bracketed := b }) rfl
  grouping := fun h b => h.change (fun c => { c with groupByAlias := b }) rfl
  inDialect := fun h d =>
    h.change (fun c => { c with dialect := d, identQuote := d.identQuote }) rfl
  enter := fun h scope => h.change (fun c => { c with scope := c.scope.enter scope }) rfl
  names := by
    rintro c _ ⟨rfl, -⟩ p - slot -
    rfl
  value := by
    rintro c _ ⟨rfl, h⟩ v mayBind -
    rw [Value.draft, h]
    exact .literal v
  count := by
    rintro c _ ⟨rfl, h⟩ n
    rw [Value.draft, h]
    exact .literal (.int n)
  array := by
    rintro c _ ⟨rfl, h⟩ items -
    refine Binds.quiet.arrays (by constructor <;> rfl) ?_
    rw [h]
    exact .none
  document := by
    rintro c _ ⟨rfl, -⟩ d -
    rfl
  unequal := by
    rintro c _ ⟨rfl, -⟩ a _ b _ ha hb
    refine .of_bound_eq_nil (fun hstop => absurd hstop (unequal_stop c a b)) ?_
    have hbound := List.Subset.trans (bound_unequal_subset c a b)
      (List.append_subset.mpr ⟨ha.among, hb.among⟩)
    exact List.subset_nil.mp hbound

/-- A context that binds nothing binds nothing, whatever is written in it. -/
theorem Node.draft_binds_nothing (node : Node) {ctx : Context} (h : ctx.binding = false) :
    (node.draft ctx).Binds True [] := by
  have heverywhere : node.Everywhere unbound.part := node.everywhere_of_forall fun _ => trivial
  exact node.draft_sim (S := unbound) ⟨rfl, h⟩ heverywhere

/-! ## Tokens -/

/-- Pieces that hold no values are tokens. -/
theorem Piece.eq_map_number {ps : List Piece} (h : values ps = []) (factory : Option (Nat → String))
    (count : Nat) : ps = (number factory count ps).map .token := by
  induction ps with
  | nil => rfl
  | cons piece rest ih =>
    cases piece with
    | token t => exact congrArg (.token t :: ·) (ih h)
    | hole v d => exact nomatch h

namespace Draft

/-- The tokens of a draft that can be written. -/
def written (d : Draft) : List Token :=
  match (d.finish {}).1 with
  | .ok ts => ts
  | .error _ => []

/-- A draft that can be written and binds nothing is nothing but its tokens. -/
theorem eq_tokens_written {d : Draft} (hbinds : d.Binds True [])
    (h : ∃ ts, (d.finish {}).1 = .ok ts) : d = tokens d.written := by
  obtain ⟨ts, hts⟩ := h
  have hstop : d.stop = none := complete_of_finish (Prod.ext hts rfl)
  have hwritten : d.written = Piece.number none 0 d.pieces := by
    rw [written, finish_of_complete hstop]
    rfl
  obtain ⟨pieces, stop⟩ := d
  obtain rfl : stop = none := hstop
  rw [hwritten]
  exact congrArg (Draft.mk · none) (Piece.eq_map_number (hbinds.whole rfl) none 0)

end Draft

end SqlCompose
