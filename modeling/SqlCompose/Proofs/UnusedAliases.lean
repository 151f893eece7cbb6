import SqlCompose.Proofs.Lockstep
import SqlCompose.Proofs.Numbering
import SqlCompose.Term.Build

/-! # Unused aliases — an alias that is assigned to another source is not seen

    Aliases are assigned to identities, and what is written looks them up by the identities of the
    sources in it. An entry of the scope for any other identity is passed over, so a statement is
    written alike whatever a builder around it calls sources that the statement does not know.

    * `Part.Avoids` — a part whose aliases are not those of an identity.
    * `Draft.unscoped` — a draft without the scope that its reason to stop was written in.
    * `unusedAlias` — the simulation: one tree, in a scope without an entry and with it.
    * `Node.finish_unused` — the theorem. -/

namespace SqlCompose

open Draft

/-- No alias of the identity is asked for when the part is written. -/
def Part.Avoids (identity : Identity) (p : Part) : Prop :=
  ∀ slot ∈ p.slots, slot.identity ≠ identity

instance (identity : Identity) (p : Part) : Decidable (p.Avoids identity) :=
  inferInstanceAs (Decidable (∀ slot ∈ p.slots, slot.identity ≠ identity))

/-! ## Entries that are passed over -/

namespace Scope

/-- An entry for another identity is passed over, wherever it stands. -/
theorem resolve_insert {slot : Slot} {identity : Identity} (h : slot.identity ≠ identity)
    (before after : Scope) (aliasName : String) :
    resolve (before ++ (identity, aliasName) :: after) slot = resolve (before ++ after) slot := by
  have hskip : List.lookup slot.identity ((identity, aliasName) :: after)
      = List.lookup slot.identity after := by
    rw [List.lookup_cons, beq_false_of_ne h]
  simp only [resolve]
  rw [List.lookup_append, List.lookup_append, hskip]

end Scope

/-! ## Drafts without the scope of their stop -/

/-- The reason without the scope that operands were written out in to be shown. -/
def Stop.unscoped : Stop → Stop
  | error e => error e
  | unequalOperands ctx main other => unequalOperands { ctx with scope := [] } main other

namespace Draft

/-- The draft without the scope of its reason to stop. -/
def unscoped (d : Draft) : Draft := ⟨d.pieces, d.stop.map Stop.unscoped⟩

theorem unscoped_append (a b : Draft) : (a ++ b).unscoped = a.unscoped ++ b.unscoped :=
  mapContext_append (f := fun ctx => { ctx with scope := [] }) a b

theorem unscoped_unequal {c c' : Context}
    (h : ({ c with scope := [] } : Context) = { c' with scope := [] }) {a a' b b' : Draft}
    (ha : a.unscoped = a'.unscoped) (hb : b.unscoped = b'.unscoped) :
    (unequal c a b).unscoped = (unequal c' a' b').unscoped :=
  mapContext_unequal (f := fun ctx => { ctx with scope := [] }) h ha hb

/-- What a draft is finished to, and what it binds, does not depend on the scope. -/
theorem finish_unscoped (d : Draft) (p : Parameters) : d.unscoped.finish p = d.finish p := by
  refine finish_mapContext (f := fun ctx => { ctx with scope := [] }) (fun ctx => ?_) d p
  funext t
  cases t <;> rfl

end Draft

/-! ## The simulation -/

/-- The contexts differ in one more alias of the identity. -/
def Context.OneMore (identity : Identity) (aliasName : String) (c c' : Context) : Prop :=
  ∃ before after : Scope, c.scope = before ++ after ∧
    c' = { c with scope := before ++ (identity, aliasName) :: after }

/-- One tree without sources of an identity, in a scope without an alias of it and with one. -/
def unusedAlias (identity : Identity) (aliasName : String) : Simulation where
  exchange := .id
  part := Part.Avoids identity
  alike := Context.OneMore identity aliasName
  rel := fun d d' => d.unscoped = d'.unscoped
  congruence := .of_map unscoped_append
  flags := by
    rintro c c' ⟨before, after, -, rfl⟩
    constructor <;> rfl
  nested := by
    rintro c c' ⟨before, after, hscope, rfl⟩ b
    exact ⟨before, after, hscope, rfl⟩
  declares := by
    rintro c c' ⟨before, after, hscope, rfl⟩ b
    exact ⟨before, after, hscope, rfl⟩
  qualified := by
    rintro c c' ⟨before, after, hscope, rfl⟩ b
    exact ⟨before, after, hscope, rfl⟩
  bracketed := by
    rintro c c' ⟨before, after, hscope, rfl⟩ b
    exact ⟨before, after, hscope, rfl⟩
  grouping := by
    rintro c c' ⟨before, after, hscope, rfl⟩ b
    exact ⟨before, after, hscope, rfl⟩
  inDialect := by
    rintro c c' ⟨before, after, hscope, rfl⟩ d
    exact ⟨before, after, hscope, rfl⟩
  enter := by
    rintro c c' ⟨before, after, hscope, rfl⟩ scope
    refine ⟨scope ++ before, after, ?_, ?_⟩
    · show scope ++ c.scope = _
      rw [hscope, List.append_assoc]
    · simp only [Scope.enter, List.append_assoc]
  names := by
    rintro c c' ⟨before, after, hscope, rfl⟩ p hpart slot hslot
    show c.scope.resolve slot = Scope.resolve (before ++ (identity, aliasName) :: after) slot
    rw [hscope, Scope.resolve_insert (hpart slot hslot)]
  value := by
    rintro c c' ⟨before, after, -, rfl⟩ v mayBind -
    rw [Exchange.constant_id]
    rfl
  count := by
    rintro c c' ⟨before, after, -, rfl⟩ n
    rfl
  array := by
    rintro c c' ⟨before, after, -, rfl⟩ items -
    refine (Congruence.of_map unscoped_append).arrays (by constructor <;> rfl) ?_
    rw [exchangeTerms_id]
    show Option.Rel _ (if c.binding then constants? items else none)
      (if c.binding then constants? items else none)
    cases (if c.binding then constants? items else none) with
    | none => exact .none
    | some values => exact .some rfl
  document := by
    rintro c c' ⟨before, after, -, rfl⟩ d -
    rfl
  unequal := by
    rintro c c' ⟨before, after, -, rfl⟩ a a' b b' ha hb
    have hscope : ({ c with scope := [] } : Context) =
        { { c with scope := before ++ (identity, aliasName) :: after } with scope := [] } := rfl
    exact unscoped_unequal hscope ha hb

/-! ## The theorem -/

namespace Node

/-- **An alias that no source of a node goes by is not seen.** Let no table, statement or set
    operation in a node, and no source of a column or a star in it, be of an identity, those in
    nested statements included. With one more alias of this identity in the scope, at whatever place
    of it, the node is written as it is without: it gives the same tokens or stops for the same
    reason, and it binds the same values. -/
theorem finish_unused {identity : Identity} {node : Node}
    (hnode : node.Everywhere (Part.Avoids identity)) {ctx : Context} {before after : Scope}
    (hscope : ctx.scope = before ++ after) (aliasName : String) (p : Parameters) :
    (node.draft { ctx with scope := before ++ (identity, aliasName) :: after }).finish p =
      (node.draft ctx).finish p := by
  have hctx : (unusedAlias identity aliasName).alike ctx
      { ctx with scope := before ++ (identity, aliasName) :: after } := ⟨before, after, hscope, rfl⟩
  have hdraft := node.draft_sim hctx hnode
  have hsame : (node.draft ctx).unscoped =
      (node.draft { ctx with scope := before ++ (identity, aliasName) :: after }).unscoped := by
    have hexchange : node.exchange (unusedAlias identity aliasName).exchange = node :=
      node.exchange_id
    rw [hexchange] at hdraft
    exact hdraft
  rw [← finish_unscoped, ← hsame, finish_unscoped]

/-- A statement that reads another one; the scope has aliases of both and between them one of a
    third source. -/
theorem finish_unused_between :
    let inner : Query :=
      { Query.start 1 .generic with
        sources := [.table (.named 2 "t")]
        selects := [.column "x" (some (.table (.named 2 "t")))] }
    let node := query
      { Query.start 3 .generic with
        sources := [.query inner]
        selects := [.column "x" (some (.derived ⟨1, none⟩))]
        scope := [(1, "sq0")] }
    let ctx := { Context.ofDialect .generic with scope := [(2, "t2"), (1, "sq7")] }
    ∀ p : Parameters,
      (node.draft { ctx with scope := [(2, "t2"), (9, "sq1"), (1, "sq7")] }).finish p =
        (node.draft ctx).finish p := by
  intro inner node ctx p
  have hnode : node.Everywhere (Part.Avoids 9) := by
    repeat' first
      | exact trivial
      | decide
      | refine And.intro ?_ ?_
  have hscope : ctx.scope = [(2, "t2")] ++ [(1, "sq7")] := rfl
  exact finish_unused hnode hscope "sq1" p

end Node

end SqlCompose
