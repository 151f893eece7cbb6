import SqlCompose.Proofs.Placeholders

/-! # Failed renderings — what is left behind by them

    A constant is captured when its placeholder is written. If the writing stops behind it, the
    constant has been captured all the same: nothing is taken back. So parameters that several
    renderings share may hold more after one that failed than they did before. But nothing that they
    held is lost or moves, and what is written with them next has its constants at the numbers of
    its placeholders.

    * `Draft.finish_of_stopped`, `Draft.finish_error` — what is left by a draft that stops, whatever
      the parameters hold.
    * `Draft.finish_of_render`, `Draft.finish_of_render_error` — a rendering is a finished draft.
    * `Node.NumbersBehind`, `Node.numbersBehind_of_render` — placeholders that are numbered on
      behind the values that are held.
    * `Node.render_failed` — the theorem. -/

namespace SqlCompose

open Draft

/-! ## Drafts that stop -/

namespace Draft

variable {d : Draft} {ctx : Context} {p p' : Parameters}

/-- A draft that stops leaves the values that it has bound. -/
theorem finish_of_stopped (h : d.stop ≠ none) (p : Parameters) :
    ∃ e : BuildError, d.finish p = (.error e, { p with values := p.values ++ d.bound }) := by
  obtain ⟨pieces, _ | _ | _⟩ := d
  · exact absurd rfl h
  · exact ⟨_, rfl⟩
  · exact ⟨_, rfl⟩

/-- What cannot be finished cannot be for the same reason whatever the parameters hold, and leaves
    the same values. -/
theorem finish_error {e : BuildError} (h : d.finish p = (.error e, p')) (r : Parameters) :
    ∃ e' : BuildError, e'.bare = e.bare ∧
      d.finish r = (.error e', { r with values := r.values ++ d.bound }) := by
  obtain ⟨s, hs, hreported⟩ := reported_of_finish (congrArg Prod.fst h)
  have hstop : d.stop ≠ none := by
    rw [hs]
    exact nofun
  obtain ⟨e', he'⟩ := finish_of_stopped hstop r
  obtain ⟨s', hs', hreported'⟩ := reported_of_finish (congrArg Prod.fst he')
  obtain rfl : s = s' := Option.some.inj (hs.symm.trans hs')
  exact ⟨e', hreported'.symm.trans hreported, he'⟩

/-- A text is that of the tokens that the draft is finished to. -/
theorem finish_of_render {text : String} (h : d.render ctx p = (.ok text, p')) :
    ∃ ts : List Token, d.finish p = (.ok ts, p') ∧ text = Token.texts ctx ts := by
  cases hfinish : (d.finish p).1 with
  | error e =>
    simp only [render, hfinish] at h
    cases congrArg Prod.fst h
  | ok ts =>
    simp only [render, hfinish] at h
    obtain ⟨htext, hp⟩ := Prod.mk.inj h
    exact ⟨ts, Prod.ext hfinish hp, (Except.ok.inj htext).symm⟩

/-- Where there is no text, the draft is not finished. -/
theorem finish_of_render_error {e : BuildError} (h : d.render ctx p = (.error e, p')) :
    d.finish p = (.error e, p') := by
  cases hfinish : (d.finish p).1 with
  | error e' =>
    simp only [render, hfinish] at h
    obtain ⟨herror, hp⟩ := Prod.mk.inj h
    obtain rfl : e' = e := Except.error.inj herror
    exact Prod.ext hfinish hp
  | ok ts =>
    simp only [render, hfinish] at h
    cases congrArg Prod.fst h

theorem render_of_finish_error {e : BuildError} (h : d.finish p = (.error e, p')) :
    d.render ctx p = (.error e, p') := by
  simp only [render, h]
  rfl

end Draft

/-! ## Placeholders behind held values -/

namespace Node

/-- The text has one placeholder for each constant of the node, numbered on behind the values that
    are held; what stands around the placeholders is the node's alone. -/
def NumbersBehind (ctx : Context) (factory : Option (Nat → String)) (held : Nat) (node : Node)
    (text : String) : Prop :=
  ∃ (segments : List (List Token)) (dialects : List Dialect),
    segments.length = (node.bindings ctx.naming).length + 1 ∧
    dialects.length = (node.bindings ctx.naming).length ∧
    text = Token.texts ctx (weave segments (Piece.placeholders factory held dialects))

/-- A rendered node adds its constants to the values that are held, and its placeholders have their
    numbers. -/
theorem numbersBehind_of_render {ctx : Context} (hb : ctx.binding = true) {node : Node}
    {p p' : Parameters} {text : String} (h : (node.draft ctx).render ctx p = (.ok text, p')) :
    p' = { p with values := p.values ++ node.bindings ctx.naming } ∧
      node.NumbersBehind ctx p.factory p.values.length text := by
  obtain ⟨ts, hfinish, rfl⟩ := finish_of_render h
  have hcomplete := complete_of_finish hfinish
  have hvalues := node.draft_binds hb hcomplete
  rw [finish_of_complete hcomplete, hvalues, Piece.number_eq_weave] at hfinish
  obtain ⟨hts, rfl⟩ := Prod.mk.inj hfinish
  obtain rfl := Except.ok.inj hts
  refine ⟨rfl, Piece.texts (node.draft ctx).pieces, Piece.dialects (node.draft ctx).pieces, ?_, ?_,
    rfl⟩
  · rw [Piece.texts_length, hvalues]
  · rw [Piece.dialects_length, hvalues]

/-! ## The theorem -/

/-- **A failed rendering takes nothing back, and nothing away.** Where constants are bound, let the
    rendering of a node fail. Then behind the values that were held stand those that were captured
    before it stopped, constants of the node: the same ones whatever was held and however
    placeholders look, and, where all set operations in the node have statements that select equally
    many terms, its first ones in the order of the tree. What is rendered next with the parameters
    adds its own constants behind all of these, and has one placeholder for each of them, with its
    number. -/
theorem render_failed {ctx : Context} (hb : ctx.binding = true) (node : Node) {p p' : Parameters}
    {e : BuildError} (h : (node.draft ctx).render ctx p = (.error e, p')) :
    ∃ captured : List Value,
      p' = { p with values := p.values ++ captured } ∧
      (∀ r : Parameters, ∃ e' : BuildError, e'.bare = e.bare ∧
        (node.draft ctx).render ctx r = (.error e', { r with values := r.values ++ captured })) ∧
      captured ⊆ node.bindings ctx.naming ∧
      (node.Everywhere Part.Fits → captured <+: node.bindings ctx.naming) ∧
      ∀ (later : Context) (next : Node) (text : String) (p'' : Parameters),
        later.binding = true → (next.draft later).render later p' = (.ok text, p'') →
          p'' = { p with values := p.values ++ captured ++ next.bindings later.naming } ∧
          next.NumbersBehind later p.factory (p.values ++ captured).length text := by
  have hfinish := finish_of_render_error h
  have hheld : p' = { p with values := p.values ++ (node.draft ctx).bound } :=
    (congrArg Prod.snd hfinish).symm
  have hbinds := node.draft_binds_of hb fun h : node.Everywhere Part.Fits => h
  refine ⟨(node.draft ctx).bound, hheld, ?_, hbinds.among, hbinds.first, ?_⟩
  · intro r
    obtain ⟨e', hbare, he'⟩ := finish_error hfinish r
    exact ⟨e', hbare, render_of_finish_error he'⟩
  · intro later next text p'' hlater hnext
    subst hheld
    exact numbersBehind_of_render hlater hnext

/-- A tuple of a constant and a CASE without branches, and then one of another constant; the
    parameters hold a value already. -/
theorem render_failed_before_another :
    let failing := term ⟨.tuple [.value (.int 1), ⟨.case [] none, none⟩], none⟩
    let next := term ⟨.tuple [.value (.int 2)], none⟩
    let ctx := { Context.ofDialect .postgres with binding := true }
    (failing.draft ctx).render ctx ⟨[.null], none⟩ =
        (.error .caseWithoutBranch, ⟨[.null, .int 1], none⟩) ∧
      (next.draft ctx).render ctx ⟨[.null, .int 1], none⟩ =
        (.ok "($3)", ⟨[.null, .int 1, .int 2], none⟩) ∧
      next.NumbersBehind ctx none 2 "($3)" := by
  intro failing next ctx
  have hfailed : (failing.draft ctx).render ctx ⟨[.null], none⟩ =
      (.error .caseWithoutBranch, ⟨[.null, .int 1], none⟩) := rfl
  have hnext : (next.draft ctx).render ctx ⟨[.null, .int 1], none⟩ =
      (.ok "($3)", ⟨[.null, .int 1, .int 2], none⟩) := rfl
  obtain ⟨captured, hheld, -, -, -, hlater⟩ := render_failed rfl failing hfailed
  obtain rfl : captured = [.int 1] := by
    simpa using (congrArg Parameters.values hheld).symm
  exact ⟨hfailed, hnext, (hlater ctx next _ _ rfl hnext).2⟩

/-- Parameters that hold nothing hold a constant after a rendering that failed. -/
theorem render_failed_captures :
    let failing := term ⟨.tuple [.value (.int 1), ⟨.case [] none, none⟩], none⟩
    let ctx := { Context.ofDialect .postgres with binding := true }
    ∃ p', (failing.draft ctx).render ctx {} = (.error .caseWithoutBranch, p') ∧
      p'.values = [.int 1] ∧ p'.values ≠ ({} : Parameters).values :=
  ⟨_, rfl, rfl, List.cons_ne_nil _ _⟩

end Node

end SqlCompose
