import SqlCompose.Proofs.InspectedTrees

/-! # Refusals — writing fails for four reasons

    The writing of a tree goes through every clause of every statement in it, and wherever it goes
    it may stop. It stops at a constant that has no literal, at a CASE without branches, at operands
    that select different numbers of terms, and at a conflict clause that does not say enough, and
    nowhere else: a tree without these is written, in every context, and an error tells which of
    them is in it.

    * `Stop.reported` — the error that a reason to stop is reported as.
    * `Part.refusal?` — why a part by itself cannot be written.
    * `Draft.StopsFor` — a draft that stops, if it does, for reasons that are allowed.
    * `stopping` — the inspection of this: a tree stops only for what some part of it is refused
      for.
    * `Node.finish_refusals` — the theorem. -/

namespace SqlCompose

open Draft

/-! ## Reasons -/

/-- The error without the operands that it shows. -/
def BuildError.bare : BuildError → BuildError
  | unequalOperands _ _ => unequalOperands "" ""
  | e => e

/-- The error that a reason to stop is reported as, without the operands that it shows. -/
def Stop.reported : Stop → BuildError
  | error e => e.bare
  | unequalOperands _ _ _ => .unequalOperands "" ""

/-- A draft is reported to have stopped for its own reason. -/
theorem Draft.reported_of_finish {d : Draft} {p : Parameters} {e : BuildError}
    (h : (d.finish p).1 = .error e) : ∃ s, d.stop = some s ∧ s.reported = e.bare := by
  obtain ⟨pieces, _ | e' | ⟨ctx, main, other⟩⟩ := d
  · exact nomatch h
  · obtain rfl : e' = e := Except.error.inj h
    exact ⟨_, rfl, rfl⟩
  · obtain rfl := Except.error.inj h
    exact ⟨_, rfl, rfl⟩

/-! ## Parts that cannot be written -/

/-- Why the part cannot be written, whatever is below it. -/
def Part.refusal? : Part → Option BuildError
  | expr (.value (.float x) _) => if x.isFinite then none else some (.notFinite x)
  | expr (.case [] _) => some .caseWithoutBranch
  | expr _ | table _ => none
  | query q => if q.conflict.isOpen && !q.usesDuplicateKey then q.conflict.refusal? else none
  | setOperation s => if s.isEven then none else some (.unequalOperands "" "")

/-- If the part is refused, then for a reason that is allowed. -/
def Part.RefusedFor (allowed : BuildError → Prop) (part : Part) : Prop :=
  ∀ e ∈ part.refusal?, allowed e

/-- The reasons for which a conflict clause is not written show no operands. -/
theorem Conflict.bare_of_refusal {c : Conflict} {e : BuildError} (h : c.refusal? = some e) :
    e.bare = e := by
  simp only [Conflict.refusal?] at h
  split at h
  · obtain rfl := Option.some.inj h
    rfl
  · split at h
    · obtain rfl := Option.some.inj h
      rfl
    · cases h

/-- An open conflict clause is refused for what its statement is refused for. -/
theorem Query.refused_conflict {allowed : BuildError → Prop} {q : Query}
    (h : (Part.query q).RefusedFor allowed) :
    q.conflict.isOpen = true → q.usesDuplicateKey = false →
      ∀ e ∈ q.conflict.refusal?, allowed e.bare := by
  intro hopen hstyle e he
  rw [Conflict.bare_of_refusal he]
  refine h e ?_
  show (if q.conflict.isOpen && !q.usesDuplicateKey then q.conflict.refusal? else none) = some e
  rw [hopen, hstyle]
  exact he

/-! ## Drafts that stop for certain reasons -/

namespace Draft

/-- The draft stops, if it does, for a reason that is allowed. -/
def StopsFor (allowed : BuildError → Prop) (d : Draft) : Prop :=
  ∀ s, d.stop = some s → allowed s.reported

namespace StopsFor

variable {allowed : BuildError → Prop} {a b d : Draft}

/-- What is written to its end stops for nothing. -/
theorem of_complete (h : d.stop = none) : d.StopsFor allowed := by
  intro s hs
  rw [h] at hs
  cases hs

/-- A draft that stops at once stops for its error. -/
theorem fail {e : BuildError} (h : allowed e.bare) : (fail e).StopsFor allowed := by
  intro s hs
  obtain rfl := Option.some.inj hs
  exact h

/-- One draft after another stops for what either stops for. -/
theorem append (ha : a.StopsFor allowed) (hb : b.StopsFor allowed) :
    (a ++ b).StopsFor allowed := by
  obtain ⟨pieces, _ | stop⟩ := a
  · exact hb
  · exact ha

/-- Composition adds no reason of its own. -/
theorem closure : Closure (StopsFor allowed) where
  plain := fun h => of_complete (complete_of_isPlain h)
  append := append

/-- Two operands that do not fit together stop for that, or for what one of them stops for. -/
theorem unequal {ctx : Context} (hunequal : allowed (.unequalOperands "" ""))
    (ha : a.StopsFor allowed) (hb : b.StopsFor allowed) : (unequal ctx a b).StopsFor allowed := by
  obtain ⟨as, _ | stop⟩ := a
  · obtain ⟨bs, _ | stop⟩ := b
    · intro s hs
      obtain rfl := Option.some.inj hs
      exact hunequal
    · exact hb
  · exact ha

/-- The words in front of a criterion are written. -/
theorem introduce (place : CriterionPlace) (hd : d.StopsFor allowed) :
    (place.introduce d).StopsFor allowed := by
  cases place with
  | aggregate => exact closure.behind rfl (closure.parens ((of_complete rfl).append hd))
  | _ => exact (of_complete rfl).append hd

end StopsFor

end Draft

/-- Constants without a literal are the numbers that are not finite. -/
theorem Value.draft_stopsFor {allowed : BuildError → Prop} (ctx : Context) {v : Value}
    {mayBind : Bool} (h : (Part.expr (.value v mayBind)).RefusedFor allowed) :
    (v.draft ctx mayBind).StopsFor allowed := by
  simp only [Value.draft]
  split
  · exact .of_complete rfl
  · cases v with
    | float x =>
      show StopsFor allowed (if x.isFinite then _ else _)
      split
      · exact .of_complete rfl
      · next hx => exact .fail (h _ (if_neg hx))
    | _ => exact .of_complete rfl

/-- A tree is inspected for the reasons to stop: its parts are refused for allowed ones only. -/
def stopping (allowed : BuildError → Prop) : Inspection where
  part := Part.RefusedFor allowed
  holds := StopsFor allowed
  closure := StopsFor.closure
  value := fun ctx _ _ h => Value.draft_stopsFor ctx h
  branchless := fun h => .fail (h _ rfl)
  refusal := fun h hopen hstyle e he => .fail (Query.refused_conflict h hopen hstyle e he)
  unequal := by
    intro ctx s a b h heven ha hb
    refine StopsFor.unequal (h _ (if_neg ?_)) ha hb
    rw [heven]
    exact Bool.false_ne_true
  criterion := fun {_ place} _ _ _ _ _ hd => .introduce place hd
  distinctOn := .of_complete rfl
  onConflict := .of_complete rfl
  onDuplicateKey := fun hd => (StopsFor.of_complete rfl).append hd

/-! ## The theorem -/

namespace Node

/-- If the parts of a node are refused for allowed reasons only, its draft stops for no other. -/
theorem stopsFor {allowed : BuildError → Prop} (ctx : Context) (node : Node)
    (h : node.Everywhere (Part.RefusedFor allowed)) : (node.draft ctx).StopsFor allowed :=
  Node.holds (S := stopping allowed) ctx node h

/-- **Writing fails only for what is in the tree.** A term, a statement or a set operation is
    written in every context unless there is in it, nested statements included, a number that is not
    finite, a CASE without branches, a set operation whose statements select different numbers of
    terms, or, where the dialect is not MySQL, an open conflict clause with columns and no handler
    or with updates and no columns. If there is an error, then a part of the tree is refused for
    it. -/
theorem finish_refusals (node : Node) (ctx : Context) (p : Parameters) :
    ((node.Everywhere fun part => part.refusal? = none) →
      ∃ (ts : List Token) (p' : Parameters), (node.draft ctx).finish p = (.ok ts, p')) ∧
    ∀ e : BuildError, ((node.draft ctx).finish p).1 = .error e →
      ¬ node.Everywhere fun part => part.refusal? ≠ some e.bare := by
  constructor
  · intro hnode
    have hnone : Part.RefusedFor (fun _ => False) = fun part => part.refusal? = none := by
      funext part
      exact propext Option.eq_none_iff_forall_ne_some.symm
    have hstops : (node.draft ctx).StopsFor fun _ => False := node.stopsFor ctx (hnone ▸ hnode)
    have hcomplete : (node.draft ctx).stop = none :=
      Option.eq_none_iff_forall_ne_some.mpr hstops
    exact ⟨_, _, finish_of_complete hcomplete p⟩
  · intro e he hnode
    have hother : Part.RefusedFor (fun e' => e' ≠ e.bare) =
        fun part => part.refusal? ≠ some e.bare := by
      funext part
      exact propext ⟨fun h hpart => h _ hpart rfl, fun h e' he' heq => h (heq ▸ he')⟩
    have hstops : (node.draft ctx).StopsFor fun e' => e' ≠ e.bare :=
      node.stopsFor ctx (hother ▸ hnode)
    obtain ⟨s, hs, hreported⟩ := reported_of_finish he
    exact hstops s hs hreported

/-- An INSERT that skips conflicting rows is written, with a CASE, a finite number and a set
    operation in it; a statement that reads one with a CASE without branches is not. -/
theorem finish_refusals_insert :
    let one : Query := { Query.start 1 .generic with selects := [.inline (.float (.zero false))] }
    let case : Term := ⟨.case [⟨.field "x", .inline (.int 1)⟩] none, none⟩
    let written := query
      { Query.start 2 .generic with
        insertTable := some (.named 3 "t")
        rows := [[case, .ofSetOperation ⟨one, [⟨.union, one⟩], [], none, none, ⟨4, none⟩⟩]]
        conflict := { Conflict.none with
          isOpen := true, fields := [.field "a"], doNothing := true } }
    let refused := query
      { Query.start 5 .generic with
        sources := [.query { Query.start 6 .generic with selects := [⟨.case [] none, none⟩] }]
        selects := [.star] }
    (∀ (ctx : Context) (p : Parameters), ∃ (ts : List Token) (p' : Parameters),
      (written.draft ctx).finish p = (.ok ts, p')) ∧
    ¬ refused.Everywhere fun part => part.refusal? ≠ some .caseWithoutBranch := by
  intro one case written refused
  have hwritten : written.Everywhere fun part => part.refusal? = none := by
    refine ⟨rfl, ?_⟩
    repeat' first
      | exact trivial
      | exact rfl
      | refine And.intro ?_ ?_
  have hrefused : ((refused.draft default).finish {}).1 = .error .caseWithoutBranch := by
    decide +kernel
  exact ⟨fun ctx p => (finish_refusals written ctx p).1 hwritten,
    (finish_refusals refused default {}).2 _ hrefused⟩

end Node

end SqlCompose
