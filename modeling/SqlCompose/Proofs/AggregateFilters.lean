import SqlCompose.Function.Basic
import SqlCompose.Proofs.FoldedFilters
import SqlCompose.Proofs.IntroducedCriteria

/-! # Aggregate filters — the criterion that nothing guards

    The criteria of all calls for the filter of an aggregate are joined to one, and the filter is
    there from the first of these calls on, whatever it was given. Nothing looks at the filter
    again, neither where the aggregate is built nor where it is written. So a call with no criteria,
    or with criteria that ask for nothing, leaves `FILTER(WHERE )`. All other words for criteria are
    guarded.

    * `Function.Step`, `Function.Step.run` — a call on the builder of a function, and what calls
      make of it.
    * `Function.Step.filter_run` — the filter after any calls.
    * `Function.writes_filter` — the filter as it is written.
    * `Writing.criteria_introduced` — the theorem. -/

namespace SqlCompose

open Draft

namespace Function

/-! ## Calls -/

/-- A call on the builder of a function. -/
inductive Step
  | as (aliasName : String)
  | inSchema (s : Schema)
  | suffixed (suffix : CallSuffix)
  | distinct
  | filter (criteria : List Term)
  | overPartition (partition : List Term)
  | orderBy (terms : List Term) (direction : Option Direction)
  | framed (frame : Frame)

namespace Step

/-- What a call makes of a function. -/
def apply (f : Function) : Step → Except BuildError Function
  | as aliasName => .ok (f.as aliasName)
  | inSchema s => .ok (f.inSchema s)
  | suffixed suffix => .ok (f.suffixed suffix)
  | distinct => .ok f.distinct
  | filter criteria => .ok (f.filter criteria)
  | overPartition partition => .ok (f.overPartition partition)
  | orderBy terms direction => .ok (f.orderBy terms direction)
  | framed frame => f.framed frame

/-- What one call after the other makes of a function. -/
def run (f : Function) (steps : List Step) : Except BuildError Function := steps.foldlM apply f

/-- The criteria that a call has for the filter. -/
def criteria? : Step → Option (List Term)
  | filter criteria => some criteria
  | _ => none

section

variable {s : Step} {steps : List Step} {f g : Function}

/-- A call for the filter adds its criteria to those that there are; the other calls keep them. -/
theorem filter_apply (h : s.apply f = .ok g) :
    g.call.bare = f.call.bare ∧
      g.call.filter = match s.criteria? with
        | some criteria => some (criteria.foldl Term.and (f.call.filter.getD Term.empty))
        | none => f.call.filter := by
  cases s with
  | framed frame =>
    simp only [apply, Function.framed] at h
    split at h
    · exact nomatch h
    · obtain rfl := Except.ok.inj h
      exact ⟨rfl, rfl⟩
  | _ =>
    obtain rfl := Except.ok.inj h
    exact ⟨rfl, rfl⟩

/-- After any calls the filter is there if there was one or if a call was for it, and then it is the
    conjunction of all criteria in the order of the calls. -/
theorem filter_run (h : run f steps = .ok g) :
    g.call.bare = f.call.bare ∧
      g.call.filter =
        if (steps.filterMap criteria?).isEmpty then f.call.filter
        else some ((steps.filterMap criteria?).flatten.foldl Term.and
          (f.call.filter.getD Term.empty)) := by
  induction steps generalizing f with
  | nil =>
    obtain rfl := Except.ok.inj h
    exact ⟨rfl, rfl⟩
  | cons s rest ih =>
    obtain ⟨f₁, hs, hrest⟩ := foldlM_cons_ok h
    obtain ⟨hbare, hfilter⟩ := filter_apply hs
    obtain ⟨hbareRest, hfilterRest⟩ := ih hrest
    refine ⟨hbareRest.trans hbare, ?_⟩
    rw [hfilterRest]
    cases hgiven : s.criteria? with
    | none =>
      rw [hgiven] at hfilter
      rw [hfilter, List.filterMap_cons_none hgiven]
    | some criteria =>
      rw [hgiven] at hfilter
      rw [hfilter, List.filterMap_cons_some hgiven, List.flatten_cons, List.foldl_append]
      -- what this call leaves is where the later ones start, or the end if there are none
      cases rest.filterMap criteria? with
      | nil => rfl
      | cons _ _ => rfl

end

end Step

/-! ## The filter as it is written -/

/-- A filter is written behind its words and in front of a parenthesis. -/
theorem writes_filter {f : Function} {t : Term} (hbare : f.call.bare = false)
    (hfilter : f.call.filter = some t) {ctx : Context} {ts : List Token}
    (h : (f.toTerm.draft ctx).Writes ts) :
    ∃ before us after : List Token, (t.draft ctx).Writes us ∧
      ts = before ++ ([.keyword .filter, .lparen, .keyword .where_, .space] ++ us ++
        .rparen :: after) := by
  obtain ⟨⟨name, arguments, schema, suffix, bare, aggregate, distinct, filter, window, frame⟩,
    aliasName⟩ := f
  obtain rfl : bare = false := hbare
  obtain rfl : filter = some t := hfilter
  have hholds : Holds (filterDraft ctx (some t)) ((toTerm ⟨⟨name, arguments, schema, suffix, false,
      aggregate, distinct, some t, window, frame⟩, aliasName⟩).draft ctx) := by
    show Holds _ (_ ++ filterDraft ctx (some t) ++ windowDraft ctx frame window ++ _)
    exact (((Holds.refl _).behind _).before _).before _
  obtain ⟨before, filterTokens, after, hfilter, rfl⟩ := h.of_holds hholds
  obtain ⟨us, hus, rfl⟩ := Writes.of_filter hfilter
  refine ⟨before ++ [.space], us, after, hus, ?_⟩
  simp only [List.append_assoc, List.cons_append, List.nil_append]

end Function

/-- A criterion that asks for nothing is written as nothing. -/
theorem Term.writes_of_isEmpty {t : Term} (h : t.isEmpty = true) {ctx : Context} {us : List Token}
    (hus : (t.draft ctx).Writes us) : us = [] := by
  obtain ⟨expr, aliasName⟩ := t
  cases expr <;> first | exact hus.of_empty | exact nomatch h

/-! ## The theorem -/

namespace Writing

/-- **No word introduces a criterion that asks for nothing, except that of an aggregate's filter.**
    Let the statements of a tree be built by any calls, and let `C` say of every criterion in it, at
    its place, what there is to say. Wherever WHERE, PREWHERE, HAVING or ON is written, in every
    context, the criterion behind it is one of those that `C` speaks of, and asks for something
    unless it is an aggregate's filter; an ON without a criterion is one of DISTINCT ON, ON CONFLICT
    and ON DUPLICATE KEY. The filter of an aggregate is written with its words after any calls of
    which one is for the filter. It is the conjunction of all criteria, and so there is nothing
    behind its WHERE exactly if none of them asks for anything. -/
theorem criteria_introduced {C : CriterionPlace → Term → Prop} {w : Writing}
    (hw : w.Everywhere (Part.States C)) {ctx : Context} {ts : List Token}
    (h : (w.draft ctx).Writes ts) :
    Introduced C ts ∧
      ∀ {f g : Function} {steps : List Function.Step} {criteria : List (List Term)},
        f.call.filter = none → f.call.bare = false → Function.Step.run f steps = .ok g →
        steps.filterMap Function.Step.criteria? = criteria → criteria ≠ [] →
        (Term.conjunction criteria.flatten).isEmpty = criteria.flatten.all Term.isEmpty ∧
        ∀ {ctx : Context} {ts : List Token}, (g.toTerm.draft ctx).Writes ts →
          ∃ before us after : List Token,
            ((Term.conjunction criteria.flatten).draft ctx).Writes us ∧
            (criteria.flatten.all Term.isEmpty = true → us = []) ∧
            ts = before ++ ([.keyword .filter, .lparen, .keyword .where_, .space] ++ us ++
              .rparen :: after) := by
  refine ⟨w.introduces ctx hw ts h, ?_⟩
  rintro f g steps criteria hnone hbare hrun rfl hgiven
  obtain ⟨hbareAfter, hfilter⟩ := Function.Step.filter_run hrun
  rw [if_neg (by simpa using hgiven), hnone] at hfilter
  have hempty : (Term.conjunction (steps.filterMap Function.Step.criteria?).flatten).isEmpty
      = (steps.filterMap Function.Step.criteria?).flatten.all Term.isEmpty :=
    Term.isEmpty_foldl_and_eq _ _
  refine ⟨hempty, ?_⟩
  intro ctx ts h
  obtain ⟨before, us, after, hus, hts⟩ :=
    Function.writes_filter (hbareAfter.trans hbare) hfilter h
  refine ⟨before, us, after, hus, ?_, hts⟩
  intro hall
  exact Term.writes_of_isEmpty (hempty.trans hall) hus

/-- A statement with a join, a filtered aggregate and two criteria, and an aggregate whose only
    criterion asks for nothing. -/
theorem criteria_introduced_select :
    let isOne (name : String) : Term := (Term.field name).compare .eq (.value (.int 1))
    let count := Function.aggregate "COUNT" [.field "x"]
    let q : Query :=
      { Query.start 1 .generic with
        sources := [.table (.named 2 "t")]
        joins := [⟨.table (.named 3 "u"), .inner, .on (isOne "z") none⟩]
        selects := [(count.filter [isOne "y"]).toTerm]
        filter := isOne "v"
        groupFilter := isOne "w" }
    let ts := Piece.number none 0 (q.draft default).pieces
    let unasked := ((count.filter [.empty]).distinct).toTerm
    Token.texts default ts =
        "SELECT COUNT(\"x\") FILTER(WHERE \"y\"=1) FROM \"t\" JOIN \"u\" ON \"z\"=1 " ++
          "WHERE \"v\"=1 HAVING \"w\"=1" ∧
      Introduced (fun place t => place = .aggregate → t.isEmpty = false) ts ∧
      ∃ before after : List Token, Piece.number none 0 (unasked.draft default).pieces
        = before ++ ([.keyword .filter, .lparen, .keyword .where_, .space] ++ [] ++
          .rparen :: after) := by
  intro isOne count q ts unasked
  have hbuilt : q.Built :=
    ⟨1, .generic, [.readFrom (.table (.named 2 "t")),
      .join (.table (.named 3 "u")) .inner (.on (isOne "z") none),
      .select [.term (count.filter [isOne "y"]).toTerm],
      .filterBy (isOne "v"), .filterGroupsBy (isOne "w")], rfl⟩
  have hwriting : (Writing.node (.query q)).Everywhere
      (Part.States fun place t => place = .aggregate → t.isEmpty = false) := by
    refine ⟨⟨hbuilt, fun x hx hplace => absurd hplace (Part.place_ne_aggregate hx)⟩, ?_⟩
    repeat' first
      | exact trivial
      | refine And.intro ?_ ?_
      | exact List.forall_mem_nil _
      | exact List.forall_mem_singleton.mpr fun _ => rfl
  have hwrites : ((Writing.node (.query q)).draft default).Writes ts :=
    .of_complete (by decide +kernel)
  obtain ⟨hintroduced, hfilters⟩ := criteria_introduced hwriting hwrites
  have hnone : count.call.filter = none := rfl
  have hrun : Function.Step.run count [.filter [.empty], .distinct]
      = .ok (count.filter [.empty]).distinct := rfl
  obtain ⟨-, hwritten⟩ := hfilters hnone rfl hrun rfl (List.cons_ne_nil _ _)
  have hcall : (unasked.draft default).Writes
      (Piece.number none 0 (unasked.draft default).pieces) := .of_complete (by decide +kernel)
  obtain ⟨before, us, after, -, hnothing, hts⟩ := hwritten hcall
  obtain rfl := hnothing rfl
  exact ⟨by decide +kernel, hintroduced, before, after, hts⟩

/-- Without criteria, the words are written alone. -/
theorem empty_filter_introduced :
    ((Function.aggregate "COUNT" [.field "x"]).filter []).call.filter = some .empty ∧
      (((Function.aggregate "COUNT" [.field "x"]).filter []).toTerm.draft default).finish {} =
        (.ok [.function "COUNT", .lparen, .ident "x", .rparen, .space, .keyword .filter, .lparen,
          .keyword .where_, .space, .rparen], {}) :=
  ⟨rfl, rfl⟩

end Writing

end SqlCompose
