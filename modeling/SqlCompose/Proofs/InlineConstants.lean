import SqlCompose.Proofs.DefinitionLockstep
import SqlCompose.Proofs.Filling
import SqlCompose.Term.Build

/-! # Inline constants — what is captured comes from constants that may be bound

    An inline constant, a part of a date and the string `*` are written as they are wherever they
    are written by themselves. But an array of nothing but constants is captured as a whole, and
    nobody asks its items whether they may be bound.

    Where a captured value comes from is seen when the constants of a tree are exchanged: `Exchange`
    reaches those that may be bound, limits and offsets, and no others. What is captured follows the
    exchange, so it comes from what the exchange reaches. And around the gaps stands what is written
    where nothing is bound, where every constant is its literal.

    * `Piece.texts_blank` — the texts around the holes do not depend on values.
    * `Writing.captured_follows` — the theorem.
    * `Writing.captured_inline_items` — an array that captures what it must not. -/

namespace SqlCompose

open Draft

namespace Piece

/-- The texts around the holes do not depend on values. -/
theorem texts_blank (ps : List Piece) : texts (ps.map blank) = texts ps := by
  induction ps with
  | nil => rfl
  | cons p rest ih =>
    cases p with
    | token t => exact congrArg (List.modifyHead (t :: ·)) ih
    | hole v d => exact congrArg ([] :: ·) ih

end Piece

/-- Drafts that differ in the values of their gaps have the same texts around them. -/
theorem Draft.SameBlank.texts_eq {d d' : Draft} (h : SameBlank d d') :
    Piece.texts d.pieces = Piece.texts d'.pieces := by
  have hpieces : d.pieces.map Piece.blank = d'.pieces.map Piece.blank := congrArg Draft.pieces h
  rw [← Piece.texts_blank, hpieces, Piece.texts_blank]

/-- Drafts that differ in the values of their gaps are finished to the same. -/
theorem Draft.SameBlank.numbered_eq {d d' : Draft} (h : SameBlank d d')
    (factory : Option (Nat → String)) (count : Nat) :
    d.numbered factory count = d'.numbered factory count := by
  rw [← numbered_blank, h, numbered_blank]

namespace Writing

/-- What holds of every part on a condition holds everywhere on it. -/
theorem everywhere_of_imp {P : Part → Prop} {condition : Prop} {w : Writing}
    (h : condition → w.Everywhere P) : w.Everywhere fun p => condition → P p := by
  by_cases hcondition : condition
  · have hsame : (fun p => condition → P p) = P :=
      funext fun p => propext ⟨fun hp => hp hcondition, fun hp _ => hp⟩
    rw [hsame]
    exact h hcondition
  · exact w.everywhere_of_forall fun _ hholds => absurd hholds hcondition

/-- **What is captured comes from constants that may be bound.** Whatever is written where constants
    are bound, and whether it can be written or not: if its constants that may be bound are
    exchanged for others, the captured values are exchanged with them, one by one, and the text
    stays. Inline constants, parts of dates and the string `*` are never exchanged, so no captured
    value is one of them. If it is an array, its items are not either, unless there is an array of
    nothing but constants in the tree of which some may not be bound. Between the placeholders
    stands what is written where nothing is bound between the literals of the captured constants and
    the captured arrays. -/
theorem captured_follows {ctx : Context} (hb : ctx.binding = true) (w : Writing) :
    ∃ (segments : List (List Token)) (dialects : List Dialect) (captured : List Value),
      (∀ r : Parameters,
        ((w.draft ctx).finish r).2 = { r with values := r.values ++ captured }) ∧
      (∀ (r : Parameters) (ts : List Token), ((w.draft ctx).finish r).1 = .ok ts →
        segments.length = captured.length + 1 ∧ dialects.length = captured.length ∧
          ts = weave segments (Piece.placeholders r.factory r.values.length dialects)) ∧
      ∀ x : Exchange, x.KeepsBindable → ∃ captured' : List Value,
        (∀ r : Parameters, ((w.exchange x).draft ctx).finish r =
          (((w.draft ctx).finish r).1, { r with values := r.values ++ captured' })) ∧
        List.Forall₂ (x.Follows ¬ w.Everywhere fun p => p.bindsItems = true)
          captured captured' ∧
        ∀ (plain : List Token) (p p' : Parameters),
          ((w.exchange x).draft { ctx with binding := false }).finish p = (.ok plain, p') →
            ∃ fillings : List (List Token),
              List.Forall₂ (Value.WrittenAs fun _ => True) captured' fillings ∧
                plain = weave segments fillings := by
  have hvalues {d : Draft} (hstop : d.stop = none) : d.bound = Piece.values d.pieces := by
    have hfinish := congrArg Prod.snd (finish_of_complete hstop {})
    exact congrArg Parameters.values hfinish
  refine ⟨Piece.texts (w.draft ctx).pieces, Piece.dialects (w.draft ctx).pieces,
    (w.draft ctx).bound, fun _ => rfl, ?_, ?_⟩
  · intro r ts hts
    have hstop := complete_of_finish (Prod.ext hts rfl)
    rw [finish_of_complete hstop] at hts
    refine ⟨?_, ?_, ?_⟩
    · rw [Piece.texts_length, hvalues hstop]
    · rw [Piece.dialects_length, hvalues hstop]
    · rw [← Piece.number_eq_weave]
      exact (Except.ok.inj hts).symm
  · intro x hx
    have hfollows : Following (x.Follows ¬ w.Everywhere fun p => p.bindsItems = true)
        (w.draft ctx) ((w.exchange x).draft ctx) :=
      w.draft_sim (S := following x hx _) ⟨hb, rfl⟩ (everywhere_of_imp Classical.not_not.mp)
    refine ⟨((w.exchange x).draft ctx).bound, ?_, hfollows.bound, ?_⟩
    · intro r
      exact Prod.ext (hfollows.sameBlank.numbered_eq _ _).symm rfl
    · intro plain p p' hplain
      -- the exchanged tree, without binding and with it
      have hctx : ({ { ctx with binding := false } with binding := true } : Context) = ctx := by
        cases ctx
        cases hb
        rfl
      have heverywhere : (w.exchange x).Everywhere fun _ => True :=
        (w.exchange x).everywhere_of_forall fun _ => trivial
      have hfills := (w.exchange x).draft_sim (S := filling fun _ => True)
        (c := { ctx with binding := false }) ⟨rfl, rfl⟩ heverywhere
      rw [hctx] at hfills
      have hfills : Fills (Value.WrittenAs fun _ => True)
          ((w.exchange x).draft { ctx with binding := false })
          (((w.exchange x).exchange .id).draft ctx) := hfills
      rw [Writing.exchange_id] at hfills
      have hstop := complete_of_finish hplain
      obtain ⟨hbound, hfilled⟩ := hfills hstop
      obtain ⟨fillings, hfillings, hweave⟩ := hfilled.weave
      rw [finish_of_complete hstop] at hplain
      obtain ⟨rfl, -⟩ := hplain
      refine ⟨fillings, ?_, ?_⟩
      · rw [hvalues hbound]
        exact hfillings
      · rw [hfollows.sameBlank.texts_eq]
        exact hweave _ _

/-- A list of an inline constant, one that may be bound and an array of two that may be, written
    after one value has been bound, with all numbers exchanged for the next ones. -/
theorem captured_follows_next :
    let ctx : Context := { Context.ofDialect .postgres with binding := true }
    let numbers (first second third : Int64) : Writing :=
      node (.term (.tuple [.inline (.int 0), .value (.int first),
        .array [.value (.int second), .value (.int third)]]))
    let next : Exchange := ⟨fun v => match v with | .int n => .int (n + 1) | v => v, fun n => n⟩
    let r : Parameters := { values := [.bool true] }
    let bound : List Token := [.lparen, .int 0, .comma, .raw "$2", .comma, .raw "$3", .rparen]
    let plain : List Token :=
      [.lparen, .int 0, .comma, .int 2, .comma, .keyword .array, .lbracket, .int 3, .comma, .int 4,
        .rbracket, .rparen]
    ctx.binding = true ∧
      ((numbers 1 2 3).draft ctx).finish r =
        (.ok bound, { values := [.bool true, .int 1, .list [.int 2, .int 3]] }) ∧
      ((numbers 2 3 4).draft ctx).finish r =
        (.ok bound, { values := [.bool true, .int 2, .list [.int 3, .int 4]] }) ∧
      List.Forall₂ (next.Follows False) [.int 1, .list [.int 2, .int 3]]
        [.int 2, .list [.int 3, .int 4]] ∧
      ∃ (segments fillings : List (List Token)) (dialects : List Dialect),
        segments.length = 3 ∧ bound = weave segments (Piece.placeholders none 1 dialects) ∧
          plain = weave segments fillings ∧
          List.Forall₂ (Value.WrittenAs fun _ => True) [.int 2, .list [.int 3, .int 4]]
            fillings := by
  intro ctx numbers next r bound plain
  have hnext : next.KeepsBindable := by
    intro v hv
    cases v with
    | int n => rfl
    | _ => exact hv
  have hfirst : ((numbers 1 2 3).draft ctx).finish r =
      (.ok bound, { values := [.bool true, .int 1, .list [.int 2, .int 3]] }) := by
    cbv
  have hsecond : (((numbers 1 2 3).exchange next).draft ctx).finish r =
      (.ok bound, { values := [.bool true, .int 2, .list [.int 3, .int 4]] }) := by
    cbv
  have hplain : (((numbers 1 2 3).exchange next).draft { ctx with binding := false }).finish {} =
      (.ok plain, {}) := by
    cbv
  have hbinds : (numbers 1 2 3).Everywhere fun p => p.bindsItems = true := by
    repeat' first
      | exact trivial
      | exact rfl
      | refine And.intro ?_ ?_
  obtain ⟨segments, dialects, captured, hcaptured, hwritten, hexchange⟩ :=
    @captured_follows ctx rfl (numbers 1 2 3)
  obtain ⟨hlength, -, hbound⟩ := hwritten r bound (congrArg Prod.fst hfirst)
  obtain ⟨captured', hfinish, hfollows, hfillings⟩ := hexchange next hnext
  obtain ⟨fillings, hforall, hweave⟩ := hfillings plain {} {} hplain
  -- what is captured is what the two runs above leave behind the value that was there
  obtain rfl : captured = [.int 1, .list [.int 2, .int 3]] := by
    have hvalues := congrArg Parameters.values ((hcaptured r).symm.trans (congrArg Prod.snd hfirst))
    exact (List.cons.inj hvalues).2
  obtain rfl : captured' = [.int 2, .list [.int 3, .int 4]] := by
    have hvalues := congrArg (fun result => result.2.values) ((hfinish r).symm.trans hsecond)
    exact (List.cons.inj hvalues).2
  have hstays : (¬ (numbers 1 2 3).Everywhere fun p => p.bindsItems = true) = False :=
    eq_false fun hnot => hnot hbinds
  rw [hstays] at hfollows
  exact ⟨rfl, hfirst, hsecond, hfollows, segments, fillings, dialects, hlength, hbound, hweave,
    hforall⟩

/-- An array of an inline constant, the string `*` and a part of a date is captured as a whole,
    while a list of the same terms captures nothing. -/
theorem captured_inline_items :
    let ctx : Context := { Context.ofDialect .postgres with binding := true }
    let items : List Term := [.inline (.int 1), .value (.str "*"), .value (.part .day)]
    ((node (.term (.array items))).draft ctx).finish {} =
        (.ok [.raw "$1"], { values := [.list [.int 1, .str "*", .part .day]] }) ∧
      ((node (.term (.tuple items))).draft ctx).finish {} =
        (.ok [.lparen, .int 1, .comma, .string "*", .comma, .raw "DAY", .rparen], {}) := by
  constructor <;> rfl

end Writing

end SqlCompose
