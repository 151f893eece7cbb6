import SqlCompose.Proofs.DistinctTexts
import SqlCompose.Proofs.FailedRenders

/-! # Operand pages — the page of a statement and that of a set operation

    A limit may be set on a statement before it is combined with others, or on all rows of what they
    are combined to. Where the statements are in parentheses, what is written says which of the two
    it was.

    * `Query.draft_limited` — the limit of a statement is in its parentheses, or is not written.
    * `Query.texts_limited_ne`, `Query.width_limited` — a statement with a limit and without one.
    * `SetOperation.draft_around` — a set operation around one of its operands.
    * `SetOperation.toldApart_take` — a limit of an operand and a limit of all rows are told apart.
    * `SetOperation.PagesInside` — outside of the parentheses of all statements there is nothing of
      their orders and pages.
    * `SetOperation.page_inside_operand` — the theorem. -/

namespace SqlCompose

open Draft

/-! ## Statements with a limit and without one -/

namespace Query

/-- The statement with the limit, or without one. -/
def limited (limit : Option Int64) (q : Query) : Query := { q with limit }

theorem limited_self (q : Query) : q.limited q.limit = q := by
  cases q
  rfl

/-- The limit is in the page of a SELECT, which the lock alone stands behind. -/
theorem inside_limited (q : Query) (ctx : Context) :
    ∃ leading : Draft, ∀ limit : Option Int64,
      (q.limited limit).inside ctx = leading ++
        (Clause.pagination (q.innerContext ctx) (q.limited limit) ++ Clause.locking q.lock) := by
  let inner := q.innerContext ctx
  refine ⟨Clause.leading inner q q.parts ++ Clause.ordered inner q q.parts, fun limit => ?_⟩
  rw [← append_assoc]
  cases q
  rfl

variable {q : Query} {ctx : Context}

/-- A limit is in the parentheses of a nested statement, or is not written. -/
theorem draft_limited (htrails : q.trails = false) (hnested : ctx.nested = true)
    (limit : Option Int64) :
    (q.limited limit).draft ctx =
      if q.isSelection then
        token .lparen ++ ((q.limited limit).inside ctx ++ (token .rparen ++ q.outside ctx))
      else q.outside ctx := by
  have houtside : (q.limited limit).outside ctx = q.outside ctx := by
    rw [← outside_repaged htrails q.orderings limit q.offset]
    cases q
    rfl
  have hkind : (q.limited limit).isSelection = q.isSelection := rfl
  rw [← houtside, outside, hkind]
  split
  · next hselection =>
    rw [draft_of_isSelection (hkind.trans hselection), hnested]
    show token .lparen ++ _ ++ token .rparen ++ _ = _
    rw [append_assoc, append_assoc]
  · rfl

/-- No limit keeps a statement from being written. -/
theorem complete_limited (htrails : q.trails = false) (hnested : ctx.nested = true)
    (limit limit' : Option Int64) (h : ((q.limited limit).draft ctx).stop = none) :
    ((q.limited limit').draft ctx).stop = none := by
  rw [draft_limited htrails hnested] at h ⊢
  split at h
  · next hselection =>
    obtain ⟨leading, hinside⟩ := q.inside_limited ctx
    rw [hinside] at h
    obtain ⟨-, hbehind⟩ := stop_append h
    obtain ⟨hopened, hclosed⟩ := stop_append hbehind
    rw [if_pos hselection, hinside]
    have hpage := complete_append (Draft.complete.page (q.innerContext ctx) (q.limited limit'))
      (Draft.complete.locking q.lock)
    exact complete_append rfl
      (complete_append (complete_append (stop_append hopened).1 hpage) hclosed)
  · next hselection =>
    rw [if_neg hselection]
    exact h

/-- A SELECT with a limit and the same SELECT without one are written differently behind the same
    front, whatever stands behind the one and the other. -/
theorem texts_limited_ne (htrails : q.trails = false) (hselection : q.isSelection = true)
    (hnested : ctx.nested = true) (n : Int64) {front behind behind' : Draft}
    {p p₁ p₂ : Parameters} {ts us : List Token}
    (hts : (front ++ ((q.limited (some n)).draft ctx ++ behind)).finish p = (.ok ts, p₁))
    (hus : (front ++ ((q.limited none).draft ctx ++ behind')).finish p = (.ok us, p₂))
    (look : Context) :
    Token.texts look ts ≠ Token.texts look us := by
  obtain ⟨leading, hinside⟩ := q.inside_limited ctx
  obtain ⟨common, limited, rest, k, hk, hlimited, hsome, hnone, hrest⟩ :=
    q.dialect.pagination_apart (Value.draft (q.innerContext ctx) (.int n) true)
      (q.offset.map fun n => Value.draft (q.innerContext ctx) (.int n) true) (!q.orderings.isEmpty)
  have hsome : Clause.pagination (q.innerContext ctx) (q.limited (some n)) = common ++ limited :=
    hsome
  have hnone : Clause.pagination (q.innerContext ctx) (q.limited none) = common ++ rest := hnone
  rw [draft_limited htrails hnested, if_pos hselection, hinside] at hts hus
  rw [hsome] at hts
  rw [hnone] at hus
  -- both start with what stands before the page and with what the pages have in common
  have hfront (page closed : Draft) :
      front ++ (token .lparen ++ (leading ++ (common ++ page ++ Clause.locking q.lock) ++
        (token .rparen ++ q.outside ctx)) ++ closed) =
      (front ++ (token .lparen ++ (leading ++ common))) ++
        (page ++ (Clause.locking q.lock ++ (token .rparen ++ (q.outside ctx ++ closed)))) := by
    simp only [append_assoc]
  rw [hfront] at hts hus
  refine texts_ne_of_append ?_ hts hus
  intro ts us hts hus
  have hlimited := hlimited.append (Clause.locking q.lock ++
    (token .rparen ++ (q.outside ctx ++ behind)))
  rcases hrest with rfl | ⟨rfl, hoffset⟩
  · cases hlock : q.lock with
    | none =>
      rw [hlock] at hus
      exact hlimited.texts_ne_rparen hts hus
    | some lock =>
      rw [hlock] at hus
      exact hlimited.texts_ne (Keyword.apart_for hk) ((GoesOn.locking lock).append _) hts hus
  · exact hlimited.texts_ne (by decide) (hoffset.append _) hts hus

/-- A number that is the limit of a statement makes its text longer by its digits at most, if the
    statement has a limit already or is one that shows none. -/
theorem width_limited (htrails : q.trails = false) (hnested : ctx.nested = true)
    (hlimit : q.isSelection = true → q.limit ≠ none) (n : Int64) {front behind : Draft}
    {p p₁ p₂ : Parameters} {ts us : List Token}
    (hts : (front ++ ((q.limited (some n)).draft ctx ++ behind)).finish p = (.ok ts, p₁))
    (hus : (front ++ (q.draft ctx ++ behind)).finish p = (.ok us, p₂)) (look : Context) :
    Token.width look ts ≤ Token.width look us + Token.width look [.int n] := by
  rw [← q.limited_self, draft_limited htrails hnested] at hus
  rw [draft_limited htrails hnested] at hts
  split at hts
  · next hselection =>
    obtain ⟨k, hk⟩ := Option.ne_none_iff_exists'.mp (hlimit hselection)
    obtain ⟨leading, hinside⟩ := q.inside_limited ctx
    obtain ⟨before, after, hpage⟩ := q.dialect.pagination_some
      (q.offset.map fun n => Value.draft (q.innerContext ctx) (.int n) true) (!q.orderings.isEmpty)
    -- all of it is the same around the number
    have haround (m : Int64) : front ++ (token .lparen ++ ((q.limited (some m)).inside ctx ++
          (token .rparen ++ q.outside ctx)) ++ behind) =
        (front ++ (token .lparen ++ (leading ++ before))) ++
          (Value.draft (q.innerContext ctx) (.int m) true ++
            (after ++ (Clause.locking q.lock ++
              (token .rparen ++ (q.outside ctx ++ behind))))) := by
      have hlimited : Clause.pagination (q.innerContext ctx) (q.limited (some m)) =
          before ++ (Value.draft (q.innerContext ctx) (.int m) true ++ after) := hpage _
      rw [hinside, hlimited]
      simp only [append_assoc]
    rw [if_pos hselection, hk, haround] at hus
    rw [haround] at hts
    have hvalues := (Value.width_count (q.innerContext ctx) look n k p.factory 0).1
    obtain ⟨count, hwidth⟩ := width_exchange hvalues hts hus look
    have hdigits := (Value.width_count (q.innerContext ctx) look n k p.factory count).2
    omega
  · next hselection =>
    rw [if_neg hselection] at hus
    obtain rfl : ts = us := Except.ok.inj (congrArg Prod.fst (hts.symm.trans hus))
    exact Nat.le_add_right _ _

end Query

/-! ## Set operations around one of their operands -/

namespace SetOperation

/-- A statement that selects the same terms as another one fits in its place. -/
theorem fits_exchange {s : SetOperation} {before after : List Operand} {op : SetOperator}
    {b q : Query} (hselects : q.selects = b.selects)
    (hfits : ∀ o ∈ before ++ ⟨op, q⟩ :: after, s.Fits o) :
    ∀ o ∈ before ++ ⟨op, b⟩ :: after, s.Fits o := by
  obtain ⟨hbefore, hrest⟩ := List.forall_mem_append.mp hfits
  obtain ⟨hq, hafter⟩ := List.forall_mem_cons.mp hrest
  have hb : s.Fits ⟨op, b⟩ := (congrArg List.length hselects.symm).trans hq
  exact List.forall_mem_append.mpr ⟨hbefore, List.forall_mem_cons.mpr ⟨hb, hafter⟩⟩

/-- A set operation of fitting statements, with a limit for all rows, around one of its operands. -/
theorem draft_around {s : SetOperation} {before after : List Operand} {op : SetOperator} {b : Query}
    (hoperands : s.operands = before ++ ⟨op, b⟩ :: after) (hfits : ∀ o ∈ s.operands, s.Fits o)
    (outer : Context) :
    ∃ front between close : Draft, (after = [] → s.orderings = [] → between = empty) ∧
      ∀ (q : Query) (limit : Option Int64), q.selects = b.selects →
        SetOperation.draft outer { s with operands := before ++ ⟨op, q⟩ :: after, limit } =
          front ++ (q.draft (s.operandContext outer) ++ (between ++
            (tokens (s.base.dialect.pageTokens limit s.offset (!s.orderings.isEmpty)) ++
              close))) := by
  have henclosed (d : Draft) : parensIf outer.nested d =
      when outer.nested (token .lparen) ++ (d ++ when outer.nested (token .rparen)) := by
    cases outer.nested with
    | false => exact (append_empty d).symm
    | true => exact append_assoc _ _ _
  let ctx := s.operandContext outer
  refine ⟨when outer.nested (token .lparen) ++ (s.base.draft ctx ++
      (row ctx before ++ tokens op.tokens)),
    row ctx after ++ Clause.unlessNone [.orderBy] (s.sorted outer),
    when outer.nested (token .rparen) ++ outer.declaration (outer.aliasOf s.slot), ?_, ?_⟩
  · rintro rfl horderings
    rw [sorted, horderings]
    rfl
  -- an operand with as many columns leaves the others as they are
  intro q limit hselects
  rw [hoperands] at hfits
  have hfits := fits_exchange hselects.symm hfits
  rw [draft_eq_tail (s := { s with operands := before ++ ⟨op, q⟩ :: after, limit }) hfits,
    henclosed]
  show _ ++ ((s.base.draft ctx ++ row ctx (before ++ ⟨op, q⟩ :: after) ++
    (Clause.unlessNone [.orderBy] (s.sorted outer) ++
      s.base.dialect.pagination (limit.map fun n => token (.int n))
        (s.offset.map fun n => token (.int n)) (!s.orderings.isEmpty))) ++ _) ++ _ = _
  rw [row_append, Dialect.pagination_eq_tokens]
  show _ ++ ((_ ++ (_ ++ (tokens op.tokens ++ q.draft ctx ++ row ctx after)) ++ _) ++ _) ++ _ = _
  simp only [append_assoc, ctx]

/-- If the set operation is written with a statement in the place of one that selects the same
    terms, then its statements fit. -/
theorem fits_of_complete_around {s : SetOperation} {before after : List Operand} {op : SetOperator}
    {b q : Query} (hoperands : s.operands = before ++ ⟨op, b⟩ :: after)
    (hselects : q.selects = b.selects) {limit : Option Int64} {outer : Context}
    (hstop : (SetOperation.draft outer
      { s with operands := before ++ ⟨op, q⟩ :: after, limit }).stop = none) :
    ∀ o ∈ s.operands, s.Fits o := by
  have hfits : ∀ o ∈ before ++ ⟨op, q⟩ :: after, s.Fits o := fits_of_complete hstop
  rw [hoperands]
  exact fits_exchange hselects hfits

end SetOperation

/-! ## Limits of operands and limits of all rows -/

namespace Query

variable {q : Query} {ctx : Context} {front between close : Draft} {d : Dialect}
  {offset : Option Int64} {ordered : Bool}

/-- No limit, of a statement or of all rows, keeps what they are in from being written. -/
theorem complete_around (htrails : q.trails = false) (hnested : ctx.nested = true)
    (limit limit' : Option Int64) {taken : Option Int64} (taken' : Option Int64)
    (h : (front ++ ((q.limited limit).draft ctx ++ (between ++
      (tokens (d.pageTokens taken offset ordered) ++ close)))).stop = none) :
    (front ++ ((q.limited limit').draft ctx ++ (between ++
      (tokens (d.pageTokens taken' offset ordered) ++ close)))).stop = none := by
  simp only [complete_append_iff] at h ⊢
  obtain ⟨hfront, hq, hbetween, -, hclose⟩ := h
  exact ⟨hfront, complete_limited htrails hnested limit limit' hq, hbetween, rfl, hclose⟩

/-- A limit of a statement in parentheses is not written like the same limit of all rows. -/
theorem texts_take_ne (htrails : q.trails = false) (hnested : ctx.nested = true) {n : Int64}
    {p p₁ p₂ : Parameters} {ts us : List Token}
    (hts : (front ++ ((q.take n).draft ctx ++ (between ++
      (tokens (d.pageTokens none offset ordered) ++ close)))).finish p = (.ok ts, p₁))
    (hus : (front ++ (q.draft ctx ++ (between ++
      (tokens (d.pageTokens (some n) offset ordered) ++ close)))).finish p = (.ok us, p₂))
    (look : Context) : Token.texts look ts ≠ Token.texts look us := by
  by_cases hplain : q.isSelection = true ∧ q.limit = none
  · obtain ⟨hselection, hnone⟩ := hplain
    rw [← q.limited_self, hnone] at hus
    exact texts_limited_ne htrails hselection hnested n hts hus look
  · -- the limit of the statement is there already, or is not written, so the other one makes its
    -- text the longer one
    have hlimit : q.isSelection = true → q.limit ≠ none :=
      fun hselection hnone => hplain ⟨hselection, hnone⟩
    obtain ⟨vs, p₃, hvs⟩ : ∃ vs p₃, (front ++ (q.draft ctx ++ (between ++
        (tokens (d.pageTokens none offset ordered) ++ close)))).finish p = (.ok vs, p₃) := by
      have hstop := complete_around htrails hnested (some n) q.limit none
        (complete_of_finish hts)
      rw [limited_self] at hstop
      exact ⟨_, _, finish_of_complete hstop p⟩
    have hoperand := width_limited htrails hnested hlimit n hts hvs look
    rw [← append_assoc, ← append_assoc] at hvs hus
    have hpage := Dialect.width_page hvs hus look
    intro htexts
    have hwidth : Token.width look ts = Token.width look us := congrArg String.length htexts
    omega

/-- Without parentheses and locks, the page of a SELECT is at its end. -/
theorem draft_limited_bare (hselect : q.IsSelect) (hdialect : q.dialect = .mysql)
    (hoffset : q.offset = none) (hlock : q.lock = none) (hnested : ctx.nested = false)
    (hdeclares : ctx.declares = false) (hplain : ctx.binding = false) :
    ∃ leading : Draft, ∀ limit : Option Int64,
      (q.limited limit).draft ctx =
        leading ++ tokens (Dialect.mysql.pageTokens limit none false) := by
  obtain ⟨leading, hinside⟩ := q.inside_limited ctx
  refine ⟨leading, fun limit => ?_⟩
  have hlimited : (q.limited limit).IsSelect :=
    ⟨hselect.selection, hselect.keeps, hselect.reads, hselect.closed, hselect.silent⟩
  have hpage : Clause.pagination (q.innerContext ctx) (q.limited limit) =
      tokens (Dialect.mysql.pageTokens limit none false) := by
    have hvalue (n : Int64) : Value.draft (q.innerContext ctx) (.int n) true = token (.int n) := by
      have hbinding : (q.innerContext ctx).binding = false := hplain
      rw [Value.draft, hbinding]
      rfl
    show q.dialect.pagination (limit.map fun n => Value.draft (q.innerContext ctx) (.int n) true)
      (q.offset.map fun n => Value.draft (q.innerContext ctx) (.int n) true) _ = _
    simp only [hdialect, hoffset, hvalue]
    exact Dialect.mysql.pagination_eq_tokens limit none _
  rw [draft_of_isSelect hlimited hdeclares, hnested, hinside, hpage, hlock]
  exact congrArg (leading ++ ·) (append_empty _)

end Query

/-! ## The theorem -/

/-- Where the whole is written, so are both drafts, and nobody takes the one for the other; where it
    is refused, so are they. -/
def Draft.ToldApart (whole a b : Draft) : Prop :=
  ∀ (ctx : Context) (p : Parameters),
    match (whole.render ctx p).1 with
    | .ok _ => ∃ x y : String, (a.render ctx p).1 = .ok x ∧ (b.render ctx p).1 = .ok y ∧ x ≠ y
    | .error _ =>
      ∃ e e' : BuildError, (a.render ctx p).1 = .error e ∧ (b.render ctx p).1 = .error e'

theorem Draft.toldApart {whole a b : Draft} (ha : whole.stop = none ↔ a.stop = none)
    (hb : whole.stop = none ↔ b.stop = none)
    (hne : ∀ {p p₁ p₂ : Parameters} {ts us : List Token}, a.finish p = (.ok ts, p₁) →
      b.finish p = (.ok us, p₂) → ∀ ctx, Token.texts ctx ts ≠ Token.texts ctx us) :
    ToldApart whole a b := by
  intro ctx p
  -- the two fail where the whole does, and are written where it is written
  split
  · next hwhole =>
    obtain ⟨ts, hfinish, -⟩ := finish_of_render (Prod.ext hwhole rfl)
    have hstop := complete_of_finish hfinish
    have hleft := finish_of_complete (ha.mp hstop) p
    have hright := finish_of_complete (hb.mp hstop) p
    refine ⟨_, _, ?_, ?_, hne hleft hright ctx⟩
    · rw [render, hleft]
      rfl
    · rw [render, hright]
      rfl
  · next hwhole =>
    have hstop : whole.stop ≠ none := by
      intro hstop
      have hfinish := finish_of_complete hstop p
      rw [finish_of_render_error (Prod.ext hwhole rfl)] at hfinish
      cases congrArg Prod.fst hfinish
    obtain ⟨e, hleft⟩ := finish_of_stopped (fun h => hstop (ha.mpr h)) p
    obtain ⟨e', hright⟩ := finish_of_stopped (fun h => hstop (hb.mpr h)) p
    exact ⟨e, e', congrArg Prod.fst (render_of_finish_error hleft),
      congrArg Prod.fst (render_of_finish_error hright)⟩

namespace SetOperation

variable {outer : Context} {s : SetOperation}

section

variable (hwraps : s.base.dialect.wrapsOperands = true) {before after : List Operand}
  {op : SetOperator} {b : Query} (hoperands : s.operands = before ++ ⟨op, b⟩ :: after)
  (htrails : b.trails = false)

include hwraps hoperands htrails

/-- No limit, of an operand or of all rows, keeps a set operation from being written. -/
theorem complete_limits (limit limit' taken taken' : Option Int64) :
    (SetOperation.draft outer
        { s with operands := before ++ ⟨op, b.limited limit⟩ :: after, limit := taken }).stop =
          none ↔
      (SetOperation.draft outer
        { s with operands := before ++ ⟨op, b.limited limit'⟩ :: after, limit := taken' }).stop =
          none := by
  have hselects (limit : Option Int64) : (b.limited limit).selects = b.selects := rfl
  have himp (limit limit' taken taken' : Option Int64)
      (h : (SetOperation.draft outer
        { s with operands := before ++ ⟨op, b.limited limit⟩ :: after, limit := taken }).stop =
          none) :
      (SetOperation.draft outer
        { s with operands := before ++ ⟨op, b.limited limit'⟩ :: after, limit := taken' }).stop =
          none := by
    have hfits := fits_of_complete_around hoperands (hselects limit) h
    obtain ⟨front, between, close, -, haround⟩ := draft_around hoperands hfits outer
    rw [haround _ taken (hselects limit)] at h
    rw [haround _ taken' (hselects limit')]
    exact Query.complete_around htrails hwraps limit limit' taken' h
  exact ⟨himp limit limit' taken taken', himp limit' limit taken' taken⟩

/-- A limit of an operand in parentheses and the same limit of all rows are told apart. -/
theorem toldApart_take (hlimit : s.limit = none) (n : Int64) :
    ToldApart (s.draft outer)
      (SetOperation.draft outer { s with operands := before ++ ⟨op, b.take n⟩ :: after })
      ((s.take n).draft outer) := by
  have hlimits := @complete_limits outer s hwraps before after op b hoperands htrails
  have haround := @draft_around s before after op b hoperands
  obtain ⟨base, operands, orderings, limit, offset, slot⟩ := s
  obtain rfl : limit = none := hlimit
  obtain rfl : operands = before ++ ⟨op, b⟩ :: after := hoperands
  have hleft := hlimits b.limit (some n) none none
  have hright := hlimits b.limit b.limit none (some n)
  rw [b.limited_self] at hleft hright
  refine Draft.toldApart hleft hright fun hts hus => ?_
  have hfits := fits_of_complete (complete_of_finish hus)
  obtain ⟨front, between, close, -, haround⟩ := haround hfits outer
  have hone := haround (b.take n) none rfl
  have hall := haround b (some n) rfl
  exact Query.texts_take_ne htrails hwraps (hone ▸ hts) (hall ▸ hus)

end

/-- What is written has the statements with their operators in it and then the order and the page of
    all rows. Outside of all parentheses, what is written of the statements is the same for all
    orders and pages that they might have. If they are SELECTs and the like that return nothing, no
    order and no part of a page starts there, so those of all rows are the only ones. -/
def PagesInside (outer : Context) (s : SetOperation) (ts : List Token) : Prop :=
  ∃ (chain tail behind : List Token) (outsides : List (List Token)),
    ts = enclosedIf outer.nested (chain ++ tail) ++ behind ∧
    (s.chained fun q => q.draft (s.operandContext outer)).Writes chain ∧
    (s.tail outer).Writes tail ∧ Bracket.Balanced chain ∧
    Token.outerWords [] chain = outsides.flatMap (Token.outerWords []) ∧
    List.Forall₂ (fun q us => ∀ orderings limit offset,
      ((Query.repaged orderings limit offset q).outside (s.operandContext outer)).Writes us)
      s.statements outsides ∧
    ((∀ q ∈ s.statements, q.isSelection = true ∧ q.conflict.isOpen = false ∧ q.returns = []) →
      Token.outerWords [] (chain ++ tail) = Token.outerWords [] tail)

/-- Orders and pages of statements in parentheses stay in them. -/
theorem pagesInside_of_writes (hwraps : s.base.dialect.wrapsOperands = true)
    (htrails : ∀ q ∈ s.statements, q.trails = false) {ts : List Token}
    (h : (s.draft outer).Writes ts) : s.PagesInside outer ts := by
  have hfits : ∀ o ∈ s.operands, s.Fits o := by
    obtain ⟨p, p', hfinish⟩ := h
    exact fits_of_complete (complete_of_finish hfinish)
  rw [draft_eq_tail hfits] at h
  obtain ⟨enclosed, behind, henclosed, -, rfl⟩ := h.of_append
  obtain ⟨body, hbody, rfl⟩ := henclosed.of_parensIf
  obtain ⟨chain, tail, hchain, htail, rfl⟩ := hbody.of_append
  have hnested : (s.operandContext outer).nested = true := hwraps
  -- the operands are enclosed, so their words are not seen from outside
  obtain ⟨hbalanced, outsides, houtsides, hwords⟩ := outerWords_chained hnested hchain
  refine ⟨chain, tail, behind, outsides, rfl, hchain, htail, hbalanced, hwords, ?_,
    fun hsilent => ?_⟩
  · refine ((List.forall₂_and_left _ _).mpr ⟨htrails, houtsides⟩).imp ?_
    rintro q us ⟨hq, hus⟩ orderings limit offset
    rw [Query.outside_repaged hq]
    exact hus
  · have hnone : List.Forall₂ (fun us q => Token.outerWords [] us = [] ∧
        (q.outside (s.operandContext outer)).Writes us) outsides s.statements := by
      refine (((List.forall₂_and_left _ _).mpr ⟨hsilent, houtsides⟩).imp ?_).flip
      rintro q us ⟨⟨hselection, hclosed, hreturns⟩, hus⟩
      exact ⟨Query.outerWords_outside hselection hclosed hreturns hus, hus⟩
    have hempty : Token.outerWords [] chain = [] := by
      rw [hwords]
      exact List.flatMap_eq_nil_iff.mpr ((List.forall₂_and_left _ _).mp hnone).1
    rw [Token.outerWords_append hbalanced, hempty, List.nil_append]

/-- Without parentheses, the page of the last statement stands where that of all rows does. -/
theorem draft_take_mysql (hbase : s.base.dialect = .mysql) (hchain : s.IsChain)
    (hfits : ∀ o ∈ s.operands, s.Fits o) (hplain : outer.binding = false)
    (hdeclares : outer.declares = false) {before : List Operand} {op : SetOperator} {b : Query}
    (hoperands : s.operands = before ++ [⟨op, b⟩]) (hselect : b.IsSelect)
    (hdialect : b.dialect = .mysql) (hlimit : b.limit = none) (hoffset : b.offset = none)
    (hlock : b.lock = none) (n : Int64) :
    SetOperation.draft outer { s with operands := before ++ [⟨op, b.take n⟩] } =
      (s.take n).draft outer := by
  -- a page behind a bare last operand is written where the page of the whole would be
  have hself : s.take n = { s with operands := before ++ [⟨op, b⟩], limit := some n } := by
    rw [← hoperands]
    rfl
  have hone : ({ s with operands := before ++ [⟨op, b.take n⟩] } : SetOperation) =
      { s with operands := before ++ [⟨op, b.take n⟩], limit := none } := by
    rw [← hchain.unlimited]
  obtain ⟨front, between, close, hbetween, haround⟩ := draft_around hoperands hfits outer
  have hunnested : (s.operandContext outer).nested = false := congrArg Dialect.wrapsOperands hbase
  obtain ⟨leading, hleading⟩ :=
    Query.draft_limited_bare hselect hdialect hoffset hlock hunnested hdeclares hplain
  have hwith : (b.take n).draft (s.operandContext outer) =
      leading ++ tokens (Dialect.mysql.pageTokens (some n) none false) := hleading (some n)
  have hwithout : b.draft (s.operandContext outer) = leading := by
    rw [← b.limited_self, hlimit, hleading]
    exact append_empty _
  rw [hone, hself, haround (b.take n) none rfl, haround b (some n) rfl, hwith, hwithout,
    hbetween rfl hchain.unordered, hbase, hchain.whole, hchain.unordered, append_assoc]
  rfl

/-- Outside of MySQL, the page of an operand stays in the operand, unless that is an UPDATE with an
    order and a limit at its end: a limit of an operand is told apart from the same limit of all
    rows, and what is written outside of the parentheses of all statements, up to the order and the
    page of all rows, has nothing to do with their orders and pages. In MySQL, where statements are
    not in parentheses, the limit of the last one and the limit of all rows are written alike. -/
theorem page_inside_operand (outer : Context) (s : SetOperation) :
    (s.base.dialect ≠ .mysql →
      (∀ (before after : List Operand) (op : SetOperator) (b : Query) (n : Int64),
        s.limit = none → s.operands = before ++ ⟨op, b⟩ :: after → b.trails = false →
          ToldApart (s.draft outer)
            (SetOperation.draft outer { s with operands := before ++ ⟨op, b.take n⟩ :: after })
            ((s.take n).draft outer)) ∧
      ∀ ts : List Token, (∀ q ∈ s.statements, q.trails = false) → (s.draft outer).Writes ts →
        s.PagesInside outer ts) ∧
    (s.base.dialect = .mysql → s.IsChain → (∀ o ∈ s.operands, s.Fits o) → outer.binding = false →
      outer.declares = false →
        ∀ (before : List Operand) (op : SetOperator) (b : Query) (n : Int64),
          s.operands = before ++ [⟨op, b⟩] → b.IsSelect → b.dialect = .mysql → b.limit = none →
            b.offset = none → b.lock = none →
              SetOperation.draft outer { s with operands := before ++ [⟨op, b.take n⟩] } =
                (s.take n).draft outer) := by
  refine ⟨fun hdialect => ?_, ?_⟩
  · have hwraps : s.base.dialect.wrapsOperands = true := by
      cases hbase : s.base.dialect with
      | mysql => exact absurd hbase hdialect
      | _ => rfl
    exact ⟨fun _ _ _ _ n hlimit hoperands htrails =>
        toldApart_take hwraps hoperands htrails hlimit n,
      fun _ htrails hts => pagesInside_of_writes hwraps htrails hts⟩
  · intro hbase hchain hfits hplain hdeclares before op b n hoperands hselect hdialect hlimit
      hoffset hlock
    exact draft_take_mysql hbase hchain hfits hplain hdeclares hoperands hselect hdialect hlimit
      hoffset hlock n

/-- A union of two selections. The page of the second one is in its parentheses, and the text is not
    that of the union with this limit. In MySQL it is. -/
theorem page_inside_operand_union :
    let select (d : Dialect) (name : String) : Query :=
      { Query.start 1 d with
        sources := [.table (.named 2 name)]
        selects := [⟨.field "id" none, none⟩] }
    let union (d : Dialect) : SetOperation := (select d "a").combine 3 .union (select d "b")
    let limited (d : Dialect) : SetOperation :=
      (select d "a").combine 3 .union ((select d "b").take 1)
    let written (name : String) : List Token :=
      [.keyword .select, .space, .ident "id", .space, .keyword .from_, .space, .ident name]
    let ts := enclosedIf true (written "a") ++ SetOperator.union.tokens ++
      enclosedIf true (written "b" ++ [.space, .keyword .limit, .space, .int 1])
    let outer := Context.ofDialect .postgres
    ToldApart ((union .postgres).draft outer) ((limited .postgres).draft outer)
        (((union .postgres).take 1).draft outer) ∧
      ((limited .postgres).draft outer).Writes ts ∧
      (limited .postgres).PagesInside outer ts ∧ Token.outerWords [] ts = [] ∧
      (limited .mysql).draft (Context.ofDialect .mysql) =
        ((union .mysql).take 1).draft (Context.ofDialect .mysql) := by
  intro select union limited written ts outer
  have hdialect : (union .postgres).base.dialect ≠ .mysql := nofun
  obtain ⟨htaken, -⟩ := (page_inside_operand outer (union .postgres)).1 hdialect
  obtain ⟨-, hinside⟩ := (page_inside_operand outer (limited .postgres)).1 hdialect
  have hmysql := (page_inside_operand (Context.ofDialect .mysql) (union .mysql)).2
  have hwrites : ((limited .postgres).draft outer).Writes ts := by
    have hstop : ((limited .postgres).draft outer).stop = none :=
      Option.isNone_iff_eq_none.mp (by decide +kernel)
    have hnumber : Piece.number none 0 ((limited .postgres).draft outer).pieces = ts := by
      decide +kernel
    rw [← hnumber]
    exact .of_complete hstop
  have hselect : (select .mysql "b").IsSelect := by decide
  refine ⟨htaken [] [] .union (select .postgres "b") 1 rfl rfl rfl, hwrites,
    hinside ts (by decide) hwrites, by decide, ?_⟩
  exact hmysql rfl ⟨rfl, rfl, rfl⟩ (by decide) rfl rfl [] .union (select .mysql "b") 1 rfl hselect
    rfl rfl rfl rfl

/-- MySQL has no parentheses around statements, and no dialect has any around an UPDATE that ends
    with its limit: with the one limit and with the other the same text is written. -/
theorem page_outside_operand :
    let select (name : String) : Query :=
      { Query.start 1 .mysql with
        sources := [.table (.named 2 name)]
        selects := [⟨.field "id" none, none⟩] }
    let deletion : Query :=
      { Query.start 1 .postgres with sources := [.table (.named 2 "a")], deletes := true }
    let change : Query :=
      { Query.start 4 .postgres with
        updateTable := some (.named 5 "b")
        assignments := [⟨.field "x", .value (.int 1)⟩] }
    ((select "a").combine 3 .union ((select "b").take 1)).sql =
        .ok "SELECT `id` FROM `a` UNION SELECT `id` FROM `b` LIMIT 1" ∧
      (((select "a").combine 3 .union (select "b")).take 1).sql =
        .ok "SELECT `id` FROM `a` UNION SELECT `id` FROM `b` LIMIT 1" ∧
      (deletion.combine 3 .union (change.take 1)).sql =
        .ok "(DELETE FROM \"a\") UNION UPDATE \"b\" SET \"x\"=1 LIMIT 1" ∧
      ((deletion.combine 3 .union change).take 1).sql =
        .ok "(DELETE FROM \"a\") UNION UPDATE \"b\" SET \"x\"=1 LIMIT 1" :=
  ⟨by decide +kernel, by decide +kernel, by decide +kernel, by decide +kernel⟩

end SetOperation

end SqlCompose
