import SqlCompose.Draft

/-! # Numbering — the placeholders of a draft and its bind values

    A finished draft is a text with gaps. The texts between the gaps belong to the draft alone; what
    is put into the gaps depends on where the numbering starts and on how placeholders look.

    * `weave`, `weave_append` — texts and what stands between each two of them.
    * `Piece.texts`, `Piece.dialects` — the texts around the holes, and the dialect of each hole.
    * `Piece.number_eq_weave` — numbering the holes is filling the gaps, one placeholder for each
      value.
    * `Draft.finish_append`, `Draft.finish_hole` — numbering at the end is the same as capturing
      each value when its hole is written.
    * `Draft.complete_append_iff` and its like — which drafts do not stop.
    * `Draft.finish_mapContext` — what a draft is finished to does not depend on what its operands
      are shown in. -/

namespace SqlCompose

/-! ## Tokens between parentheses -/

/-- Tokens, between parentheses if the condition holds. -/
def enclosedIf (condition : Bool) (ts : List Token) : List Token :=
  if condition then .lparen :: (ts ++ [.rparen]) else ts

/-- Tokens are written one after the other. -/
theorem Token.texts_append (ctx : Context) (ts us : List Token) :
    texts ctx (ts ++ us) = texts ctx ts ++ texts ctx us := by
  simp only [texts, List.map_append, String.join_append]

/-- The text of tokens between parentheses. -/
theorem Token.texts_enclosedIf (ctx : Context) (condition : Bool) (ts : List Token) :
    texts ctx (enclosedIf condition ts) =
      if condition then "(" ++ texts ctx ts ++ ")" else texts ctx ts := by
  cases condition with
  | false => rfl
  | true =>
    show texts ctx ([.lparen] ++ ts ++ [.rparen]) = "(" ++ texts ctx ts ++ ")"
    rw [texts_append, texts_append]
    rfl

/-! ## Texts with gaps -/

/-- Texts and, between each two of them, what fills the gap. -/
def weave : List (List Token) → List (List Token) → List Token
  | [], _ => []
  | text :: _, [] => text
  | text :: texts, filling :: fillings => text ++ (filling ++ weave texts fillings)

/-- A token in front of the first text is a token in front of the whole. -/
theorem weave_modifyHead (t : Token) {texts : List (List Token)} (h : texts ≠ [])
    (fillings : List (List Token)) :
    weave (texts.modifyHead (t :: ·)) fillings = t :: weave texts fillings := by
  cases texts with
  | nil => exact absurd rfl h
  | cons text texts =>
    cases fillings with
    | nil => rfl
    | cons filling fillings => rfl

/-- A gap in front of everything is filled by the first filling. -/
theorem weave_gap (texts : List (List Token)) (filling : List Token)
    (fillings : List (List Token)) :
    weave ([] :: texts) (filling :: fillings) = filling ++ weave texts fillings := rfl

/-- Two texts with gaps, one behind the other, are one text with the gaps of both. -/
theorem weave_append {texts texts' : List (List Token)} {fillings fillings' : List (List Token)}
    (h : texts.length = fillings.length + 1) (h' : texts'.length = fillings'.length + 1) :
    ∃ joined : List (List Token), joined.length = (fillings ++ fillings').length + 1 ∧
      weave texts fillings ++ weave texts' fillings' = weave joined (fillings ++ fillings') ∧
      joined.flatten = texts.flatten ++ texts'.flatten := by
  induction fillings generalizing texts with
  | nil =>
    -- the last text of the first part and the first text of the second one are one text
    obtain ⟨text, rfl⟩ := List.length_eq_one_iff.mp h
    cases texts' with
    | nil => exact nomatch h'
    | cons text' rest =>
      refine ⟨(text ++ text') :: rest, h', ?_, ?_⟩
      · cases fillings' with
        | nil => rfl
        | cons filling fillings' => exact (List.append_assoc text text' _).symm
      · simp only [List.flatten_cons, List.flatten_nil, List.append_nil, List.append_assoc]
  | cons filling fillings ih =>
    cases texts with
    | nil => exact nomatch h
    | cons text rest =>
      obtain ⟨joined, hlength, hjoined, hflatten⟩ := ih (Nat.succ.inj h)
      refine ⟨text :: joined, congrArg Nat.succ hlength, ?_, ?_⟩
      · show text ++ (filling ++ weave rest fillings) ++ weave texts' fillings' =
          text ++ (filling ++ weave joined (fillings ++ fillings'))
        rw [← hjoined, List.append_assoc, List.append_assoc]
      · rw [List.flatten_cons, List.flatten_cons, hflatten, List.append_assoc]

namespace Piece

/-- The texts around the holes. -/
def texts : List Piece → List (List Token)
  | [] => [[]]
  | token t :: rest => (texts rest).modifyHead (t :: ·)
  | hole _ _ :: rest => [] :: texts rest

/-- The dialects of the holes, from left to right. -/
def dialects : List Piece → List Dialect
  | [] => []
  | token _ :: rest => dialects rest
  | hole _ d :: rest => d :: dialects rest

/-- There is one text more than there are holes. -/
theorem texts_length (ps : List Piece) : (texts ps).length = (values ps).length + 1 := by
  induction ps with
  | nil => rfl
  | cons p rest ih =>
    cases p with
    | token t =>
      rw [texts, List.length_modifyHead, ih]
      rfl
    | hole v d =>
      show (texts rest).length + 1 = ((values rest).length + 1) + 1
      rw [ih]

/-- There is always one text more than there are holes. -/
theorem texts_ne_nil (ps : List Piece) : texts ps ≠ [] := by
  intro h
  have hlength := texts_length ps
  rw [h] at hlength
  exact nomatch hlength

/-- Every hole has a value and a dialect. -/
theorem dialects_length (ps : List Piece) : (dialects ps).length = (values ps).length := by
  induction ps with
  | nil => rfl
  | cons p rest ih =>
    cases p with
    | token t => exact ih
    | hole v d => exact congrArg Nat.succ ih

@[simp] theorem values_nil : values [] = [] := rfl

@[simp] theorem values_token (t : Token) (rest : List Piece) :
    values (token t :: rest) = values rest := rfl

@[simp] theorem values_hole (v : Value) (d : Dialect) (rest : List Piece) :
    values (hole v d :: rest) = v :: values rest := rfl

/-- Holes of two lists, one behind the other. -/
theorem values_append (ps qs : List Piece) : values (ps ++ qs) = values ps ++ values qs := by
  induction ps with
  | nil => rfl
  | cons p rest ih =>
    cases p with
    | token t => exact ih
    | hole v d => exact congrArg (v :: ·) ih

/-- Numbering goes on behind a list of pieces where it stopped in it. -/
theorem number_append (factory : Option (Nat → String)) (count : Nat) (ps qs : List Piece) :
    number factory count (ps ++ qs) =
      number factory count ps ++ number factory (count + (values ps).length) qs := by
  induction ps generalizing count with
  | nil => rfl
  | cons p rest ih =>
    cases p with
    | token t => exact congrArg (t :: ·) (ih count)
    | hole v d =>
      -- the hole itself takes one number
      have hcount : count + 1 + (values rest).length
          = count + (values (hole v d :: rest)).length := by
        rw [values_hole, List.length_cons]
        omega
      show _ :: number factory (count + 1) (rest ++ qs) = _ :: _ ++ _
      rw [ih (count + 1), hcount]
      rfl

/-- Tokens in front are not numbered. -/
theorem number_tokens (factory : Option (Nat → String)) (count : Nat) (ts : List Token)
    (ps : List Piece) :
    number factory count (ts.map .token ++ ps) = ts ++ number factory count ps := by
  induction ts with
  | nil => rfl
  | cons t rest ih => exact congrArg (t :: ·) ih

/-- Tokens have no numbers put into them. -/
theorem number_map_token (factory : Option (Nat → String)) (count : Nat) (ts : List Token) :
    number factory count (ts.map .token) = ts := by
  have hnumber := number_tokens factory count ts []
  rw [List.append_nil, number, List.append_nil] at hnumber
  exact hnumber

theorem values_map_token (ts : List Token) : values (ts.map .token) = [] := by
  induction ts with
  | nil => rfl
  | cons t rest ih => exact ih

/-- The placeholders for holes of these dialects, numbered on from `count`. -/
def placeholders (factory : Option (Nat → String)) (count : Nat) (ds : List Dialect) :
    List (List Token) :=
  ds.mapIdx fun i d => [.raw ((Parameters.placeholderFor factory (count + i + 1)).text d)]

/-- A placeholder is numbered behind those in front of it. -/
theorem placeholders_cons (factory : Option (Nat → String)) (count : Nat) (d : Dialect)
    (ds : List Dialect) :
    placeholders factory count (d :: ds) =
      [.raw ((Parameters.placeholderFor factory (count + 1)).text d)] ::
        placeholders factory (count + 1) ds := by
  have hshift : ∀ i, count + (i + 1) + 1 = count + 1 + i + 1 := by
    intro i
    omega
  simp only [placeholders]
  rw [List.mapIdx_cons]
  simp only [hshift, Nat.add_zero]

/-- Where the text of placeholders is given, the dialects of the holes do not matter. -/
theorem placeholders_given (make : Nat → String) (count : Nat) (ds : List Dialect) :
    placeholders (some make) count ds =
      (List.range ds.length).map fun i => [.raw (make (count + i + 1))] := by
  simp only [placeholders]
  apply List.ext_getElem
  · rw [List.length_mapIdx, List.length_map, List.length_range]
  · intro i _ _
    rw [List.getElem_mapIdx, List.getElem_map, List.getElem_range]
    rfl

/-- Numbering the holes is filling the gaps between the texts with placeholders. -/
theorem number_eq_weave (factory : Option (Nat → String)) (count : Nat) (ps : List Piece) :
    number factory count ps = weave (texts ps) (placeholders factory count (dialects ps)) := by
  induction ps generalizing count with
  | nil => rfl
  | cons p rest ih =>
    cases p with
    | token t =>
      rw [texts, dialects, weave_modifyHead t (texts_ne_nil rest), ← ih count]
      rfl
    | hole v d =>
      rw [texts, dialects, placeholders_cons, weave_gap, ← ih (count + 1)]
      rfl

end Piece

/-! ## Finishing -/

namespace Draft

/-- Two drafts are written to their ends if one after the other is. -/
theorem stop_append {a b : Draft} (h : (a ++ b).stop = none) : a.stop = none ∧ b.stop = none := by
  obtain ⟨as, _ | stop⟩ := a
  · exact ⟨rfl, h⟩
  · exact nomatch h

/-- Behind a draft that is written to its end, the next one is written. -/
theorem append_of_complete {a b : Draft} (h : a.stop = none) :
    a ++ b = ⟨a.pieces ++ b.pieces, b.stop⟩ := by
  obtain ⟨as, _⟩ := a
  cases h
  rfl

/-- Tokens are put together as drafts. -/
theorem tokens_append (ts us : List Token) :
    Draft.tokens ts ++ Draft.tokens us = Draft.tokens (ts ++ us) :=
  congrArg (Draft.mk · none) List.map_append.symm

/-- Tokens between parentheses are a draft between parentheses. -/
theorem parensIf_tokens (condition : Bool) (ts : List Token) :
    parensIf condition (tokens ts) = tokens (enclosedIf condition ts) := by
  cases condition with
  | false => rfl
  | true =>
    show tokens [.lparen] ++ tokens ts ++ tokens [.rparen] = _
    rw [tokens_append, tokens_append]
    rfl

/-- Drafts of tokens, with a comma between each two. -/
theorem commas_tokens (lists : List (List Token)) :
    commas (lists.map tokens) = tokens (Token.joined .comma lists) := by
  induction lists with
  | nil => rfl
  | cons ts rest ih =>
    cases rest with
    | nil => rfl
    | cons us rest =>
      have ih : join (token .comma) ((us :: rest).map tokens) =
          tokens (Token.joined .comma (us :: rest)) := ih
      show tokens ts ++ tokens [.comma] ++ join (token .comma) ((us :: rest).map tokens) = _
      rw [ih, tokens_append, tokens_append, List.append_assoc]
      rfl

/-- A draft that did not stop is finished whatever the placeholders look like and wherever their
    numbers start. -/
theorem finish_of_complete {d : Draft} (h : d.stop = none) (p : Parameters) :
    d.finish p =
      (.ok (Piece.number p.factory p.values.length d.pieces),
        { p with values := p.values ++ Piece.values d.pieces }) := by
  obtain ⟨pieces, stop⟩ := d
  cases h
  show (_, { p with values := p.values ++ (Piece.values pieces ++ []) }) = _
  rw [List.append_nil]
  rfl

/-- Only a draft that did not stop is finished. -/
theorem complete_of_finish {d : Draft} {p p' : Parameters} {ts : List Token}
    (h : d.finish p = (.ok ts, p')) : d.stop = none := by
  have htokens : d.numbered p.factory p.values.length = .ok ts := congrArg Prod.fst h
  unfold numbered at htokens
  cases hstop : d.stop with
  | none => rfl
  | some stop =>
    rw [hstop] at htokens
    cases stop <;> exact nomatch htokens

/-- Tokens are finished as they are. -/
theorem finish_tokens (ts : List Token) (p : Parameters) : ((tokens ts).finish p).1 = .ok ts :=
  congrArg Except.ok (Piece.number_map_token p.factory p.values.length ts)

/-- Tokens bind nothing. -/
theorem finish_tokens_eq (ts : List Token) (p : Parameters) :
    (tokens ts).finish p = (.ok ts, p) := by
  refine Prod.ext (finish_tokens ts p) ?_
  show { p with values := p.values ++ (Piece.values (ts.map .token) ++ []) } = p
  rw [Piece.values_map_token, List.append_nil, List.append_nil]

/-- The text of tokens is theirs alone. -/
theorem render_tokens_eq (ts : List Token) (ctx : Context) (p : Parameters) :
    (tokens ts).render ctx p = (.ok (Token.texts ctx ts), p) := by
  simp only [render, finish_tokens_eq]
  rfl

/-- Writing one draft after another is writing the second with the parameters that the first one
    leaves. -/
theorem finish_append {a b : Draft} {p p₁ p₂ : Parameters} {ts us : List Token}
    (ha : a.finish p = (.ok ts, p₁)) (hb : b.finish p₁ = (.ok us, p₂)) :
    (a ++ b).finish p = (.ok (ts ++ us), p₂) := by
  have ha' := complete_of_finish ha
  have hb' := complete_of_finish hb
  -- both drafts are pieces only; the second is numbered on from where the first one ends
  obtain ⟨as, _⟩ := a
  obtain ⟨bs, _⟩ := b
  cases ha'
  cases hb'
  rw [finish_of_complete rfl] at ha hb
  obtain ⟨rfl, rfl⟩ := ha
  obtain ⟨rfl, rfl⟩ := hb
  have hcomplete : (⟨as, none⟩ ++ ⟨bs, none⟩ : Draft) = ⟨as ++ bs, none⟩ := rfl
  rw [hcomplete, finish_of_complete rfl, Piece.number_append, Piece.values_append,
    List.length_append, List.append_assoc]

/-- A draft between parentheses is written as the draft is, between parentheses. -/
theorem finish_parensIf {d : Draft} {p p' : Parameters} {ts : List Token}
    (h : d.finish p = (.ok ts, p')) (condition : Bool) :
    (parensIf condition d).finish p = (.ok (enclosedIf condition ts), p') := by
  cases condition with
  | false => exact h
  | true =>
    have hopened := finish_append (finish_tokens_eq [.lparen] p) h
    exact finish_append hopened (finish_tokens_eq [.rparen] p')

/-- What is written of one draft after another is what is written of each. -/
theorem finish_append_ok {a b : Draft} {p p' : Parameters} {ts : List Token}
    (h : (a ++ b).finish p = (.ok ts, p')) :
    ∃ (us vs : List Token) (p₁ : Parameters),
      a.finish p = (.ok us, p₁) ∧ b.finish p₁ = (.ok vs, p') ∧ ts = us ++ vs := by
  obtain ⟨ha, hb⟩ := stop_append (complete_of_finish h)
  have hfinish := finish_append (finish_of_complete ha p) (finish_of_complete hb _)
  rw [h] at hfinish
  obtain ⟨hts, rfl⟩ := Prod.mk.inj hfinish
  exact ⟨_, _, _, finish_of_complete ha p, finish_of_complete hb _, Except.ok.inj hts⟩

/-- What is written of a draft between parentheses is what is written of the draft, between
    parentheses. -/
theorem finish_parensIf_ok {condition : Bool} {d : Draft} {p p' : Parameters} {ts : List Token}
    (h : (parensIf condition d).finish p = (.ok ts, p')) :
    ∃ body : List Token, d.finish p = (.ok body, p') ∧ ts = enclosedIf condition body := by
  cases condition with
  | false => exact ⟨ts, h, rfl⟩
  | true =>
    have h : (tokens [.lparen] ++ d ++ tokens [.rparen]).finish p = (.ok ts, p') := h
    obtain ⟨us, vs, p₁, hopened, hclose, rfl⟩ := finish_append_ok h
    obtain ⟨us, body, p₂, hopen, hd, rfl⟩ := finish_append_ok hopened
    rw [finish_tokens_eq] at hopen hclose
    cases hopen
    cases hclose
    exact ⟨body, hd, rfl⟩

/-- A hole is filled by the placeholder that stands for its value from then on. -/
theorem finish_hole (v : Value) (d : Dialect) (p : Parameters) :
    (hole v d).finish p = (.ok [.raw ((p.capture v).1.text d)], (p.capture v).2) :=
  finish_of_complete rfl p

end Draft

/-! ## Drafts that do not stop -/

namespace Draft

/-- Two drafts that are written to their ends are so one behind the other. -/
theorem complete_append {a b : Draft} (ha : a.stop = none) (hb : b.stop = none) :
    (a ++ b).stop = none := by
  rw [append_of_complete ha]
  exact hb

/-- And so are all drafts of a list, with separators that are. -/
theorem complete_join {separator : Draft} {ds : List Draft} (hseparator : separator.stop = none)
    (hds : ∀ d ∈ ds, d.stop = none) : (join separator ds).stop = none := by
  induction ds with
  | nil => rfl
  | cons first rest ih =>
    have hfirst := hds first List.mem_cons_self
    cases rest with
    | nil => exact hfirst
    | cons second rest =>
      have hrest := ih fun d hd => hds d (List.mem_cons_of_mem _ hd)
      exact complete_append (complete_append hfirst hseparator) hrest

theorem complete_commas {ds : List Draft} (hds : ∀ d ∈ ds, d.stop = none) :
    (commas ds).stop = none := complete_join rfl hds

theorem complete_clause (ks : List Keyword) {body : Draft} (h : body.stop = none) :
    (clause ks body).stop = none := complete_append rfl h

theorem complete_parens {d : Draft} (h : d.stop = none) : (parens d).stop = none :=
  complete_append (complete_append rfl h) rfl

theorem complete_when (condition : Bool) {d : Draft} (h : d.stop = none) :
    (when condition d).stop = none := by
  cases condition with
  | false => rfl
  | true => exact h

/-- A composition is written to its end exactly if both parts are. -/
theorem complete_append_iff {a b : Draft} :
    (a ++ b).stop = none ↔ a.stop = none ∧ b.stop = none :=
  ⟨stop_append, fun h => complete_append h.1 h.2⟩

/-- Parentheses do not stop the writing. -/
theorem complete_parensIf_iff (condition : Bool) {d : Draft} :
    (parensIf condition d).stop = none ↔ d.stop = none := by
  cases condition with
  | false => exact Iff.rfl
  | true => exact ⟨fun h => (stop_append (stop_append h).1).2, complete_parens⟩

end Draft

/-- An alias never stops. -/
theorem Context.complete_aliasDraft (ctx : Context) (aliasName : Option String) :
    (ctx.aliasDraft aliasName).stop = none := by
  cases aliasName with
  | none => rfl
  | some aliasName =>
    simp only [Context.aliasDraft]
    split
    · rfl
    · exact Draft.complete_append (Draft.complete_append rfl (Draft.complete_when _ rfl)) rfl

/-! ## Operands that are shown

A draft may stop with two operands that are shown as they look in a context. Most of that context
makes no difference to how they look. -/

/-- The reason with the context changed in which operands are shown. -/
def Stop.mapContext (f : Context → Context) : Stop → Stop
  | error e => error e
  | unequalOperands ctx main other => unequalOperands (f ctx) main other

namespace Draft

/-- The draft with the context changed in which operands are shown. -/
def mapContext (f : Context → Context) (d : Draft) : Draft :=
  ⟨d.pieces, d.stop.map (Stop.mapContext f)⟩

variable {f : Context → Context}

/-- The contexts of stops are changed part by part. -/
theorem mapContext_append (a b : Draft) :
    (a ++ b).mapContext f = a.mapContext f ++ b.mapContext f := by
  obtain ⟨as, _ | stop⟩ := a <;> rfl

/-- Operands that do not fit together are shown alike, if the contexts and the operands are
    alike. -/
theorem mapContext_unequal {c c' : Context} (hc : f c = f c') {a a' b b' : Draft}
    (ha : a.mapContext f = a'.mapContext f) (hb : b.mapContext f = b'.mapContext f) :
    (unequal c a b).mapContext f = (unequal c' a' b').mapContext f := by
  have hunequal : ∀ (c : Context) (a b : Draft),
      (unequal c a b).mapContext f = unequal (f c) (a.mapContext f) (b.mapContext f) := by
    intro c a b
    obtain ⟨as, _ | stop⟩ := a
    · obtain ⟨bs, _ | stop⟩ := b <;> rfl
    · exact mapContext_append _ b
  rw [hunequal, hunequal, hc, ha, hb]

/-- What a draft is finished to, and what it binds, does not depend on what makes no difference to
    how tokens look. -/
theorem finish_mapContext (hf : ∀ ctx, Token.text (f ctx) = Token.text ctx) (d : Draft)
    (p : Parameters) : (d.mapContext f).finish p = d.finish p := by
  have htexts (ctx : Context) (ts : List Token) : Token.texts (f ctx) ts = Token.texts ctx ts := by
    simp only [Token.texts, hf]
  obtain ⟨pieces, _ | e | ⟨ctx, main, other⟩⟩ := d
  · rfl
  · rfl
  · simp only [finish, numbered, bound, mapContext, Option.map_some, Stop.mapContext, htexts]

end Draft

/-- The literal of a constant is a token if there is one. -/
theorem Value.literal_eq_token (v : Value) (h : v.literal.stop = none) :
    ∃ t, v.literal = Draft.token t := by
  cases v with
  | float x =>
    have hfinite : (if x.isFinite then Draft.token (.float x) else Draft.fail (.notFinite x)).stop
        = none := h
    show ∃ t, (if x.isFinite then Draft.token (.float x) else Draft.fail (.notFinite x))
      = Draft.token t
    split at hfinite
    · next hx => exact ⟨.float x, if_pos hx⟩
    · exact nomatch hfinite
  | _ => exact ⟨_, rfl⟩

end SqlCompose
