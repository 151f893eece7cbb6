import SqlCompose.Proofs.Lockstep
import SqlCompose.Proofs.Placeholders

/-! # Filling — binding constants replaces literals and does nothing else

    What is written with constants bound has a gap wherever a constant was bound. With the literals
    of the constants in the gaps it is what is written without binding them; an array of nothing but
    constants is bound as a whole, and the gap is that of the array. Two simulations show this.

    * `Value.WrittenAs`, `filling` — the same tree without binding and with it: what is bound is
      what would have been written.
    * `Exchange.Follows`, `following` — two trees that differ in constants that may be bound, both
      written with binding: nothing of these constants is left in what is written, and what is
      captured of one tree is what is captured of the other with the constants exchanged. -/

namespace SqlCompose

open Draft

/-! ## Gaps filled with literals -/

/-- The pieces of the second list are those of the first with each hole filled by tokens for its
    value. -/
inductive Piece.Filled (fills : Value → List Token → Prop) : List Piece → List Piece → Prop
  | nil : Filled fills [] []
  | token (t : Token) {ps qs : List Piece} :
      Filled fills ps qs → Filled fills (.token t :: ps) (.token t :: qs)
  | hole (v : Value) (d : Dialect) {ts : List Token} {ps qs : List Piece} :
      fills v ts → Filled fills ps qs →
        Filled fills (.hole v d :: ps) (ts.map .token ++ qs)

namespace Piece

variable {fills : Value → List Token → Prop}

/-- Two texts are filled one after the other. -/
theorem Filled.append {ps qs ps' qs' : List Piece} (h : Filled fills ps qs)
    (h' : Filled fills ps' qs') : Filled fills (ps ++ ps') (qs ++ qs') := by
  induction h with
  | nil => exact h'
  | token t _ ih => exact .token t ih
  | hole v d hv _ ih =>
    rw [List.append_assoc]
    exact .hole v d hv ih

/-- Tokens have no gaps. -/
theorem Filled.tokens (ts : List Token) : Filled fills (ts.map .token) (ts.map .token) := by
  induction ts with
  | nil => exact .nil
  | cons t rest ih => exact .token t ih

/-- Where all holes are filled there are only tokens left. -/
theorem Filled.eq_tokens {ps qs : List Piece} (h : Filled fills ps qs) :
    ∃ ts : List Token, qs = ts.map .token := by
  induction h with
  | nil => exact ⟨[], rfl⟩
  | token t _ ih =>
    obtain ⟨ts, rfl⟩ := ih
    exact ⟨t :: ts, rfl⟩
  | hole _ _ _ _ ih =>
    obtain ⟨ts, rfl⟩ := ih
    exact ⟨_ ++ ts, List.map_append.symm⟩

/-- Gaps may be said to be filled more weakly. -/
theorem Filled.imp {fills' : Value → List Token → Prop}
    (hfills : ∀ {v ts}, fills v ts → fills' v ts)
    {ps qs : List Piece} (h : Filled fills ps qs) : Filled fills' ps qs := by
  induction h with
  | nil => exact .nil
  | token t _ ih => exact .token t ih
  | hole v d hv _ ih => exact .hole v d (hfills hv) ih

/-- Where each hole is filled by tokens for its value, the texts between the holes and these tokens
    are what is written. -/
theorem Filled.weave {ps qs : List Piece} (h : Filled fills ps qs) :
    ∃ fillings : List (List Token),
      List.Forall₂ fills (values ps) fillings ∧
      ∀ factory count, number factory count qs = SqlCompose.weave (texts ps) fillings := by
  induction h with
  | nil => exact ⟨[], .nil, fun _ _ => rfl⟩
  | @token t ps qs _ ih =>
    obtain ⟨fillings, hfillings, hnumber⟩ := ih
    refine ⟨fillings, hfillings, ?_⟩
    intro factory count
    rw [texts, weave_modifyHead t (texts_ne_nil ps), ← hnumber factory count]
    rfl
  | @hole v d ts ps qs hv _ ih =>
    obtain ⟨fillings, hfillings, hnumber⟩ := ih
    refine ⟨ts :: fillings, .cons hv hfillings, ?_⟩
    intro factory count
    rw [number_tokens, texts, weave_gap, ← hnumber factory count]

end Piece

namespace Draft

/-- The bound draft is written to its end if the plain one is, and with its gaps filled it is the
    plain one. -/
def Fills (fills : Value → List Token → Prop) (plain bound : Draft) : Prop :=
  plain.stop = none → bound.stop = none ∧ Piece.Filled fills bound.pieces plain.pieces

variable {fills : Value → List Token → Prop}

theorem Fills.tokens (ts : List Token) : Fills fills (Draft.tokens ts) (Draft.tokens ts) :=
  fun _ => ⟨rfl, .tokens ts⟩

/-- Two drafts are filled one behind the other, and stop together. -/
theorem Fills.append {a a' b b' : Draft} (ha : Fills fills a a') (hb : Fills fills b b') :
    Fills fills (a ++ b) (a' ++ b') := by
  intro h
  obtain ⟨hsa, hsb⟩ := stop_append h
  obtain ⟨hsa', hfa⟩ := ha hsa
  obtain ⟨hsb', hfb⟩ := hb hsb
  rw [append_of_complete hsa, append_of_complete hsa']
  exact ⟨hsb', hfa.append hfb⟩

/-- Composition keeps what is filled. -/
theorem Fills.congruence : Congruence (Fills fills) where
  empty := .tokens []
  token := fun t _ => .tokens [t]
  fail := fun _ h => nomatch h
  append := .append
  parens := fun hd => ((Fills.tokens [.lparen]).append hd).append (.tokens [.rparen])
  brackets := fun hd => ((Fills.tokens [.lbracket]).append hd).append (.tokens [.rbracket])

/-- Gaps of drafts may be said to be filled more weakly. -/
theorem Fills.imp {fills' : Value → List Token → Prop}
    (hfills : ∀ {v ts}, fills v ts → fills' v ts) {plain bound : Draft}
    (h : Fills fills plain bound) : Fills fills' plain bound :=
  fun hstop => (h hstop).imp_right (.imp hfills)

/-- Tokens that stand in one gap. -/
theorem Fills.hole {plain : Draft} {v : Value} (d : Dialect)
    (h : plain.stop = none → ∃ ts, plain = Draft.tokens ts ∧ fills v ts) :
    Fills fills plain (hole v d) := by
  intro hstop
  obtain ⟨ts, rfl, hts⟩ := h hstop
  refine ⟨rfl, ?_⟩
  have hhole := Piece.Filled.hole v d hts .nil
  rw [List.append_nil] at hhole
  exact hhole

/-- A draft whose gaps could be filled is nothing but tokens if it is written to its end. -/
theorem Fills.eq_tokens {plain bound : Draft} (h : Fills fills plain bound)
    (hstop : plain.stop = none) : ∃ ts : List Token, plain = Draft.tokens ts := by
  obtain ⟨ts, hts⟩ := (h hstop).2.eq_tokens
  obtain ⟨pieces, stop⟩ := plain
  obtain rfl : stop = none := hstop
  exact ⟨ts, congrArg (Draft.mk · none) hts⟩

end Draft

/-- What is written of a bound value where nothing is bound: the literal of a constant, or an array
    of nothing but constants, which has to be one of the parts that trees may have. -/
inductive Value.WrittenAs (part : Part → Prop) : Value → List Token → Prop
  | constant {v : Value} {ts : List Token} :
      v.isBindable = true → v.literal = Draft.tokens ts → WrittenAs part v ts
  | array {c : Context} {items : List Term} {vs : List Value} {aliasName : Option String}
      {ts : List Token} :
      part (.expr (.array items)) → constants? items = some vs → c.binding = false →
        (Expr.array items).draft c aliasName = Draft.tokens ts → WrittenAs part (.list vs) ts

/-- A constant that may be bound leaves a gap for its literal. -/
theorem Value.fills {part : Part → Prop} (ctx : Context) (hb : ctx.binding = false) (v : Value)
    (mayBind : Bool) :
    Fills (Value.WrittenAs part) (v.draft ctx mayBind)
      (v.draft { ctx with binding := true } mayBind) := by
  -- without binding every constant is its literal
  have hplain : v.draft ctx mayBind = v.literal := by
    simp only [Value.draft]
    rw [hb]
    rfl
  have htokens (hstop : v.literal.stop = none) : ∃ ts, v.literal = Draft.tokens ts := by
    obtain ⟨t, ht⟩ := v.literal_eq_token hstop
    exact ⟨[t], ht⟩
  rw [hplain]
  simp only [Value.draft]
  split
  · next hbound =>
    have hbindable : v.isBindable = true := ((Bool.and_eq_true _ _).mp hbound).2
    refine Fills.hole ctx.dialect fun hstop => ?_
    obtain ⟨ts, hts⟩ := htokens hstop
    exact ⟨ts, hts, .constant hbindable hts⟩
  · intro hstop
    obtain ⟨ts, hts⟩ := htokens hstop
    rw [hts]
    exact Fills.tokens ts rfl

/-- The same tree, written without binding constants and with it. -/
def filling (part : Part → Prop) : Simulation where
  exchange := .id
  part := part
  alike := fun c c' => c.binding = false ∧ c' = { c with binding := true }
  rel := Fills (Value.WrittenAs part)
  congruence := Fills.congruence
  flags := by
    rintro c c' ⟨-, rfl⟩
    constructor <;> rfl
  nested := by
    rintro c c' ⟨hb, rfl⟩ b
    exact ⟨hb, rfl⟩
  declares := by
    rintro c c' ⟨hb, rfl⟩ b
    exact ⟨hb, rfl⟩
  qualified := by
    rintro c c' ⟨hb, rfl⟩ b
    exact ⟨hb, rfl⟩
  bracketed := by
    rintro c c' ⟨hb, rfl⟩ b
    exact ⟨hb, rfl⟩
  grouping := by
    rintro c c' ⟨hb, rfl⟩ b
    exact ⟨hb, rfl⟩
  inDialect := by
    rintro c c' ⟨hb, rfl⟩ d
    exact ⟨hb, rfl⟩
  enter := by
    rintro c c' ⟨hb, rfl⟩ scope
    exact ⟨hb, rfl⟩
  names := by
    rintro c c' ⟨-, rfl⟩ p - slot -
    rfl
  value := by
    rintro c c' ⟨hb, rfl⟩ v mayBind -
    rw [Exchange.constant_id]
    exact v.fills c hb mayBind
  count := by
    rintro c c' ⟨hb, rfl⟩ n
    exact (Value.int n).fills c hb true
  array := by
    rintro c c' ⟨hb, rfl⟩ items hpart aliasName hitems
    rw [exchangeTerms_id] at hitems ⊢
    -- as it is without binding, the array is nothing but tokens
    have hwritten : Fills (Value.WrittenAs part) ((Expr.array items).draft c aliasName)
        (c.dialect.array (termDrafts { c with binding := true } items) ++ c.aliasDraft aliasName) := by
      simp only [Expr.draft]
      rw [hb]
      exact Fills.congruence.append (Fills.congruence.array c.dialect hitems)
        (Fills.congruence.aliasDraft rfl aliasName)
    show Fills _ _ (match constants? items with
      | some vs => Draft.hole (.list vs) c.dialect
      | none => _)
    cases hconstants : constants? items with
    | none => exact hwritten
    | some vs =>
      refine Fills.hole c.dialect fun hstop => ?_
      obtain ⟨ts, hts⟩ := hwritten.eq_tokens hstop
      exact ⟨ts, hts, .array hpart hconstants hb hts⟩
  document := by
    rintro c c' ⟨-, rfl⟩ d -
    rfl
  unequal := by
    rintro c c' - a a' b b' - - hstop
    exact absurd hstop (unequal_stop c a b)

/-! ## Gaps without their values -/

/-- The piece without its value. -/
def Piece.blank : Piece → Piece
  | token t => token t
  | hole _ d => hole .null d

namespace Piece

/-- Placeholders do not depend on values. -/
theorem number_blank (factory : Option (Nat → String)) (count : Nat) (ps : List Piece) :
    number factory count (ps.map blank) = number factory count ps := by
  induction ps generalizing count with
  | nil => rfl
  | cons p rest ih =>
    cases p with
    | token t => exact congrArg (t :: ·) (ih count)
    | hole v d => exact congrArg (_ :: ·) (ih (count + 1))

/-- Blank gaps are as many as there were. -/
theorem values_blank_length (ps : List Piece) :
    (values (ps.map blank)).length = (values ps).length := by
  induction ps with
  | nil => rfl
  | cons p rest ih =>
    cases p with
    | token t => exact ih
    | hole v d => exact congrArg (· + 1) ih

end Piece

namespace Stop

/-- The reason without the values of what was written out to be shown. -/
def blank : Stop → Stop
  | error e => error e
  | unequalOperands ctx main other =>
    unequalOperands ctx (main.map Piece.blank) (other.map Piece.blank)

end Stop

namespace Draft

/-- The draft without the values of its gaps. -/
def blank (d : Draft) : Draft := ⟨d.pieces.map Piece.blank, d.stop.map Stop.blank⟩

/-- Gaps of two drafts are blanked one after the other. -/
theorem blank_append (a b : Draft) : (a ++ b).blank = a.blank ++ b.blank := by
  obtain ⟨as, _ | stop⟩ := a
  · exact congrArg (Draft.mk · (b.stop.map Stop.blank)) List.map_append
  · rfl

/-- Operands that do not fit together are shown alike with blank gaps. -/
theorem blank_unequal (ctx : Context) (main other : Draft) :
    (unequal ctx main other).blank = unequal ctx main.blank other.blank := by
  obtain ⟨ms, _ | stop⟩ := main
  · obtain ⟨os, _ | stop⟩ := other
    · rfl
    · exact blank_append _ _
  · exact blank_append _ _

/-- What a draft is finished to does not depend on the values of its gaps. -/
theorem numbered_blank (factory : Option (Nat → String)) (count : Nat) (d : Draft) :
    d.blank.numbered factory count = d.numbered factory count := by
  obtain ⟨pieces, _ | e | ⟨ctx, main, other⟩⟩ := d
  · exact congrArg Except.ok (Piece.number_blank factory count pieces)
  · rfl
  · unfold Draft.numbered Draft.blank
    simp only [Option.map_some, Stop.blank, Piece.number_blank, Piece.values_blank_length]

/-- The drafts differ in the values of their gaps alone. -/
def SameBlank (d d' : Draft) : Prop := d.blank = d'.blank

/-- Composition keeps drafts that differ only in their gaps. -/
theorem SameBlank.congruence : Congruence SameBlank := .of_map blank_append

/-- Both drafts are written to their ends or neither is. -/
theorem SameBlank.stop_eq_none_iff {d d' : Draft} (h : SameBlank d d') :
    d.stop = none ↔ d'.stop = none := by
  have hstop : d.stop.map Stop.blank = d'.stop.map Stop.blank := congrArg Draft.stop h
  rw [← Option.map_eq_none_iff (f := Stop.blank), hstop, Option.map_eq_none_iff]

end Draft

/-! ## Captured values of exchanged trees -/

/-- What becomes of a captured value: a constant that may be bound is exchanged, and so are the
    number of a limit or an offset and the items of an array. Where `stays` holds, items may stay as
    they are. -/
inductive Exchange.Follows (x : Exchange) (stays : Prop) : Value → Value → Prop
  | constant {v : Value} : v.isBindable = true → Follows x stays v (x.value v)
  | count (n : Int64) : Follows x stays (.int n) (.int (x.count n))
  | array {vs vs' : List Value} :
      List.Forall₂ (fun v v' => v.isBindable = true ∧ v' = x.value v ∨ stays ∧ v' = v) vs vs' →
        Follows x stays (.list vs) (.list vs')

/-- Whether the term is a constant that may be bound. -/
def Term.binds (t : Term) : Bool :=
  match t.expr with
  | .value v mayBind => mayBind && v.isBindable
  | _ => false

/-- Whether the items of the part may all be bound, if it is an array of nothing but constants. -/
def Part.bindsItems : Part → Bool
  | expr (.array items) => (constants? items).isNone || items.all Term.binds
  | _ => true

/-- The constants of a list of terms, one after the other. -/
theorem constants?_cons_eq (t : Term) (rest : List Term) :
    constants? (t :: rest) =
      t.constant?.bind fun v => (constants? rest).map fun vs => v :: vs := by
  rw [constants?, List.mapM_cons]
  cases t.constant? with
  | none => rfl
  | some v =>
    show (rest.mapM Term.constant?).bind _ = (rest.mapM Term.constant?).map _
    cases rest.mapM Term.constant? <;> rfl

/-- Exchanging the constants of a term makes no constant of another term, and a constant is
    exchanged or stays. -/
theorem Term.constant?_exchange (x : Exchange) (t : Term) :
    Option.Rel (fun v v' => v.isBindable = true ∧ v' = x.value v ∨ t.binds = false ∧ v' = v)
      t.constant? (t.exchange x).constant? := by
  obtain ⟨expr, aliasName⟩ := t
  cases expr with
  | value v mayBind =>
    refine .some ?_
    cases hbinds : mayBind && v.isBindable with
    | true =>
      have hconstant : x.constant v mayBind = x.value v := by simp [Exchange.constant, hbinds]
      exact Or.inl ⟨((Bool.and_eq_true _ _).mp hbinds).2, hconstant⟩
    | false =>
      have hconstant : x.constant v mayBind = v := by simp [Exchange.constant, hbinds]
      exact Or.inr ⟨hbinds, hconstant⟩
  | _ => exact .none

/-- The constants of exchanged terms, if all of them are constants: each is exchanged or stays. -/
theorem constants?_exchange (x : Exchange) (items : List Term) :
    Option.Rel
      (List.Forall₂ fun v v' =>
        v.isBindable = true ∧ v' = x.value v ∨ items.all Term.binds = false ∧ v' = v)
      (constants? items) (constants? (exchangeTerms x items)) := by
  induction items with
  | nil => exact .some .nil
  | cons t rest ih =>
    have hfirst := t.constant?_exchange x
    show Option.Rel _ _ (constants? (t.exchange x :: exchangeTerms x rest))
    rw [constants?_cons_eq, constants?_cons_eq, List.all_cons]
    generalize t.constant? = v at hfirst ⊢
    generalize (t.exchange x).constant? = v' at hfirst ⊢
    generalize constants? rest = vs at ih ⊢
    generalize constants? (exchangeTerms x rest) = vs' at ih ⊢
    -- the constants are there on both sides or on neither
    cases hfirst with
    | none => exact .none
    | some hv =>
      cases ih with
      | none => exact .none
      | some hvs =>
        refine .some (.cons (hv.imp_right ?_) (hvs.imp ?_))
        · rintro ⟨hbinds, hsame⟩
          exact ⟨by rw [hbinds, Bool.false_and], hsame⟩
        · rintro w w' (hexchanged | ⟨hbinds, hsame⟩)
          · exact Or.inl hexchanged
          · exact Or.inr ⟨by rw [hbinds, Bool.and_false], hsame⟩

namespace Draft

/-- What one draft after another has bound, if the first one is written to its end. -/
theorem bound_append {a : Draft} (h : a.stop = none) (b : Draft) :
    (a ++ b).bound = a.bound ++ b.bound := by
  have ha : a.bound = Piece.values a.pieces := by
    rw [bound, h]
    exact List.append_nil _
  rw [bound_append_of_complete h, ha]

/-- Operands that are shown have bound what they would have one after the other. -/
theorem bound_unequal (c : Context) (main other : Draft) :
    (unequal c main other).bound = (main ++ other).bound := by
  obtain ⟨ms, _ | stop⟩ := main
  · obtain ⟨os, _ | stop⟩ := other
    · show Piece.values ms ++ Piece.values os = Piece.values (ms ++ os) ++ []
      rw [Piece.values_append, List.append_nil]
    · rfl
  · rfl

/-- The drafts differ in the values of their gaps alone, and what the first one has bound becomes
    what the second one has. -/
structure Following (follows : Value → Value → Prop) (d d' : Draft) : Prop where
  sameBlank : SameBlank d d'
  bound     : List.Forall₂ follows d.bound d'.bound

namespace Following

variable {follows : Value → Value → Prop} {a a' b b' d d' : Draft}

/-- A draft that has bound nothing. -/
theorem quiet (h : d.bound = []) : Following follows d d := by
  refine ⟨rfl, ?_⟩
  rw [h]
  exact .nil

/-- Two drafts follow one behind the other. -/
theorem append (ha : Following follows a a') (hb : Following follows b b') :
    Following follows (a ++ b) (a' ++ b') := by
  refine ⟨SameBlank.congruence.append ha.sameBlank hb.sameBlank, ?_⟩
  cases hstop : a.stop with
  | none =>
    have hstop' : a'.stop = none := ha.sameBlank.stop_eq_none_iff.mp hstop
    rw [bound_append hstop, bound_append hstop']
    exact List.rel_append ha.bound hb.bound
  | some stop =>
    -- both stop before the second draft
    obtain ⟨stop', hstop'⟩ : ∃ stop', a'.stop = some stop' := by
      refine Option.ne_none_iff_exists'.mp fun hnone => ?_
      rw [ha.sameBlank.stop_eq_none_iff.mpr hnone] at hstop
      exact nomatch hstop
    rw [append_of_stop hstop, append_of_stop hstop']
    exact ha.bound

/-- Composition keeps what follows. -/
theorem congruence : Congruence (Following follows) where
  empty := quiet rfl
  token := fun _ _ => quiet rfl
  fail := fun _ => quiet rfl
  append := append
  parens := fun hd => ((quiet rfl).append hd).append (quiet rfl)
  brackets := fun hd => ((quiet rfl).append hd).append (quiet rfl)

/-- Operands that do not fit together. -/
theorem unequal (c : Context) (ha : Following follows a a') (hb : Following follows b b') :
    Following follows (unequal c a b) (unequal c a' b') := by
  have hblank : SameBlank (Draft.unequal c a b) (Draft.unequal c a' b') := by
    have ha : a.blank = a'.blank := ha.sameBlank
    have hb : b.blank = b'.blank := hb.sameBlank
    show (Draft.unequal c a b).blank = (Draft.unequal c a' b').blank
    rw [blank_unequal, blank_unequal, ha, hb]
  refine ⟨hblank, ?_⟩
  have hboth := (ha.append hb).bound
  rwa [bound_unequal, bound_unequal]

end Following

end Draft

/-- A constant that is bound leaves nothing but its gap, and the constant put in follows. -/
theorem Value.following {x : Exchange} (hx : x.KeepsBindable) {stays : Prop} {ctx : Context}
    (hb : ctx.binding = true) (v : Value) (mayBind : Bool) :
    Following (x.Follows stays) (v.draft ctx mayBind)
      ((x.constant v mayBind).draft ctx mayBind) := by
  simp only [Value.draft, Exchange.constant]
  rw [hb, Bool.true_and]
  split
  · next hbound =>
    obtain ⟨hmay, hv⟩ : mayBind = true ∧ v.isBindable = true := by simpa using hbound
    rw [hmay, hx v hv]
    exact ⟨rfl, .cons (.constant hv) .nil⟩
  · exact .quiet (List.subset_nil.mp (@Binds.literal True v).among)

/-- Two trees that differ in constants that may be bound, both written with binding them. -/
def following (x : Exchange) (hx : x.KeepsBindable) (stays : Prop) : Simulation where
  exchange := x
  part := fun p => ¬ stays → p.bindsItems = true
  alike := fun c c' => c.binding = true ∧ c' = c
  rel := Following (x.Follows stays)
  congruence := Following.congruence
  flags := by
    rintro c c' ⟨-, rfl⟩
    constructor <;> rfl
  nested := by
    rintro c c' ⟨hb, rfl⟩ b
    exact ⟨hb, rfl⟩
  declares := by
    rintro c c' ⟨hb, rfl⟩ b
    exact ⟨hb, rfl⟩
  qualified := by
    rintro c c' ⟨hb, rfl⟩ b
    exact ⟨hb, rfl⟩
  bracketed := by
    rintro c c' ⟨hb, rfl⟩ b
    exact ⟨hb, rfl⟩
  grouping := by
    rintro c c' ⟨hb, rfl⟩ b
    exact ⟨hb, rfl⟩
  inDialect := by
    rintro c c' ⟨hb, rfl⟩ d
    exact ⟨hb, rfl⟩
  enter := by
    rintro c c' ⟨hb, rfl⟩ scope
    exact ⟨hb, rfl⟩
  names := by
    rintro c c' ⟨-, rfl⟩ p - slot -
    rfl
  value := by
    rintro c c' ⟨hb, rfl⟩ v mayBind -
    exact v.following hx hb mayBind
  count := by
    rintro c c' ⟨hb, rfl⟩ n
    simp only [Value.draft]
    rw [hb]
    exact ⟨rfl, .cons (.count n) .nil⟩
  array := by
    rintro c c' ⟨hb, rfl⟩ items hpart
    have hstays {vs : List Value} (hvs : constants? items = some vs)
        (hbinds : items.all Term.binds = false) : stays := by
      by_contra hnot
      have hall : ((constants? items).isNone || items.all Term.binds) = true := hpart hnot
      rw [hvs, hbinds] at hall
      exact nomatch hall
    refine Following.congruence.arrays (by constructor <;> rfl) ?_
    rw [hb]
    show Option.Rel _ (constants? items) (constants? (exchangeTerms x items))
    have hconstants := constants?_exchange x items
    cases hvs : constants? items with
    | none =>
      rw [hvs] at hconstants
      generalize constants? (exchangeTerms x items) = vs' at hconstants ⊢
      cases hconstants
      exact .none
    | some vs =>
      rw [hvs] at hconstants
      generalize constants? (exchangeTerms x items) = vs' at hconstants ⊢
      cases hconstants with
      | some hitems =>
        refine .some ⟨rfl, .cons (.array (hitems.imp ?_)) .nil⟩
        exact fun _ _ => Or.imp_right (And.imp_left (hstays hvs))
  document := by
    rintro c c' ⟨-, rfl⟩ d -
    rfl
  unequal := by
    rintro c c' ⟨-, rfl⟩ a a' b b' ha hb
    exact ha.unequal c' hb

/-! ## The theorem -/

namespace Node

/-- Without arrays, binding only takes literals out and leaves gaps for them. -/
theorem draft_fills {ctx : Context} (hb : ctx.binding = false) (node : Node)
    (hnode : node.Everywhere fun p => p.isArray = false) :
    Fills (fun v ts => v.literal = Draft.tokens ts) (node.draft ctx)
      (node.draft { ctx with binding := true }) := by
  have hsim : Fills (Value.WrittenAs fun p => p.isArray = false) (node.draft ctx)
      ((node.exchange .id).draft { ctx with binding := true }) :=
    @Node.draft_sim (filling _) _ _ ⟨hb, rfl⟩ node hnode
  rw [node.exchange_id] at hsim
  refine hsim.imp ?_
  rintro v ts (⟨-, hliteral⟩ | ⟨harray, -, -, -⟩)
  · exact hliteral
  · exact nomatch harray

/-- Exchanging constants that are bound changes nothing around the gaps. -/
theorem exchange_sameBlank {x : Exchange} (hx : x.KeepsBindable) {ctx : Context}
    (hb : ctx.binding = true) (node : Node) :
    SameBlank (node.draft ctx) ((node.exchange x).draft ctx) := by
  have heverywhere : node.Everywhere (following x hx True).part :=
    node.everywhere_of_forall fun _ hnot => absurd trivial hnot
  exact (@Node.draft_sim (following x hx True) _ _ ⟨hb, rfl⟩ node heverywhere).sameBlank

/-- **Binding constants only replaces literals.** Let a node without arrays be writable where no
    constants are bound. Then it is where they are, with any parameters; with the literals of the
    bound constants in place of the placeholders, what is written is the same. And what is written
    with placeholders says nothing about the constants that may be bound: exchanging them for others
    leaves it as it is, so no literal of theirs is left in it. -/
theorem weave_literals {ctx : Context} (hb : ctx.binding = false) {node : Node}
    (hnode : node.Everywhere fun p => p.isArray = false) {p p' : Parameters} {plain : List Token}
    (h : (node.draft ctx).finish p = (.ok plain, p')) :
    ∃ (segments literals : List (List Token)) (dialects : List Dialect),
      segments.length = (node.bindings ctx.naming).length + 1 ∧
      dialects.length = (node.bindings ctx.naming).length ∧
      (∀ r : Parameters,
        (node.draft { ctx with binding := true }).finish r =
          (.ok (weave segments (Piece.placeholders r.factory r.values.length dialects)),
            { r with values := r.values ++ node.bindings ctx.naming })) ∧
      List.Forall₂ (fun v ts => v.literal = Draft.tokens ts) (node.bindings ctx.naming) literals ∧
      plain = weave segments literals ∧
      ∀ x : Exchange, x.KeepsBindable → ∀ r : Parameters,
        (((node.exchange x).draft { ctx with binding := true }).finish r).1 =
          .ok (weave segments (Piece.placeholders r.factory r.values.length dialects)) := by
  obtain ⟨hbound, hfilled⟩ := node.draft_fills hb hnode (complete_of_finish h)
  obtain ⟨literals, hliterals, hweave⟩ := hfilled.weave
  -- the holes of the bound draft hold the bindings, so the literals are theirs
  have hvalues : Piece.values (node.draft { ctx with binding := true }).pieces
      = node.bindings ctx.naming := node.draft_binds rfl hbound
  rw [hvalues] at hliterals
  have hwritten : ∀ r : Parameters, (node.draft { ctx with binding := true }).finish r =
      (.ok (weave (Piece.texts (node.draft { ctx with binding := true }).pieces)
        (Piece.placeholders r.factory r.values.length
          (Piece.dialects (node.draft { ctx with binding := true }).pieces))),
        { r with values := r.values ++ node.bindings ctx.naming }) := by
    intro r
    rw [finish_of_complete hbound, Piece.number_eq_weave, hvalues]
  refine ⟨Piece.texts (node.draft { ctx with binding := true }).pieces, literals,
    Piece.dialects (node.draft { ctx with binding := true }).pieces, ?_, ?_, hwritten, hliterals,
    ?_, ?_⟩
  · rw [Piece.texts_length, hvalues]
  · rw [Piece.dialects_length, hvalues]
  · rw [finish_of_complete (complete_of_finish h)] at h
    obtain ⟨rfl, -⟩ := h
    exact hweave _ _
  · intro x hx r
    -- with the values left out, both drafts are one, and the text does not look at values
    have hsame : (node.draft { ctx with binding := true }).blank
        = ((node.exchange x).draft { ctx with binding := true }).blank :=
      node.exchange_sameBlank hx rfl
    simp only [Draft.finish]
    rw [← numbered_blank, ← hsame, numbered_blank]
    exact congrArg Prod.fst (hwritten r)

/-- A page of MySQL with a string in its filter, written with its constants and without. -/
theorem weave_literals_of_page :
    let ctx := Context.ofDialect .mysql
    let node := query
      { Query.start 0 .mysql with
        sources := [.table (.named 1 "t")]
        selects := [.field "a"]
        filter := ⟨.comparison .eq (.field "b") (.value (.str "x")), none⟩
        limit := some 10 }
    ∃ segments literals : List (List Token),
      segments.length = 3 ∧
      List.Forall₂ (fun (v : Value) ts => v.literal = Draft.tokens ts) [.str "x", .int 10]
        literals ∧
      ((node.draft ctx).finish {}).1 = .ok (weave segments literals) ∧
      ((node.draft { ctx with binding := true }).finish {}).2 = ⟨[.str "x", .int 10], none⟩ := by
  intro ctx node
  have hbound : node.bindings ctx.naming = [.str "x", .int 10] := by cbv
  have hstop : (node.draft ctx).stop = none := Option.isNone_iff_eq_none.mp (by decide +kernel)
  have hnode : node.Everywhere fun p => p.isArray = false := by
    repeat' first
      | exact trivial
      | exact rfl
      | refine And.intro ?_ ?_
  have hplain := finish_of_complete hstop {}
  obtain ⟨segments, literals, _, hlength, -, hwritten, hliterals, hweave, -⟩ :=
    weave_literals rfl hnode hplain
  rw [hbound] at hlength hliterals
  refine ⟨segments, literals, by simpa using hlength, hliterals, ?_, ?_⟩
  · rw [hplain, hweave]
  · rw [hwritten {}, hbound]
    rfl

end Node

end SqlCompose
