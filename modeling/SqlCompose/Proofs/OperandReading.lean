import SqlCompose.Proofs.CompoundOperands
import SqlCompose.Proofs.OutlineReading

/-! # Reading compound operands — which combinations are found again below other operators

    Without parentheses, a combination below an operator that is no combination is not found again:
    the reader of outlines takes its last operand for the operand of the operator.

    * `outline` — the outline that a tree of tokens has by itself: an operand that is a combination
      is a group.
    * `groups_into` — that outline has one group more for each combination without parentheses.
    * `isRead` — without such combinations it is what is read, by induction over the tree.
    * `read_compound` — the theorem. -/

namespace SqlCompose

open Draft

namespace Condition

/-! ## The outline of a tree -/

/-- The level with a tree of tokens written on it, a combination as a group or not. An operand of an
    operator is a group if it is a combination. -/
def into (ctx : Context) : Condition (List Token) → Bool → Level → Level
  | leaf ts, _, level => { level with phrase := level.phrase.text ts }
  | combination op left right _, enclosed, level =>
    level.within enclosed fun level =>
      right.into ctx (right.differsFrom op)
        ((left.into ctx (left.differsFrom op) level).combine op)
  | unary op operand aliasName, _, level =>
    (operand.into ctx true (level.words op.front)).words (op.back ++ ctx.aliasTokens aliasName)
  | binary op left right aliasName, _, level =>
    let first := level.within (op.bracketsLeft left.arithmeticOp?) (left.into ctx true)
    let second :=
      (first.words op.sign).within (op.bracketsRight right.arithmeticOp?) (right.into ctx true)
    second.words (op.suffix ctx aliasName)
  | ternary op first second third aliasName, _, level =>
    let first := (first.into ctx true level).words op.firstSign
    let second := (second.into ctx true first).words op.secondSign
    (third.into ctx true second).words (op.suffix ctx aliasName)

/-- The outline of a tree of tokens. -/
def outline (ctx : Context) (w : Condition (List Token)) : Outline :=
  (w.into ctx ctx.bracketed {}).closed

variable {ctx : Context}

/-- An operand only changes the phrase that it stands in. -/
theorem onPhrase_into (w : Condition (List Token)) : OnPhrase (w.into ctx true) := by
  induction w with
  | leaf ts => exact fun _ => rfl
  | combination op l r aliasName => exact fun _ => rfl
  | unary op x aliasName ih => exact (OnPhrase.words _).comp (ih.comp (.words _))
  | binary op l r aliasName ihl ihr =>
    have hfirst := (OnPhrase.words op.sign).comp
      (Level.onPhrase_within ihl (op.bracketsLeft l.arithmeticOp?))
    exact (OnPhrase.words _).comp ((Level.onPhrase_within ihr _).comp hfirst)
  | ternary op x y z aliasName ihx ihy ihz =>
    have hfirst := (OnPhrase.words op.firstSign).comp ihx
    have hsecond := (OnPhrase.words op.secondSign).comp (ihy.comp hfirst)
    exact (OnPhrase.words _).comp (ihz.comp hsecond)

/-- Only combinations are a group or not. -/
theorem into_of_not_isCompound {w : Condition (List Token)} (h : w.isCompound = false)
    (enclosed : Bool) : w.into ctx enclosed = w.into ctx true := by
  cases w with
  | combination => exact nomatch h
  | _ => rfl

/-! ## Groups of a tree -/

/-- The tokens of an operator with one operand are words. -/
theorem words_unary (op : UnaryOp) : Words op.front ∧ Words op.back := by
  cases op <;> exact ⟨rfl, rfl⟩

theorem words_binary (ctx : Context) (op : BinaryOp) (aliasName : Option String) :
    Words op.sign ∧ Words (op.suffix ctx aliasName) := by
  cases op with
  | comparison op => exact ⟨rfl, words_declaredTokens ctx aliasName⟩
  | membership negated => exact ⟨by cases negated <;> rfl, words_aliasTokens ctx aliasName⟩
  | arithmetic op => exact ⟨rfl, words_declaredTokens ctx aliasName⟩

theorem words_ternary (ctx : Context) (op : TernaryOp) (aliasName : Option String) :
    Words (op.suffix ctx aliasName) := by
  cases op with
  | chain first second => exact words_declaredTokens ctx aliasName
  | between => exact words_aliasTokens ctx aliasName

theorem count_enclosedIf (brackets : Bool) (ts : List Token) :
    (enclosedIf brackets ts).count .lparen = ts.count .lparen + if brackets then 1 else 0 := by
  cases brackets with
  | false => rfl
  | true => simp [enclosedIf]

/-- An operand has one group for each pair of parentheses that it is written with, and one more if
    it is a combination and has none. -/
theorem groups_into_operand {w : Condition (List Token)}
    (h : ∀ (enclosed : Bool) (level : Level), (w.into ctx enclosed level).groups =
      level.groups + ((w.tokens ctx enclosed).count .lparen + w.bareOperands enclosed))
    (asked : Bool) (level : Level) :
    (w.into ctx true level).groups =
      level.groups +
        ((w.tokens ctx asked).count .lparen + (w.bare asked + w.bareOperands asked)) := by
  cases hcompound : w.isCompound with
  | false =>
    have hbare : w.bare asked = 0 := by simp [bare, hcompound]
    rw [← into_of_not_isCompound hcompound asked, h, hbare, Nat.zero_add]
  | true =>
    -- a compound that is not enclosed opens one group less than it should
    cases w with
    | combination op l r aliasName =>
      have hgroups := h true level
      have hcount := count_enclosedIf true (l.tokens ctx (l.differsFrom op) ++
        .space :: .keyword op.keyword :: .space :: r.tokens ctx (r.differsFrom op))
      cases asked with
      | true => exact hgroups.trans (by simp [bare])
      | false =>
        have hbare : (combination op l r aliasName).bare false = 1 := rfl
        have htokens : ((combination op l r aliasName).tokens ctx true).count .lparen =
            ((combination op l r aliasName).tokens ctx false).count .lparen + 1 := hcount
        have hoperands : (combination op l r aliasName).bareOperands true =
            (combination op l r aliasName).bareOperands false := rfl
        omega
    | _ => exact absurd hcompound Bool.false_ne_true

/-- The outline of a tree has one group for each pair of parentheses that the tree is written with,
    and one more for each combination that has none below an operator. -/
theorem groups_into {w : Condition (List Token)} (hw : w.All Closed) (enclosed : Bool)
    (level : Level) :
    (w.into ctx enclosed level).groups =
      level.groups + ((w.tokens ctx enclosed).count .lparen + w.bareOperands enclosed) := by
  -- parentheses open groups, and so does each operand that should stand in some but does not
  induction w generalizing enclosed level with
  | leaf ts =>
    have htext := Closed.groups_text hw level.phrase
    show level.chain.elim 0 _ + (level.phrase.text ts).groups = _
    rw [htext, ← Nat.add_assoc]
    rfl
  | combination op l r aliasName ihl ihr =>
    have hinside (level : Level) : (r.into ctx (r.differsFrom op)
        ((l.into ctx (l.differsFrom op) level).combine op)).groups = level.groups +
          ((l.tokens ctx (l.differsFrom op)).count .lparen + l.bareOperands (l.differsFrom op) +
            ((r.tokens ctx (r.differsFrom op)).count .lparen +
              r.bareOperands (r.differsFrom op))) := by
      rw [ihr hw.2, Level.groups_combine, ihl hw.1, Nat.add_assoc]
    have hsign : (Token.space :: .keyword op.keyword :: .space ::
        r.tokens ctx (r.differsFrom op)).count .lparen =
          (r.tokens ctx (r.differsFrom op)).count .lparen := by
      simp
    have hgroups := Level.groups_within hinside level enclosed
    rw [tokens, count_enclosedIf, List.count_append, hsign, bareOperands]
    rw [into, hgroups]
    omega
  | unary op x aliasName ih =>
    obtain ⟨hfront, hback⟩ := words_unary op
    have hbehind := (hback.append (words_aliasTokens ctx aliasName)).count_eq
    have hoperand := groups_into_operand (ih hw) (op.asks enclosed) (level.words op.front)
    rw [Level.groups_words] at hoperand
    rw [tokens, List.count_append, List.count_append, hfront.count_eq, hbehind, bareOperands, into,
      Level.groups_words, hoperand]
    omega
  | binary op l r aliasName ihl ihr =>
    obtain ⟨hsign, hsuffix⟩ := words_binary ctx op aliasName
    have hl := Level.groups_within (groups_into_operand (ihl hw.1) enclosed) level
      (op.bracketsLeft l.arithmeticOp?)
    have hr := fun level => Level.groups_within (groups_into_operand (ihr hw.2) enclosed) level
      (op.bracketsRight r.arithmeticOp?)
    rw [tokens, List.count_append, List.count_append, List.count_append, count_enclosedIf,
      count_enclosedIf, hsign.count_eq, hsuffix.count_eq, bareOperands]
    simp only [into, Level.groups_words, hr, hl]
    omega
  | ternary op x y z aliasName ihx ihy ihz =>
    have hfirst : op.firstSign.count .lparen = 0 := by cases op <;> rfl
    have hsecond : op.secondSign.count .lparen = 0 := by cases op <;> rfl
    have hsuffix := (words_ternary ctx op aliasName).count_eq
    have hx := groups_into_operand (ihx hw.1) enclosed
    have hy := groups_into_operand (ihy hw.2.1) enclosed
    have hz := groups_into_operand (ihz hw.2.2) enclosed
    rw [tokens, List.count_append, List.count_append, List.count_append, List.count_append,
      List.count_append, hfirst, hsecond, hsuffix, bareOperands]
    simp only [into, Level.groups_words, hz, hy, hx]
    omega

/-! ## What is read of a tree -/

/-- How a tree of tokens is read: as an operand that is no combination without parentheses, and on
    a chain of its combinator. -/
structure IsRead (ctx : Context) (w : Condition (List Token)) : Prop where
  operand : ∀ {asked : Bool}, w.bare asked + w.bareOperands asked = 0 →
    ∀ (around : List Level) (level : Level),
      Reader.run ⟨around, level⟩ (w.tokens ctx asked) = some ⟨around, w.into ctx true level⟩
  chained : ∀ {op : Combinator} {level : Level}, w.differsFrom op = false →
    w.bareOperands false = 0 → level.takes op = true → ∀ around : List Level,
      Reader.run ⟨around, level⟩ (w.tokens ctx false) = some ⟨around, w.into ctx false level⟩ ∧
        (w.into ctx false level).takes op = true

namespace IsRead

variable {w : Condition (List Token)}

/-- Without a combination at the top, a tree is read as an operand wherever it stands. -/
theorem of_not_isCompound (hcompound : w.isCompound = false)
    (operand : ∀ {asked : Bool}, w.bareOperands asked = 0 →
      ∀ (around : List Level) (level : Level),
        Reader.run ⟨around, level⟩ (w.tokens ctx asked) = some ⟨around, w.into ctx true level⟩) :
    w.IsRead ctx where
  operand := fun h => operand (Nat.add_eq_zero_iff.mp h).2
  chained := by
    intro op level _ hbare htakes around
    rw [into_of_not_isCompound hcompound]
    refine ⟨operand hbare around level, ?_⟩
    rw [(onPhrase_into w).takes_eq]
    exact htakes

/-- The operand of a combination on a chain of that combinator. -/
theorem member (h : w.IsRead ctx) {op : Combinator} (hbare : w.bareOperands (w.differsFrom op) = 0)
    {level : Level} (htakes : level.takes op = true) (around : List Level) :
    Reader.run ⟨around, level⟩ (w.tokens ctx (w.differsFrom op)) =
        some ⟨around, w.into ctx (w.differsFrom op) level⟩ ∧
      (w.into ctx (w.differsFrom op) level).takes op = true := by
  cases hdiffers : w.differsFrom op with
  | true =>
    rw [hdiffers] at hbare
    refine ⟨h.operand (by simpa [bare] using hbare) around level, ?_⟩
    rw [(onPhrase_into w).takes_eq]
    exact htakes
  | false =>
    rw [hdiffers] at hbare
    exact h.chained hdiffers hbare htakes around

end IsRead

/-- The operands of a combination go on a chain one behind the other. -/
theorem IsRead.combine {op : Combinator} {l r : Condition (List Token)} (hl : l.IsRead ctx)
    (hr : r.IsRead ctx) {aliasName : Option String} {asked : Bool}
    (hbare : (combination op l r aliasName).bareOperands asked = 0) {level : Level}
    (htakes : level.takes op = true) (around : List Level) :
    Reader.run ⟨around, level⟩ ((combination op l r aliasName).tokens ctx false) =
        some ⟨around, (combination op l r aliasName).into ctx false level⟩ ∧
      ((combination op l r aliasName).into ctx false level).takes op = true := by
  obtain ⟨hlbare, hrbare⟩ := Nat.add_eq_zero_iff.mp hbare
  obtain ⟨hleft, hgoes⟩ := hl.member hlbare htakes around
  obtain ⟨hright, hends⟩ := hr.member hrbare (Level.takes_combine _ op) around
  refine ⟨?_, hends⟩
  show Reader.run _ (l.tokens ctx _ ++
    ([.space, .keyword op.keyword, .space] ++ r.tokens ctx _)) = _
  rw [Reader.run_behind hleft, Reader.run_behind (Reader.run_combinator hgoes around)]
  exact hright

/-- BETWEEN waits for its AND, whatever is read between the two. -/
theorem Reader.run_between {write : Level → Level} (hwrite : OnPhrase write) {ts : List Token}
    (h : ∀ (around : List Level) (level : Level),
      Reader.run ⟨around, level⟩ ts = some ⟨around, write level⟩)
    (around : List Level) (level : Level) :
    Reader.run ⟨around, level⟩
        (TernaryOp.between.firstSign ++ (ts ++ TernaryOp.between.secondSign)) =
      some ⟨around,
        (write (level.words TernaryOp.between.firstSign)).words TernaryOp.between.secondSign⟩ := by
  -- AND is awaited once BETWEEN is read, so the next one belongs to it
  have hopened : Reader.run ⟨around, level⟩ TernaryOp.between.firstSign =
      some ⟨around, { level.words TernaryOp.between.firstSign with
        awaited := level.awaited + 1 }⟩ := rfl
  have hclosed (level : Level) :
      Reader.run ⟨around, { level with awaited := level.awaited + 1 }⟩
        TernaryOp.between.secondSign =
          some ⟨around, level.words TernaryOp.between.secondSign⟩ := by
    have hstep : { level with awaited := level.awaited + 1 }.step (.keyword .and) =
        some (level.words [.keyword .and]) := by
      simp [Level.step, Combinator.ofKeyword?, Level.words]
    show (Option.map (Reader.mk around)
      ({ level with awaited := level.awaited + 1 }.step (.keyword .and))).bind _ = _
    rw [hstep]
    rfl
  have hwritten := hclosed (write (level.words TernaryOp.between.firstSign))
  rw [hwrite.awaited_eq] at hwritten
  rw [Reader.run_behind hopened, Reader.run_behind (h around _), hwrite.await]
  exact hwritten

/-- Every tree over closed texts in which each combination below an operator has its parentheses is
    read as its outline. -/
theorem isRead {w : Condition (List Token)} (hw : w.All Closed) : w.IsRead ctx := by
  -- operands that need no parentheses go on with the level, the others open one of their own
  induction w with
  | leaf ts => exact .of_not_isCompound rfl fun _ around level => hw around level
  | combination op l r aliasName ihl ihr =>
    have hcombine := @IsRead.combine ctx op l r (ihl hw.1) (ihr hw.2) aliasName
    refine ⟨?_, ?_⟩
    · intro asked hbare around level
      obtain ⟨hasked, hoperands⟩ := Nat.add_eq_zero_iff.mp hbare
      obtain rfl : asked = true := by simpa [bare, isCompound] using hasked
      have hopen : Level.takes {} op = true := rfl
      obtain ⟨hinside, htakes⟩ := hcombine hoperands hopen (level :: around)
      exact Reader.run_parens hinside (Level.awaited_of_takes htakes)
    · intro other level hdiffers hbare htakes around
      obtain rfl : op = other := by simpa [differsFrom] using hdiffers
      exact hcombine hbare htakes around
  | unary op x aliasName ih =>
    obtain ⟨hfront, hback⟩ := words_unary op
    have hbehind := hback.append (words_aliasTokens ctx aliasName)
    refine .of_not_isCompound rfl ?_
    intro asked hbare around level
    rw [tokens, List.append_assoc, Reader.run_behind (Reader.run_words hfront around level),
      Reader.run_behind ((ih hw).operand hbare around _)]
    exact Reader.run_words hbehind around _
  | binary op l r aliasName ihl ihr =>
    obtain ⟨hsign, hsuffix⟩ := words_binary ctx op aliasName
    refine .of_not_isCompound rfl ?_
    intro asked hbare around level
    obtain ⟨hlbare, hrbare⟩ := Nat.add_eq_zero_iff.mp hbare
    have hleft := Reader.run_enclosedIf (onPhrase_into l) ((ihl hw.1).operand hlbare)
      (op.bracketsLeft l.arithmeticOp?) around
    have hright := Reader.run_enclosedIf (onPhrase_into r) ((ihr hw.2).operand hrbare)
      (op.bracketsRight r.arithmeticOp?) around
    rw [tokens, List.append_assoc, List.append_assoc, Reader.run_behind (hleft level),
      Reader.run_behind (Reader.run_words hsign around _), Reader.run_behind (hright _)]
    exact Reader.run_words hsuffix around _
  | ternary op x y z aliasName ihx ihy ihz =>
    have hsuffix := words_ternary ctx op aliasName
    refine .of_not_isCompound rfl ?_
    intro asked hbare around level
    obtain ⟨hxy, hz⟩ := Nat.add_eq_zero_iff.mp hbare
    obtain ⟨hx, hy⟩ := Nat.add_eq_zero_iff.mp hxy
    have hfirst := (ihx hw.1).operand hx
    have hsecond := (ihy hw.2.1).operand hy
    have hthird := (ihz hw.2.2).operand hz
    have hsigns (level : Level) : Reader.run ⟨around, level⟩
        (op.firstSign ++ (y.tokens ctx asked ++ op.secondSign)) =
          some ⟨around, (y.into ctx true (level.words op.firstSign)).words op.secondSign⟩ := by
      cases op with
      | chain first second =>
        have hsign (op : Comparator) : Words [.operator op.text] := rfl
        show Reader.run _ ([.operator first.text] ++ (_ ++ [.operator second.text])) = _
        rw [Reader.run_behind (Reader.run_words (hsign first) around level),
          Reader.run_behind (hsecond around _)]
        exact Reader.run_words (hsign second) around _
      | between => exact Reader.run_between (onPhrase_into y) hsecond around level
    rw [tokens, List.append_assoc, List.append_assoc, List.append_assoc, List.append_assoc,
      Reader.run_behind (hfirst around level), ← List.append_assoc (y.tokens ctx asked),
      ← List.append_assoc op.firstSign, Reader.run_behind (hsigns _),
      Reader.run_behind (hthird around _)]
    exact Reader.run_words hsuffix around _

/-- A tree over closed texts is read as its outline, if each combination below an operator has its
    parentheses. -/
theorem read?_tokens {w : Condition (List Token)} (hw : w.All Closed) {asked : Bool}
    (hbare : w.bareOperands asked = 0) :
    read? (w.tokens ctx asked) = some (w.into ctx asked {}).closed := by
  have hread {next : Level} {ts : List Token}
      (hrun : Reader.run ⟨[], {}⟩ ts = some ⟨[], next⟩) (hawaited : next.awaited = 0) :
      read? ts = some next.closed := by
    have hrun : Reader.run {} ts = some ⟨[], next⟩ := hrun
    simp only [read?, hrun, if_pos hawaited]
  cases asked with
  | true =>
    have hwhole : w.bare true + w.bareOperands true = 0 := by simp [bare, hbare]
    exact hread ((isRead hw).operand hwhole [] {}) ((onPhrase_into w).awaited_eq {})
  | false =>
    obtain ⟨op, hop⟩ : ∃ op, w.differsFrom op = false := by
      cases w with
      | combination op => exact ⟨op, by simp [differsFrom]⟩
      | _ => exact ⟨.and, rfl⟩
    have hopen : Level.takes {} op = true := rfl
    obtain ⟨hrun, htakes⟩ := (isRead hw).chained hop hbare hopen []
    exact hread hrun (Level.awaited_of_takes htakes)

/-- A text over closed texts is read as the outline of its tree exactly if each combination below an
    operator has its parentheses. -/
theorem read?_tokens_iff {w : Condition (List Token)} (hw : w.All Closed) (asked : Bool) :
    read? (w.tokens ctx asked) = some (w.into ctx asked {}).closed ↔ w.bareOperands asked = 0 := by
  refine ⟨?_, read?_tokens hw⟩
  intro hread
  have hgroups := groups_of_read? hread
  rw [Level.groups_closed, groups_into hw] at hgroups
  have hempty : ({} : Level).groups = 0 := rfl
  omega

/-! ## Columns, constants and lists are closed -/

/-- Whatever the term is written as below operators is closed. -/
def ClosedIn (ctx : Context) (t : Term) : Prop :=
  ∀ ts : List Token, LeafWritten ctx t ts → Closed ts

/-- A column or a constant, bound or not, is words. -/
theorem words_comparand (x : Comparand) {ts : List Token} {p p' : Parameters}
    (h : (x.term.draft ctx).finish p = (.ok ts, p')) : Words ts := by
  cases x with
  | column name source =>
    have hdraft : (Comparand.column name source).term.draft ctx =
        Draft.tokens (Token.reference (Source.qualifier? ctx source) name) := by
      rw [← Source.qualifier_eq_tokens]
      show _ ++ Draft.token (.ident name) ++ ctx.declaration none = _
      simp only [Context.declaration]
      split <;> exact Draft.append_empty _
    rw [hdraft, Draft.finish_tokens_eq] at h
    obtain rfl := Except.ok.inj (congrArg Prod.fst h)
    cases Source.qualifier? ctx source <;> rfl
  | constant v mayBind =>
    have hdraft : (Comparand.constant v mayBind).term.draft ctx = v.draft ctx mayBind :=
      Draft.append_empty _
    rw [hdraft, Value.draft] at h
    split at h
    · rw [Draft.finish_hole] at h
      obtain rfl := Except.ok.inj (congrArg Prod.fst h)
      rfl
    · obtain ⟨t, ht⟩ := v.literal_eq_token (Draft.complete_of_finish h)
      have hword := Value.literal_isWord ht
      rw [ht] at h
      obtain rfl : [t] = ts := Except.ok.inj (congrArg Prod.fst h)
      cases t <;> first | rfl | exact absurd hword Bool.false_ne_true

theorem closedIn_comparand (x : Comparand) : ClosedIn ctx x.term := by
  rintro ts ⟨nested, asked, p, p', h⟩
  exact closed_of_words (words_comparand x h)

/-- Columns and constants with commas between them are words. -/
theorem words_commas (xs : List Comparand) {ts : List Token} {p p' : Parameters}
    (h : (Draft.commas (termDrafts ctx (xs.map Comparand.term))).finish p = (.ok ts, p')) :
    Words ts := by
  induction xs generalizing ts p with
  | nil =>
    obtain rfl : [] = ts := Except.ok.inj (congrArg Prod.fst h)
    rfl
  | cons x xs ih =>
    cases xs with
    | nil => exact words_comparand x h
    | cons y ys =>
      obtain ⟨us, vs, q, hus, hvs, rfl⟩ := @finish_sign_ok _ _ [.comma] _ _ _ h
      have hcomma : Words [.comma] := rfl
      exact ((words_comparand x hus).append hcomma).append (ih hvs)

theorem closedIn_list (xs : List Comparand) :
    ClosedIn ctx ⟨.tuple (xs.map Comparand.term), none⟩ := by
  rintro ts ⟨nested, asked, p, p', h⟩
  have hdraft : Term.draft (ctx.forOperand nested asked) ⟨.tuple (xs.map Comparand.term), none⟩ =
      Draft.parensIf true (Draft.commas (termDrafts (ctx.forOperand nested asked)
        (xs.map Comparand.term))) := Draft.append_empty _
  rw [hdraft] at h
  obtain ⟨body, hbody, rfl⟩ := finish_parensIf_ok h
  exact closed_parens (words_commas xs hbody)

/-! ## The theorem -/

/-- An operator behind a combination without parentheses goes with its last operand. -/
theorem draft_behind_combination {o : UnaryOp} (ho : o ≠ .not) {r : Condition Term}
    (hr : r.All IsOperand) (hplain : r.isCompound = false) (hasked : ctx.bracketed = false)
    (op : Combinator) (l : Condition Term) (aliasName : Option String) :
    (unary o (combination op l r aliasName) none).term.draft ctx =
      (combination op l (unary o r none) none).term.draft ctx := by
  have hctx : ctx = ctx.forOperand ctx.nested false := by
    rw [← hasked]
    rfl
  have hasks : o.asks false = false := by cases o <;> first | rfl | exact absurd rfl ho
  have hfront : o.front = [] := by cases o <;> first | rfl | exact absurd rfl ho
  have hdiffers : r.term.differsFrom op = false := by
    rw [differsFrom_term hr]
    cases r with
    | combination => exact nomatch hplain
    | _ => rfl
  have hunary : (unary o r none).term.differsFrom op = false := by cases o <;> rfl
  have hnothing : Draft.tokens [] = Draft.empty := rfl
  rw [hctx, draft_unary, draft_combination, hasks, draft_combination, hunary, draft_unary, hfront,
    hasks, hdiffers, hnothing, Draft.empty_append, Draft.empty_append]
  exact Draft.append_assoc _ _ _

/-- **Combinations below other operators are found again where they are asked into parentheses.**
    Let a condition of combinations, NOT, IS NULL, ALL, comparisons, IN, BETWEEN and arithmetic over
    any other terms be written in any context, and let it be written to its end. What is written is
    what the tree says with each of the other terms replaced by its tokens: an operand that is a
    combination stands in parentheses exactly if the next NOT or combination above it, or else the
    context, asks for that, and a combination asks only its own operands.
    * If the tokens of the other terms are words and whole parentheses, the outline of the tree, in
      which every operand that is a combination is a group, has one group for each pair of
      parentheses and one more for each operand without them; and it is what is read exactly if
      there is no such operand.
    * IS NULL or ALL behind a combination is written like the same behind its last operand, where no
      parentheses are asked for. -/
theorem read_compound {c : Condition Term} (hc : c.All IsOperand) {p p' : Parameters}
    {ts : List Token} (h : (c.term.draft ctx).finish p = (.ok ts, p')) :
    (∃ w : Condition (List Token), c.Matches (LeafWritten ctx) w ∧
      ts = w.tokens ctx ctx.bracketed ∧ (w.All Closed →
        (w.outline ctx).groups = ts.count .lparen + c.bareOperands ctx.bracketed ∧
        (read? ts = some (w.outline ctx) ↔ c.bareOperands ctx.bracketed = 0))) ∧
    ∀ o op l r aliasName, c = unary o (combination op l r aliasName) none → o ≠ .not →
      ctx.bracketed = false → r.isCompound = false →
        ((combination op l (unary o r none) none).term.draft ctx).finish p = (.ok ts, p') := by
  refine ⟨?_, ?_⟩
  · obtain ⟨w, hmatches, rfl⟩ := @finish_term ctx c hc ctx.nested ctx.bracketed p p' ts h
    refine ⟨w, hmatches, rfl, ?_⟩
    intro hw
    rw [hmatches.bareOperands_eq, outline]
    refine ⟨?_, read?_tokens_iff hw ctx.bracketed⟩
    rw [Level.groups_closed, groups_into hw]
    exact Nat.zero_add _
  · rintro o op l r aliasName rfl ho hasked hplain
    rw [← draft_behind_combination ho hc.2 hplain hasked op l aliasName]
    exact h

/-- `NOT (a=1 OR b IN (2,3)) IS NULL`: NOT asks for the parentheses. -/
theorem read_compound_not :
    let column (name : String) : Condition Term := .leaf (Comparand.column name none).term
    let number (n : Int64) : Comparand := .constant (.int n) true
    let c : Condition Term :=
      .unary .not (.unary .isNull
        (.combination .or
          (.binary (.comparison .eq) (column "a") (.leaf (number 1).term) none)
          (.binary (.membership false) (column "b")
            (.leaf ⟨.tuple ([number 2, number 3].map Comparand.term), none⟩) none) none) none) none
    let ctx := Context.ofDialect .mysql
    (c.term.draft ctx).text ctx = .ok "NOT (`a`=1 OR `b` IN (2,3)) IS NULL" ∧
      ∃ (ts : List Token) (w : Condition (List Token)), (c.term.draft ctx).finish {} = (.ok ts, {}) ∧
        c.Matches (LeafWritten ctx) w ∧ read? ts = some (w.outline ctx) := by
  intro column number c ctx
  have hstop : (c.term.draft ctx).stop = none := Option.isNone_iff_eq_none.mp (by decide +kernel)
  have hvalues : Piece.values (c.term.draft ctx).pieces = [] :=
    List.isEmpty_iff.mp (by decide +kernel)
  have h := Draft.finish_of_complete hstop {}
  have hc : c.All IsOperand := by
    refine ⟨⟨?_, ?_⟩, ?_, ?_⟩ <;> exact ⟨fun _ => rfl, rfl⟩
  have hleaves : c.All (ClosedIn ctx) :=
    ⟨⟨closedIn_comparand _, closedIn_comparand _⟩, closedIn_comparand _, closedIn_list _⟩
  obtain ⟨⟨w, hmatches, -, hread⟩, -⟩ := read_compound hc h
  rw [hvalues] at h
  have hw : w.All Closed := hmatches.all hleaves fun t ts ht hts => ht ts hts
  exact ⟨by decide +kernel, _, w, h, hmatches, (hread hw).2.mpr rfl⟩

/-- The combination in `(a=1 AND b=2) IS NULL` is written without parentheses, and IS NULL is read
    as going with `b=2` alone. -/
theorem read_compound_bare :
    let column (name : String) : Condition Term := .leaf (Comparand.column name none).term
    let equals (name : String) (n : Int64) : Condition Term :=
      .binary (.comparison .eq) (column name) (.leaf (Comparand.constant (.int n) true).term) none
    let c : Condition Term :=
      .unary .isNull (.combination .and (equals "a" 1) (equals "b" 2) none) none
    let ctx := Context.ofDialect .generic
    ctx.bracketed = false ∧ (c.term.draft ctx).text ctx = .ok "\"a\"=1 AND \"b\"=2 IS NULL" ∧
      ∃ ts : List Token, (c.term.draft ctx).finish {} = (.ok ts, {}) ∧ Token.lparen ∉ ts ∧
        read? ts = some (.combination .and
          (Outline.words .nothing [.ident "a", .operator "=", .int 1])
          (Outline.words .nothing [.ident "b", .operator "=", .int 2, .keyword .isNull])) := by
  intro column equals c ctx
  let ts : List Token :=
    [.ident "a", .operator "=", .int 1, .space, .keyword .and, .space, .ident "b", .operator "=",
      .int 2, .space, .keyword .isNull]
  have hstop : (c.term.draft ctx).stop = none := Option.isNone_iff_eq_none.mp (by decide +kernel)
  have hnumber : Piece.number none 0 (c.term.draft ctx).pieces = ts := by decide +kernel
  have hvalues : Piece.values (c.term.draft ctx).pieces = [] :=
    List.isEmpty_iff.mp (by decide +kernel)
  refine ⟨rfl, by decide +kernel, ts, ?_, by decide, by decide +kernel⟩
  rw [Draft.finish_of_complete hstop, hvalues]
  exact Prod.ext (congrArg Except.ok hnumber) rfl

end Condition

end SqlCompose
