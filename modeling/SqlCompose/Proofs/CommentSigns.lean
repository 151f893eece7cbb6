import Mathlib.Data.List.Infix
import SqlCompose.Proofs.Criterion
import SqlCompose.Proofs.Numerals

/-! # Comment signs — when arithmetic writes two minus signs in a row

    SQL takes two minus signs for the start of a comment, and a slash with a star behind it as well.
    No blank is put between an operator and its operands. So a minus sign, be it of a difference or
    of a negative, comes right before a sign that its operand starts with: that of a negative, or of
    a negative number, at the first place of the operand's text.

    * `Calculation` — terms of columns, whole numbers, the four operations and negatives.
    * `Calculation.startsSigned`, `Calculation.doublesSign` — whether its text starts with a sign,
      and whether it has a sign right before another one.
    * `Token.marked` — the characters of tokens, each with whether it belongs to a name.
    * `Token.isQuiet` — tokens that have no part in a comment.
    * `Marks` — how a text starts and ends and what stands in it side by side; `Marks.operation` and
      its like say so of what is put together.
    * `Calculation.marks` — this of every calculation.
    * `Calculation.opens_comment` — the theorem. -/

namespace SqlCompose

open Draft

/-! ## Calculations -/

/-- A term of columns, whole numbers and arithmetic, with the aliases of its parts. -/
inductive Calculation
  | column (name : String) (source : Option Source) (aliasName : Option String)
  | constant (n : Int64) (mayBind : Bool) (aliasName : Option String)
  | operation (op : ArithmeticOp) (left right : Calculation) (aliasName : Option String)
  | opposite (operand : Calculation) (aliasName : Option String)

namespace Calculation

/-- The term itself. -/
def term : Calculation → Term
  | column name source aliasName => ⟨.field name source, aliasName⟩
  | constant n mayBind aliasName => ⟨.value (.int n) mayBind, aliasName⟩
  | operation op left right aliasName => ⟨.arithmetic op left.term right.term, aliasName⟩
  | opposite operand aliasName => ⟨.negative operand.term, aliasName⟩

/-- The operator at the top; a sign is none. -/
def op? : Calculation → Option ArithmeticOp
  | operation op _ _ _ => some op
  | _ => none

theorem arithmeticOp?_term (c : Calculation) : c.term.arithmeticOp? = c.op? := by
  cases c <;> rfl

/-- The tokens of a calculation whose numbers are written. Those of a number have its alias in any
    case, those of a negative never have. -/
def tokens (ctx : Context) : Calculation → List Token
  | column name source aliasName =>
    Token.reference (Source.qualifier? ctx source) name ++ ctx.declaredTokens aliasName
  | constant n _ aliasName => .int n :: ctx.aliasTokens aliasName
  | operation op left right aliasName =>
    enclosedIf (op.bracketsLeft left.op?) (left.tokens ctx) ++
      .operator op.text :: enclosedIf (op.bracketsRight right.op?) (right.tokens ctx) ++
        ctx.declaredTokens aliasName
  | opposite operand _ => .operator "-" :: operand.tokens ctx

/-- Where nothing is bound, a calculation is written as its tokens. -/
theorem draft_eq {ctx : Context} (hplain : ctx.binding = false) (c : Calculation) :
    c.term.draft ctx = Draft.tokens (c.tokens ctx) := by
  induction c with
  | column name source aliasName =>
    show Source.qualifier ctx source ++ token (.ident name) ++ ctx.declaration aliasName = _
    rw [Source.qualifier_eq_tokens, ctx.declaration_eq_tokens, tokens_append]
    rfl
  | constant n mayBind aliasName =>
    show (Value.int n).draft ctx mayBind ++ ctx.aliasDraft aliasName = _
    rw [Value.draft, hplain, ctx.aliasDraft_eq_tokens]
    exact tokens_append [.int n] _
  | operation op left right aliasName ihl ihr =>
    show parensIf (op.bracketsLeft left.term.arithmeticOp?) (left.term.draft ctx) ++
      Draft.tokens [.operator op.text] ++
        parensIf (op.bracketsRight right.term.arithmeticOp?) (right.term.draft ctx) ++
          ctx.declaration aliasName = _
    rw [ihl, ihr, arithmeticOp?_term, arithmeticOp?_term, parensIf_tokens, parensIf_tokens,
      ctx.declaration_eq_tokens, tokens_append, tokens_append, tokens_append]
    exact congrArg (fun ts => Draft.tokens (ts ++ _)) (List.append_assoc _ [_] _)
  | opposite operand aliasName ih =>
    show Draft.tokens [.operator "-"] ++ operand.term.draft ctx = _
    rw [ih, tokens_append]
    rfl

/-- Whether the text starts with a minus sign. -/
def startsSigned : Calculation → Bool
  | column _ _ _ => false
  | constant n _ _ => n.toInt < 0
  | operation op left _ _ => !op.bracketsLeft left.op? && left.startsSigned
  | opposite _ _ => true

/-- Whether a minus sign stands right before another one: somewhere in the calculation there is a
    difference whose right operand is not in parentheses and starts with a sign, or a negative whose
    operand starts with one. -/
def doublesSign : Calculation → Bool
  | column _ _ _ => false
  | constant _ _ _ => false
  | operation op left right _ =>
    left.doublesSign || right.doublesSign ||
      (op == .sub && !op.bracketsRight right.op? && right.startsSigned)
  | opposite operand _ => operand.startsSigned || operand.doublesSign

/-- Whether no column has an empty name. -/
def isNamed : Calculation → Bool
  | column name _ _ => name != ""
  | constant _ _ _ => true
  | operation _ left right _ => left.isNamed && right.isNamed
  | opposite operand _ => operand.isNamed

end Calculation

/-! ## Characters -/

/-- Whether the token is a name, which is written between quotes if there are quotes. -/
def Token.isName : Token → Bool
  | ident _ | aliasName _ => true
  | _ => false

/-- The characters of tokens, each with whether it belongs to a name. -/
def Token.marked (ctx : Context) (ts : List Token) : List (Char × Bool) :=
  ts.flatMap fun t => (t.text ctx).toList.map fun c => (c, t.isName)

/-- They are the text of the tokens. -/
theorem Token.map_marked (ctx : Context) (ts : List Token) :
    (marked ctx ts).map Prod.fst = (texts ctx ts).toList := by
  have htoken (t : Token) :
      ((t.text ctx).toList.map fun c => (c, t.isName)).map Prod.fst = (t.text ctx).toList := by
    rw [List.map_map]
    exact List.map_id _
  rw [texts, String.toList_join, marked, List.map_flatMap, List.flatMap_map]
  simp only [htoken]

theorem Token.marked_append (ctx : Context) (ts us : List Token) :
    marked ctx (ts ++ us) = marked ctx ts ++ marked ctx us := List.flatMap_append

/-- A minus sign, a slash and a star that belong to no name. -/
abbrev minusMark : Char × Bool := ('-', false)

abbrev slashMark : Char × Bool := ('/', false)

abbrev starMark : Char × Bool := ('*', false)

section Pairs

variable {α : Type} {x y z : α} {a b : List α}

/-- Two characters side by side in what is put together: in one of the parts, or where they meet. -/
theorem pair_infix_append :
    [x, y] <:+: a ++ b ↔
      [x, y] <:+: a ∨ [x, y] <:+: b ∨ (a.getLast? = some x ∧ b.head? = some y) := by
  rw [List.infix_append_iff, List.getLast?_eq_some_iff, List.head?_eq_some_iff]
  constructor
  · rintro (ha | hb | ⟨l₁, l₂, hsplit, hsuffix, hprefix⟩)
    · exact .inl ha
    · exact .inr (.inl hb)
    · -- a pair that is cut is cut in front, in the middle or behind
      match l₁, hsplit with
      | [], hsplit => exact .inr (.inl (hsplit ▸ hprefix.isInfix))
      | [_], hsplit =>
        obtain ⟨rfl, rfl⟩ := List.cons.inj hsplit
        obtain ⟨front, rfl⟩ := hsuffix
        obtain ⟨rest, rfl⟩ := hprefix
        exact .inr (.inr ⟨⟨front, rfl⟩, rest, rfl⟩)
      | [_, _], hsplit =>
        obtain ⟨rfl, hrest⟩ := List.cons.inj hsplit
        obtain ⟨rfl, -⟩ := List.cons.inj hrest
        exact .inl hsuffix.isInfix
      | _ :: _ :: _ :: _, hsplit => exact absurd (congrArg List.length hsplit) (by simp)
  · rintro (ha | hb | ⟨⟨front, rfl⟩, rest, rfl⟩)
    · exact .inl ha
    · exact .inr (.inl hb)
    · exact .inr (.inr ⟨[x], [y], rfl, ⟨front, rfl⟩, rest, rfl⟩)

theorem pair_infix_cons :
    [x, y] <:+: z :: a ↔ (z = x ∧ a.head? = some y) ∨ [x, y] <:+: a := by
  have hnone : ¬ [x, y] <:+: [z] := by
    intro h
    exact absurd h.length_le (by simp)
  have happend : [x, y] <:+: [z] ++ a ↔ _ := pair_infix_append
  simpa [hnone, or_comm] using happend

end Pairs

/-! ## What stands side by side -/

/-- How marked characters start and end, and what stands in them side by side: whether they start
    with a sign, and whether there are two signs one behind the other. They do not start as a
    comment behind a slash goes on, end as a comment starts, or have such a start within. -/
structure Marks (m : List (Char × Bool)) (signed doubled : Bool) : Prop where
  nonempty    : m ≠ []
  signed_iff  : m.head? = some minusMark ↔ signed = true
  no_star     : m.head? ≠ some starMark
  no_minus    : m.getLast? ≠ some minusMark
  no_slash    : m.getLast? ≠ some slashMark
  doubled_iff : [minusMark, minusMark] <:+: m ↔ doubled = true
  no_comment  : ¬ [slashMark, starMark] <:+: m

/-- The character of an operator. -/
def ArithmeticOp.mark : ArithmeticOp → Char × Bool
  | add => ('+', false)
  | sub => minusMark
  | mul => starMark
  | div => slashMark

theorem Token.marked_operator (ctx : Context) (op : ArithmeticOp) (ts : List Token) :
    marked ctx (.operator op.text :: ts) = op.mark :: marked ctx ts := by
  cases op <;> simp [marked, text, isName, ArithmeticOp.text, ArithmeticOp.mark]

theorem ArithmeticOp.mark_eq_minusMark (op : ArithmeticOp) : op.mark = minusMark ↔ op = .sub := by
  cases op <;> decide

/-- Characters none of which is a sign, a slash or a star. -/
def IsPlain (m : List (Char × Bool)) : Prop :=
  ∀ c ∈ m, c ≠ minusMark ∧ c ≠ slashMark ∧ c ≠ starMark

/-- Tokens that are written without a sign, a slash or a star, but for those in names. -/
def Token.isQuiet : Token → Bool
  | ident _ | aliasName _ | dot | lparen | rparen | space | keyword .as => true
  | _ => false

theorem Token.isPlain_marked {ctx : Context} {ts : List Token} (h : ∀ t ∈ ts, t.isQuiet = true) :
    IsPlain (marked ctx ts) := by
  intro c hc
  obtain ⟨t, ht, hc⟩ := List.mem_flatMap.1 hc
  obtain ⟨d, hd, rfl⟩ := List.mem_map.1 hc
  have hquiet := h t ht
  cases t with
  | ident _ | aliasName _ => simp [isName]
  | dot | lparen | rparen | space =>
    simp_all [text]
  | keyword k =>
    cases k with
    | as =>
      have hd : d = 'A' ∨ d = 'S' := by simpa [text, Keyword.text] using hd
      obtain rfl | rfl := hd <;> simp
    | _ => cases hquiet
  | _ => cases hquiet

namespace Marks

variable {m n : List (Char × Bool)} {signed doubled signed' doubled' : Bool}

theorem of_plain (hplain : IsPlain m) (hne : m ≠ []) : Marks m false false where
  nonempty := hne
  signed_iff :=
    iff_of_false (fun h => (hplain _ (List.mem_of_mem_head? h)).1 rfl) Bool.false_ne_true
  no_star h := (hplain _ (List.mem_of_mem_head? h)).2.2 rfl
  no_minus h := (hplain _ (List.mem_of_getLast? h)).1 rfl
  no_slash h := (hplain _ (List.mem_of_getLast? h)).2.1 rfl
  doubled_iff :=
    iff_of_false (fun h => (hplain _ (h.subset List.mem_cons_self)).1 rfl) Bool.false_ne_true
  no_comment h := (hplain _ (h.subset List.mem_cons_self)).2.1 rfl

/-- A sign comes right before another one where the operand starts with one. -/
theorem sign (h : Marks m signed doubled) : Marks (minusMark :: m) true (signed || doubled) where
  nonempty := List.cons_ne_nil _ _
  signed_iff := by simp
  no_star := by simp
  no_minus := by
    rw [List.getLast?_cons_of_ne_nil h.nonempty]
    exact h.no_minus
  no_slash := by
    rw [List.getLast?_cons_of_ne_nil h.nonempty]
    exact h.no_slash
  doubled_iff := by simp [pair_infix_cons, h.signed_iff, h.doubled_iff]
  no_comment := by simp [pair_infix_cons, h.no_comment]

/-- No sign comes at the end of a text, so what is put behind it makes no two signs with it. -/
theorem append (hm : Marks m signed doubled) (hn : Marks n signed' doubled') :
    Marks (m ++ n) signed (doubled || doubled') where
  nonempty := List.append_ne_nil_of_left_ne_nil hm.nonempty n
  signed_iff := by
    rw [List.head?_append_of_ne_nil _ hm.nonempty]
    exact hm.signed_iff
  no_star := by
    rw [List.head?_append_of_ne_nil _ hm.nonempty]
    exact hm.no_star
  no_minus := by
    rw [List.getLast?_append_of_ne_nil _ hn.nonempty]
    exact hn.no_minus
  no_slash := by
    rw [List.getLast?_append_of_ne_nil _ hn.nonempty]
    exact hn.no_slash
  doubled_iff := by simp [pair_infix_append, hm.doubled_iff, hn.doubled_iff, hm.no_minus]
  no_comment := by simp [pair_infix_append, hm.no_comment, hn.no_comment, hm.no_slash]

/-- The operands of an operator: the right one makes two signs with a minus sign. -/
theorem operation (hm : Marks m signed doubled) (hn : Marks n signed' doubled')
    (op : ArithmeticOp) :
    Marks (m ++ op.mark :: n) signed (doubled || doubled' || (op == .sub && signed')) where
  nonempty := List.append_ne_nil_of_left_ne_nil hm.nonempty _
  signed_iff := by
    rw [List.head?_append_of_ne_nil _ hm.nonempty]
    exact hm.signed_iff
  no_star := by
    rw [List.head?_append_of_ne_nil _ hm.nonempty]
    exact hm.no_star
  no_minus := by
    rw [List.getLast?_append_of_ne_nil _ (List.cons_ne_nil _ n),
      List.getLast?_cons_of_ne_nil hn.nonempty]
    exact hn.no_minus
  no_slash := by
    rw [List.getLast?_append_of_ne_nil _ (List.cons_ne_nil _ n),
      List.getLast?_cons_of_ne_nil hn.nonempty]
    exact hn.no_slash
  doubled_iff := by
    -- two signs meet only behind the operator, as the left operand does not end with one
    rw [pair_infix_append, pair_infix_cons, hm.doubled_iff, hn.doubled_iff, hn.signed_iff]
    simp only [hm.no_minus, false_and, or_false, op.mark_eq_minusMark, Bool.or_eq_true,
      Bool.and_eq_true, beq_iff_eq]
    rw [or_assoc, or_comm (a := doubled' = true)]
  no_comment := by
    rw [pair_infix_append, pair_infix_cons]
    simp [hm.no_comment, hn.no_comment, hm.no_slash, hn.no_star]

/-- Parentheses hide the sign that an operand starts with. -/
theorem enclosed {ctx : Context} {ts : List Token} (h : Marks (Token.marked ctx ts) signed doubled)
    (bracketed : Bool) :
    Marks (Token.marked ctx (enclosedIf bracketed ts)) (!bracketed && signed) doubled := by
  cases bracketed with
  | false => exact h
  | true =>
    have hopening : Marks (Token.marked ctx [.lparen]) false false :=
      of_plain (Token.isPlain_marked (by simp [Token.isQuiet])) (by simp [Token.marked, Token.text])
    have hclosing : Marks (Token.marked ctx [.rparen]) false false :=
      of_plain (Token.isPlain_marked (by simp [Token.isQuiet])) (by simp [Token.marked, Token.text])
    have henclosed := (hopening.append h).append hclosing
    rw [← Token.marked_append, ← Token.marked_append, Bool.false_or, Bool.or_false] at henclosed
    exact henclosed

/-- A declaration behind an operand, if there is one, is a name with words and blanks. -/
theorem declared {ctx : Context} {ts : List Token} (h : Marks (Token.marked ctx ts) signed doubled)
    {us : List Token} (hus : ∀ t ∈ us, t.isQuiet = true) :
    Marks (Token.marked ctx (ts ++ us)) signed doubled := by
  rw [Token.marked_append]
  cases hmarked : Token.marked ctx us with
  | nil => rwa [List.append_nil]
  | cons c rest =>
    have hbehind := of_plain (hmarked ▸ Token.isPlain_marked hus) (List.cons_ne_nil c rest)
    have happend := h.append hbehind
    rwa [Bool.or_false] at happend

end Marks

theorem Context.isQuiet_of_mem_aliasTokens (ctx : Context) (aliasName : Option String) :
    ∀ t ∈ ctx.aliasTokens aliasName, t.isQuiet = true := by
  cases aliasName with
  | none => exact List.forall_mem_nil _
  | some aliasName =>
    simp only [Context.aliasTokens]
    split
    · exact List.forall_mem_nil _
    · split <;> simp [Token.isQuiet]

theorem Context.isQuiet_of_mem_declaredTokens (ctx : Context) (aliasName : Option String) :
    ∀ t ∈ ctx.declaredTokens aliasName, t.isQuiet = true := by
  rw [Context.declaredTokens]
  split
  · exact ctx.isQuiet_of_mem_aliasTokens aliasName
  · exact List.forall_mem_nil _

/-! ## Calculations as text -/

/-- A number is its digits, with a sign in front if it is below zero. -/
theorem Marks.int (ctx : Context) (n : Int64) :
    Marks (Token.marked ctx [.int n]) (n.toInt < 0) false := by
  have hdigits : Marks ((Nat.toDigits 10 n.toInt.natAbs).map fun c => (c, false)) false false := by
    refine .of_plain ?_ (by simp [Nat.toDigits_ne_nil])
    intro c hc
    obtain ⟨d, hd, rfl⟩ := List.mem_map.1 hc
    have hdigit := Nat.isDigit_of_mem_toDigits (by decide) (by decide) hd
    refine ⟨?_, ?_, ?_⟩ <;>
    · intro h
      rw [(Prod.mk.inj h).1] at hdigit
      exact absurd hdigit (by decide)
  have hmarked : Token.marked ctx [.int n] =
      (if n.toInt < 0 then [minusMark] else []) ++
        (Nat.toDigits 10 n.toInt.natAbs).map fun c => (c, false) := by
    rw [Token.marked, List.flatMap_singleton, Token.text, Decimal.toString_toList, List.map_append]
    split <;> rfl
  rw [hmarked]
  split
  · next hneg => simpa [hneg] using hdigits.sign
  · next hpos => simpa [hpos] using hdigits

/-- A column is nothing but names with a dot between them. -/
theorem Marks.reference {ctx : Context} {name : String} (hname : ctx.identQuote ≠ "" ∨ name ≠ "")
    (qualifier : Option String) :
    Marks (Token.marked ctx (Token.reference qualifier name)) false false := by
  refine .of_plain (Token.isPlain_marked ?_) ?_
  · cases qualifier <;> simp [Token.reference, Token.isQuiet]
  · have hne : Token.text ctx (.ident name) ≠ "" := by
      obtain hquote | hname := hname
      all_goals simp [Token.text, Text.wrapped, *]
    cases qualifier <;> simp [Token.reference, Token.marked, hne]

namespace Calculation

/-- How the text of a calculation starts, and whether it has two signs one behind the other. -/
theorem marks {ctx : Context} (c : Calculation)
    (hnamed : ctx.identQuote ≠ "" ∨ c.isNamed = true) :
    Marks (Token.marked ctx (c.tokens ctx)) c.startsSigned c.doublesSign := by
  induction c with
  | column name source aliasName =>
    refine .declared (.reference ?_ _) (ctx.isQuiet_of_mem_declaredTokens aliasName)
    simpa [isNamed] using hnamed
  | constant n mayBind aliasName =>
    exact .declared (.int ctx n) (ctx.isQuiet_of_mem_aliasTokens aliasName)
  | operation op left right aliasName ihl ihr =>
    rw [isNamed, Bool.and_eq_true, or_and_left] at hnamed
    obtain ⟨hleft, hright⟩ := hnamed
    have hl := (ihl hleft).enclosed (op.bracketsLeft left.op?)
    have hr := (ihr hright).enclosed (op.bracketsRight right.op?)
    have hoperation := hl.operation hr op
    rw [← Token.marked_operator, ← Token.marked_append, ← Bool.and_assoc] at hoperation
    exact hoperation.declared (ctx.isQuiet_of_mem_declaredTokens aliasName)
  | opposite operand aliasName ih =>
    have hsign := (ih hnamed).sign
    have hminus : minusMark :: _ = _ := (Token.marked_operator ctx .sub (operand.tokens ctx)).symm
    rwa [hminus] at hsign

/-- Where no value is bound, a calculation of columns and whole numbers is written, whatever has
    been bound before, and there is a comment in its text exactly where a minus sign stands right
    before another one: in a difference whose right operand starts with a sign and has no
    parentheses, and in a negative whose operand starts with one. Never does a star come behind a
    slash. -/
theorem opens_comment (c : Calculation) {ctx : Context} (hplain : ctx.binding = false)
    (hnamed : ctx.identQuote ≠ "" ∨ c.isNamed = true) :
    ∃ ts : List Token, (∀ p : Parameters, (c.term.draft ctx).finish p = (.ok ts, p)) ∧
      (Token.marked ctx ts).map Prod.fst = (Token.texts ctx ts).toList ∧
        ([minusMark, minusMark] <:+: Token.marked ctx ts ↔ c.doublesSign = true) ∧
          ¬ [slashMark, starMark] <:+: Token.marked ctx ts := by
  refine ⟨c.tokens ctx, ?_, Token.map_marked ctx _, (c.marks hnamed).doubled_iff,
    (c.marks hnamed).no_comment⟩
  intro p
  rw [draft_eq hplain]
  exact Draft.finish_tokens_eq _ p

/-- There is no comment in `a-(-1+b)/c`, but one in `a--3*b`. -/
theorem opens_comment_behind_difference :
    let column (name : String) : Calculation := .column name none none
    let sum : Calculation := .operation .add (.constant (-1) true none) (column "b") none
    let c : Calculation :=
      .operation .sub (column "a") (.operation .div sum (column "c") (some "x")) (some "y")
    let d : Calculation :=
      .operation .sub (column "a") (.operation .mul (.opposite (.constant 3 true none) none)
        (column "b") none) none
    let ctx := Context.ofDialect .mysql
    ctx.binding = false ∧ ctx.identQuote ≠ "" ∧
      (∃ ts : List Token, (∀ p : Parameters, (c.term.draft ctx).finish p = (.ok ts, p)) ∧
        ¬ [minusMark, minusMark] <:+: Token.marked ctx ts ∧
          ¬ [slashMark, starMark] <:+: Token.marked ctx ts) ∧
        ∃ ts : List Token, (∀ p : Parameters, (d.term.draft ctx).finish p = (.ok ts, p)) ∧
          [minusMark, minusMark] <:+: Token.marked ctx ts := by
  intro column sum c d ctx
  have hplain : ctx.binding = false := rfl
  have hquote : ctx.identQuote ≠ "" := by decide
  obtain ⟨ts, hts, -, hsigns, hstar⟩ := opens_comment c hplain (.inl hquote)
  obtain ⟨us, hus, -, hsigns', -⟩ := opens_comment d hplain (.inl hquote)
  refine ⟨hplain, hquote, ⟨ts, hts, ?_, hstar⟩, us, hus, hsigns'.2 (by decide)⟩
  rw [hsigns]
  decide

/-- The text of `a` less minus one goes on as a comment. -/
theorem difference_opens_comment :
    let t : Term :=
      ⟨.arithmetic .sub ⟨.field "a" none, none⟩ ⟨.value (.int (-1)) true, none⟩, none⟩
    let ctx := Context.ofDialect .generic
    ctx.binding = false ∧ (t.draft ctx).text ctx = .ok "\"a\"--1" ∧
      ∃ ts : List Token, (t.draft ctx).finish {} = (.ok ts, {}) ∧
        [minusMark, minusMark] <:+: Token.marked ctx ts := by
  intro t ctx
  let c : Calculation :=
    .operation .sub (.column "a" none none) (.constant (-1) true none) none
  have hfinish : (t.draft ctx).finish {} = (.ok (c.tokens ctx), {}) := by
    show (c.term.draft ctx).finish {} = _
    rw [draft_eq rfl]
    exact Draft.finish_tokens_eq _ {}
  have hmarked : Token.marked ctx (c.tokens ctx) =
      [('"', true), ('a', true), ('"', true)] ++ [minusMark, minusMark] ++ [('1', false)] := by
    decide +kernel
  exact ⟨rfl, by decide +kernel, c.tokens ctx, hfinish, _, _, hmarked.symm⟩

end Calculation

end SqlCompose
