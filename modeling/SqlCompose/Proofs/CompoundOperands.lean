import SqlCompose.Proofs.Criterion

/-! # Compound operands — combinations below operators that bind tighter

    A combination stands in parentheses where it is asked to, and only combinations and NOT ask for
    it. The other operators, comparisons and arithmetic among them, hand on to their operands what
    they were asked themselves.

    * `UnaryOp`, `BinaryOp`, `TernaryOp` — the operators that bind tighter than AND, OR and XOR, and
      the tokens that they write around their operands.
    * `Condition` — a tree of them and of combinations, over terms of any kind.
    * `Condition.tokens`, `Condition.bareOperands` — how it is written, and the number of
      combinations below other operators that are left without parentheses.
    * `Condition.Matches` — two trees that differ in their leaves.
    * `Condition.finish_term` — what is written of a tree of terms is that of a tree of tokens. -/

namespace SqlCompose

open Draft

/-- The context of an operand, that may be within parentheses already or be asked to be in them. -/
def Context.forOperand (ctx : Context) (nested asked : Bool) : Context :=
  { ctx with nested := nested, bracketed := asked }

/-! ## Operators -/

/-- Operators with one operand. -/
inductive UnaryOp
  | not | isNull | all
deriving DecidableEq

/-- Operators with two operands. -/
inductive BinaryOp
  | comparison (op : Comparator)
  | membership (negated : Bool)
  | arithmetic (op : ArithmeticOp)
deriving DecidableEq

/-- Operators with three operands. -/
inductive TernaryOp
  | chain (first second : Comparator)
  | between
deriving DecidableEq

namespace UnaryOp

/-- The expression of the operator. -/
def expr : UnaryOp → Term → Expr
  | not, t => .not t
  | isNull, t => .isNull t
  | all, t => .all t

/-- Whether the operand is asked to be in parentheses, where the operator is or is not. -/
def asks (asked : Bool) : UnaryOp → Bool
  | not => true
  | _ => asked

/-- The tokens in front of the operand. -/
def front : UnaryOp → List Token
  | not => [.keyword .not, .space]
  | _ => []

/-- The tokens behind the operand. -/
def back : UnaryOp → List Token
  | not => []
  | isNull => [.space, .keyword .isNull]
  | all => [.space, .keyword .all]

end UnaryOp

namespace BinaryOp

/-- The expression of the operator. -/
def expr : BinaryOp → Term → Term → Expr
  | comparison op, l, r => .comparison op l r
  | membership negated, l, r => .membership l r negated
  | arithmetic op, l, r => .arithmetic op l r

/-- The operator of arithmetic. -/
def arithmetic? : BinaryOp → Option ArithmeticOp
  | arithmetic op => some op
  | _ => none

/-- Whether the operator puts a left operand with this operator of arithmetic in parentheses. -/
def bracketsLeft (op : BinaryOp) (left : Option ArithmeticOp) : Bool :=
  op.arithmetic?.any (·.bracketsLeft left)

/-- Whether the operator puts a right operand with this operator of arithmetic in parentheses. -/
def bracketsRight (op : BinaryOp) (right : Option ArithmeticOp) : Bool :=
  op.arithmetic?.any (·.bracketsRight right)

/-- The tokens between the operands. -/
def sign : BinaryOp → List Token
  | comparison op => [.operator op.text]
  | membership negated =>
    .space :: ((if negated then [.keyword .not, .space] else []) ++ [.keyword .in_, .space])
  | arithmetic op => [.operator op.text]

/-- The tokens of an alias behind the operator. -/
def suffix (ctx : Context) (aliasName : Option String) : BinaryOp → List Token
  | membership _ => ctx.aliasTokens aliasName
  | _ => ctx.declaredTokens aliasName

end BinaryOp

namespace TernaryOp

/-- The expression of the operator. -/
def expr : TernaryOp → Term → Term → Term → Expr
  | chain first second, x, y, z => .chain first second x y z
  | between, x, y, z => .between x y z

/-- The tokens between the first two operands. -/
def firstSign : TernaryOp → List Token
  | chain first _ => [.operator first.text]
  | between => [.space, .keyword .between, .space]

/-- The tokens between the last two operands. -/
def secondSign : TernaryOp → List Token
  | chain _ second => [.operator second.text]
  | between => [.space, .keyword .and, .space]

/-- The tokens of an alias behind the operator. -/
def suffix (ctx : Context) (aliasName : Option String) : TernaryOp → List Token
  | chain _ _ => ctx.declaredTokens aliasName
  | between => ctx.aliasTokens aliasName

end TernaryOp

/-! ## Trees -/

/-- A tree of combinations and of operators that bind tighter, over leaves of some kind. -/
inductive Condition (α : Type)
  | leaf (x : α)
  | combination (op : Combinator) (left right : Condition α) (aliasName : Option String)
  | unary (op : UnaryOp) (operand : Condition α) (aliasName : Option String)
  | binary (op : BinaryOp) (left right : Condition α) (aliasName : Option String)
  | ternary (op : TernaryOp) (first second third : Condition α) (aliasName : Option String)

namespace Condition

variable {α β : Type}

/-- Whether there is a combinator at the top. -/
def isCompound : Condition α → Bool
  | combination .. => true
  | _ => false

/-- Whether there is another combinator at the top. -/
def differsFrom (op : Combinator) : Condition α → Bool
  | combination other .. => other != op
  | _ => false

/-- The operator of arithmetic at the top. -/
def arithmeticOp? : Condition α → Option ArithmeticOp
  | binary op .. => op.arithmetic?
  | _ => none

/-- What holds of every leaf. -/
def All (P : α → Prop) : Condition α → Prop
  | leaf x => P x
  | combination _ left right _ => left.All P ∧ right.All P
  | unary _ operand _ => operand.All P
  | binary _ left right _ => left.All P ∧ right.All P
  | ternary _ first second third _ => first.All P ∧ second.All P ∧ third.All P

/-- The term of a tree of terms. -/
def term : Condition Term → Term
  | leaf t => t
  | combination op left right aliasName => ⟨.combination op left.term right.term, aliasName⟩
  | unary op operand aliasName => ⟨op.expr operand.term, aliasName⟩
  | binary op left right aliasName => ⟨op.expr left.term right.term, aliasName⟩
  | ternary op first second third aliasName =>
    ⟨op.expr first.term second.term third.term, aliasName⟩

/-! ## Writing -/

/-- The tokens of a tree, where a combination is or is not asked to be in parentheses. -/
def tokens (ctx : Context) (asked : Bool) : Condition (List Token) → List Token
  | leaf ts => ts
  | combination op left right _ =>
    enclosedIf asked
      (left.tokens ctx (left.differsFrom op) ++
        .space :: .keyword op.keyword :: .space :: right.tokens ctx (right.differsFrom op))
  | unary op operand aliasName =>
    op.front ++ operand.tokens ctx (op.asks asked) ++ (op.back ++ ctx.aliasTokens aliasName)
  | binary op left right aliasName =>
    enclosedIf (op.bracketsLeft left.arithmeticOp?) (left.tokens ctx asked) ++ op.sign ++
      enclosedIf (op.bracketsRight right.arithmeticOp?) (right.tokens ctx asked) ++
      op.suffix ctx aliasName
  | ternary op first second third aliasName =>
    first.tokens ctx asked ++ op.firstSign ++ second.tokens ctx asked ++ op.secondSign ++
      third.tokens ctx asked ++ op.suffix ctx aliasName

/-- One for an operand that is a combination and not asked to be in parentheses. -/
def bare (asked : Bool) (operand : Condition α) : Nat :=
  if operand.isCompound && !asked then 1 else 0

/-- The number of combinations that stand without parentheses below operators that bind tighter. -/
def bareOperands (asked : Bool) : Condition α → Nat
  | leaf _ => 0
  | combination op left right _ =>
    left.bareOperands (left.differsFrom op) + right.bareOperands (right.differsFrom op)
  | unary op operand _ => operand.bare (op.asks asked) + operand.bareOperands (op.asks asked)
  | binary _ left right _ =>
    left.bare asked + left.bareOperands asked + (right.bare asked + right.bareOperands asked)
  | ternary _ first second third _ =>
    first.bare asked + first.bareOperands asked + (second.bare asked + second.bareOperands asked) +
      (third.bare asked + third.bareOperands asked)

/-! ## Trees that differ in their leaves -/

/-- The trees differ in their leaves alone, which are related. -/
inductive Matches (R : α → β → Prop) : Condition α → Condition β → Prop
  | leaf {x : α} {y : β} : R x y → Matches R (leaf x) (leaf y)
  | combination (op : Combinator) {l r : Condition α} {l' r' : Condition β}
      (aliasName : Option String) : Matches R l l' → Matches R r r' →
        Matches R (combination op l r aliasName) (combination op l' r' aliasName)
  | unary (op : UnaryOp) {x : Condition α} {x' : Condition β} (aliasName : Option String) :
      Matches R x x' → Matches R (unary op x aliasName) (unary op x' aliasName)
  | binary (op : BinaryOp) {l r : Condition α} {l' r' : Condition β} (aliasName : Option String) :
      Matches R l l' → Matches R r r' →
        Matches R (binary op l r aliasName) (binary op l' r' aliasName)
  | ternary (op : TernaryOp) {x y z : Condition α} {x' y' z' : Condition β}
      (aliasName : Option String) : Matches R x x' → Matches R y y' → Matches R z z' →
        Matches R (ternary op x y z aliasName) (ternary op x' y' z' aliasName)

namespace Matches

variable {R : α → β → Prop} {c : Condition α} {w : Condition β}

/-- Conditions that match are compound together. -/
theorem isCompound_eq (h : c.Matches R w) : c.isCompound = w.isCompound := by
  cases h <;> rfl

/-- They have the same operator at the top. -/
theorem differsFrom_eq (h : c.Matches R w) (op : Combinator) :
    c.differsFrom op = w.differsFrom op := by
  cases h <;> rfl

/-- They are operations together. -/
theorem arithmeticOp?_eq (h : c.Matches R w) : c.arithmeticOp? = w.arithmeticOp? := by
  cases h <;> rfl

/-- They have as many bare combinations. -/
theorem bare_eq (h : c.Matches R w) (asked : Bool) : c.bare asked = w.bare asked := by
  rw [bare, bare, h.isCompound_eq]

/-- And so do their operands. -/
theorem bareOperands_eq (h : c.Matches R w) (asked : Bool) :
    c.bareOperands asked = w.bareOperands asked := by
  induction h generalizing asked with
  | leaf => rfl
  | combination op aliasName hl hr ihl ihr =>
    simp only [bareOperands, ihl, ihr, hl.differsFrom_eq, hr.differsFrom_eq]
  | unary op aliasName hx ih => simp only [bareOperands, ih, hx.bare_eq]
  | binary op aliasName hl hr ihl ihr => simp only [bareOperands, ihl, ihr, hl.bare_eq, hr.bare_eq]
  | ternary op aliasName hx hy hz ihx ihy ihz =>
    simp only [bareOperands, ihx, ihy, ihz, hx.bare_eq, hy.bare_eq, hz.bare_eq]

/-- What holds of leaves holds of those that they are related to. -/
theorem all {P : α → Prop} {Q : β → Prop} (h : c.Matches R w) (hc : c.All P)
    (hleaf : ∀ x y, P x → R x y → Q y) : w.All Q := by
  induction h with
  | leaf hxy => exact hleaf _ _ hc hxy
  | combination op aliasName _ _ ihl ihr => exact ⟨ihl hc.1, ihr hc.2⟩
  | unary op aliasName _ ih => exact ih hc
  | binary op aliasName _ _ ihl ihr => exact ⟨ihl hc.1, ihr hc.2⟩
  | ternary op aliasName _ _ _ ihx ihy ihz => exact ⟨ihx hc.1, ihy hc.2.1, ihz hc.2.2⟩

end Matches

/-! ## Trees of terms -/

/-- Neither a combination nor an operation of arithmetic. -/
structure IsOperand (t : Term) : Prop where
  differsFrom   : ∀ op, t.differsFrom op = false
  arithmeticOp? : t.arithmeticOp? = none

/-- The term of a condition has the operator of the condition. -/
theorem differsFrom_term {c : Condition Term} (hc : c.All IsOperand) (op : Combinator) :
    c.term.differsFrom op = c.differsFrom op := by
  cases c with
  | leaf t => exact hc.differsFrom op
  | combination => rfl
  | unary other => cases other <;> rfl
  | binary other => cases other <;> rfl
  | ternary other => cases other <;> rfl

/-- And it is the same operation. -/
theorem arithmeticOp?_term {c : Condition Term} (hc : c.All IsOperand) :
    c.term.arithmeticOp? = c.arithmeticOp? := by
  cases c with
  | leaf t => exact hc.arithmeticOp?
  | combination => rfl
  | unary op => cases op <;> rfl
  | binary op => cases op <;> rfl
  | ternary op => cases op <;> rfl

/-- A combination is drafted between parentheses if it is asked into them. -/
theorem draft_combination (ctx : Context) (nested asked : Bool) (op : Combinator)
    (l r : Condition Term) (aliasName : Option String) :
    (combination op l r aliasName).term.draft (ctx.forOperand nested asked) =
      Draft.parensIf asked
        (l.term.draft (ctx.forOperand nested (l.term.differsFrom op)) ++
          Draft.tokens [.space, .keyword op.keyword, .space] ++
          r.term.draft (ctx.forOperand nested (r.term.differsFrom op))) := by
  show Draft.parensIf asked (_ ++ space ++ word op.keyword ++ space ++ _) = _
  rw [Draft.append_assoc (_ ++ space), Draft.append_assoc _ space]
  rfl

/-- A unary operator is drafted before and behind its operand. -/
theorem draft_unary (ctx : Context) (nested asked : Bool) (op : UnaryOp) (x : Condition Term)
    (aliasName : Option String) :
    (unary op x aliasName).term.draft (ctx.forOperand nested asked) =
      Draft.tokens op.front ++ x.term.draft (ctx.forOperand nested (op.asks asked)) ++
        Draft.tokens (op.back ++ ctx.aliasTokens aliasName) := by
  rw [← tokens_append, ← ctx.aliasDraft_eq_tokens, ← Draft.append_assoc]
  cases op with
  | not =>
    show _ = _ ++ Draft.empty ++ _
    rw [Draft.append_empty]
    rfl
  | isNull =>
    show _ ++ space ++ word .isNull ++ _ = _
    rw [Draft.append_assoc _ space]
    rfl
  | all =>
    show _ ++ space ++ word .all ++ _ = _
    rw [Draft.append_assoc _ space]
    rfl

/-- A binary operator is drafted between its operands, each in parentheses or not. -/
theorem draft_binary (ctx : Context) (nested asked : Bool) (op : BinaryOp) (l r : Condition Term)
    (aliasName : Option String) :
    ∃ within, (binary op l r aliasName).term.draft (ctx.forOperand nested asked) =
      Draft.parensIf (op.bracketsLeft l.term.arithmeticOp?)
          (l.term.draft (ctx.forOperand nested asked)) ++
        Draft.tokens op.sign ++
        Draft.parensIf (op.bracketsRight r.term.arithmeticOp?)
          (r.term.draft (ctx.forOperand within asked)) ++
        Draft.tokens (op.suffix ctx aliasName) := by
  cases op with
  | comparison op =>
    refine ⟨nested, ?_⟩
    show _ ++ (ctx.forOperand nested asked).declaration aliasName = _
    rw [Context.declaration_eq_tokens]
    rfl
  -- the container is enclosed whatever is asked of the whole
  | membership negated =>
    refine ⟨true, ?_⟩
    let left := l.term.draft (ctx.forOperand nested asked)
    show left ++ space ++ when negated (word .not ++ space) ++ word .in_ ++ space ++ _ ++
      ctx.aliasDraft aliasName = _
    rw [ctx.aliasDraft_eq_tokens, Draft.append_assoc left, Draft.append_assoc left,
      Draft.append_assoc left]
    cases negated <;> rfl
  | arithmetic op =>
    refine ⟨nested, ?_⟩
    show _ ++ (ctx.forOperand nested asked).declaration aliasName = _
    rw [Context.declaration_eq_tokens]
    rfl

/-- A ternary operator is drafted between its three operands. -/
theorem draft_ternary (ctx : Context) (nested asked : Bool) (op : TernaryOp)
    (x y z : Condition Term) (aliasName : Option String) :
    (ternary op x y z aliasName).term.draft (ctx.forOperand nested asked) =
      x.term.draft (ctx.forOperand nested asked) ++ Draft.tokens op.firstSign ++
        y.term.draft (ctx.forOperand nested asked) ++ Draft.tokens op.secondSign ++
        z.term.draft (ctx.forOperand nested asked) ++ Draft.tokens (op.suffix ctx aliasName) := by
  cases op with
  | chain first second =>
    show _ ++ (ctx.forOperand nested asked).declaration aliasName = _
    rw [Context.declaration_eq_tokens]
    rfl
  | between =>
    have hclause (k : Keyword) (a d : Draft) :
        a ++ clause [k] d = a ++ Draft.tokens [.space, .keyword k, .space] ++ d := by
      rw [Draft.append_assoc]
      rfl
    show _ ++ clause [.between] _ ++ clause [.and] _ ++ ctx.aliasDraft aliasName = _
    rw [ctx.aliasDraft_eq_tokens, hclause, hclause]
    rfl

/-- What is written of two drafts with tokens between them. -/
theorem finish_sign_ok {a b : Draft} {sign ts : List Token} {p p' : Parameters}
    (h : (a ++ Draft.tokens sign ++ b).finish p = (.ok ts, p')) :
    ∃ (us vs : List Token) (q : Parameters), a.finish p = (.ok us, q) ∧
      b.finish q = (.ok vs, p') ∧ ts = us ++ sign ++ vs := by
  obtain ⟨front, vs, q, hfront, hb, rfl⟩ := finish_append_ok h
  obtain ⟨us, signed, r, ha, hsign, rfl⟩ := finish_append_ok hfront
  rw [finish_tokens_eq] at hsign
  obtain ⟨hsigned, rfl⟩ := Prod.mk.inj hsign
  obtain rfl := Except.ok.inj hsigned
  exact ⟨us, vs, r, ha, hb, rfl⟩

/-- What is written of a draft with tokens behind it. -/
theorem finish_suffix_ok {d : Draft} {suffix ts : List Token} {p p' : Parameters}
    (h : (d ++ Draft.tokens suffix).finish p = (.ok ts, p')) :
    ∃ us : List Token, d.finish p = (.ok us, p') ∧ ts = us ++ suffix := by
  obtain ⟨us, behind, q, hd, hsuffix, rfl⟩ := finish_append_ok h
  rw [finish_tokens_eq] at hsuffix
  cases hsuffix
  exact ⟨us, hd, rfl⟩

/-- A term is written as these tokens somewhere below operators. -/
def LeafWritten (ctx : Context) (t : Term) (ts : List Token) : Prop :=
  ∃ (nested asked : Bool) (p p' : Parameters),
    (t.draft (ctx.forOperand nested asked)).finish p = (.ok ts, p')

/-- What is written of a tree of terms is what is written of the tree with each leaf replaced by its
    tokens. -/
theorem finish_term {ctx : Context} {c : Condition Term} (hc : c.All IsOperand)
    {nested asked : Bool} {p p' : Parameters} {ts : List Token}
    (h : (c.term.draft (ctx.forOperand nested asked)).finish p = (.ok ts, p')) :
    ∃ w : Condition (List Token), c.Matches (LeafWritten ctx) w ∧ ts = w.tokens ctx asked := by
  -- each operand is written in a context that the node above it chooses
  induction c generalizing nested asked p p' ts with
  | leaf t => exact ⟨.leaf ts, .leaf ⟨nested, asked, p, p', h⟩, rfl⟩
  | combination op l r aliasName ihl ihr =>
    rw [draft_combination, differsFrom_term hc.1, differsFrom_term hc.2] at h
    obtain ⟨body, hbody, rfl⟩ := finish_parensIf_ok h
    obtain ⟨us, vs, q, hus, hvs, rfl⟩ := finish_sign_ok hbody
    obtain ⟨l', hl, rfl⟩ := ihl hc.1 hus
    obtain ⟨r', hr, rfl⟩ := ihr hc.2 hvs
    refine ⟨.combination op l' r' aliasName, .combination op aliasName hl hr, ?_⟩
    rw [tokens, ← hl.differsFrom_eq, ← hr.differsFrom_eq, List.append_assoc]
    rfl
  | unary op x aliasName ih =>
    rw [draft_unary] at h
    obtain ⟨front, hfront, rfl⟩ := finish_suffix_ok h
    obtain ⟨before, us, q, hbefore, hus, rfl⟩ := finish_append_ok hfront
    rw [finish_tokens_eq] at hbefore
    cases hbefore
    obtain ⟨x', hx, rfl⟩ := ih hc hus
    exact ⟨.unary op x' aliasName, .unary op aliasName hx, rfl⟩
  | binary op l r aliasName ihl ihr =>
    obtain ⟨within, hdraft⟩ := draft_binary ctx nested asked op l r aliasName
    rw [hdraft, arithmeticOp?_term hc.1, arithmeticOp?_term hc.2] at h
    obtain ⟨front, hfront, rfl⟩ := finish_suffix_ok h
    obtain ⟨us, vs, q, hus, hvs, rfl⟩ := finish_sign_ok hfront
    obtain ⟨ls, hls, rfl⟩ := finish_parensIf_ok hus
    obtain ⟨rs, hrs, rfl⟩ := finish_parensIf_ok hvs
    obtain ⟨l', hl, rfl⟩ := ihl hc.1 hls
    obtain ⟨r', hr, rfl⟩ := ihr hc.2 hrs
    refine ⟨.binary op l' r' aliasName, .binary op aliasName hl hr, ?_⟩
    rw [tokens, ← hl.arithmeticOp?_eq, ← hr.arithmeticOp?_eq]
  | ternary op x y z aliasName ihx ihy ihz =>
    rw [draft_ternary] at h
    obtain ⟨front, hfront, rfl⟩ := finish_suffix_ok h
    obtain ⟨us, vs, q, hus, hvs, rfl⟩ := finish_sign_ok hfront
    obtain ⟨xs, ys, q', hxs, hys, rfl⟩ := finish_sign_ok hus
    obtain ⟨x', hx, rfl⟩ := ihx hc.1 hxs
    obtain ⟨y', hy, rfl⟩ := ihy hc.2.1 hys
    obtain ⟨z', hz, rfl⟩ := ihz hc.2.2 hvs
    exact ⟨.ternary op x' y' z' aliasName, .ternary op aliasName hx hy hz, rfl⟩

end Condition

end SqlCompose
