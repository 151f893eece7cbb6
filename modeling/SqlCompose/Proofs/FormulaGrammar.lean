import Mathlib.Algebra.Field.Rat
import SqlCompose.Proofs.Criterion
import SqlCompose.Render

/-! # The grammar of formulas — sums, products, signs and parentheses

    Operands of a formula stand in parentheses by two tables, one for each side, and a right operand
    under `+` or `*` mostly does without them. A minus sign is written in front of its operand and
    never puts it in parentheses. What is written is read by the grammar that everyone knows: a sign
    binds tighter than a product and a product tighter than a sum, both go on to the right, and
    parentheses group. A formula without signs is a formula, so there is one grammar for all.

    * `SignedFormula`, `SignedFormula.value` — formulas over columns, and their values in rational
      numbers.
    * `SignedFormula.tokens`, `SignedFormula.Shapes` — how they are written, and of which terms.
    * `SignedFormula.Derives` — the grammar.
    * `SignedFormula.Reader`, `Derives.read?_eq` — a reader that takes one token after the other
      finds every derivation, so no text has two. -/

namespace SqlCompose

open Draft

/-! ## Operators -/

namespace ArithmeticOp

/-- The value of an operation. What is divided by zero is zero. -/
def value : ArithmeticOp → ℚ → ℚ → ℚ
  | add, x, y => x + y
  | sub, x, y => x - y
  | mul, x, y => x * y
  | div, x, y => x / y

/-- What is added in front of a sum or a difference may be added to its first operand. -/
theorem value_add {op : ArithmeticOp} (h : op.isAdditive = true) (x y z : ℚ) :
    op.value (x + y) z = x + op.value y z := by
  cases op with
  | add => exact add_assoc x y z
  | sub => exact add_sub_assoc x y z
  | mul => exact nomatch h
  | div => exact nomatch h

/-- What is multiplied in front of a product or a quotient may be multiplied to its first operand;
    a quotient by zero is no exception. -/
theorem value_mul {op : ArithmeticOp} (h : op.isAdditive = false) (x y z : ℚ) :
    op.value (x * y) z = x * op.value y z := by
  cases op with
  | add => exact nomatch h
  | sub => exact nomatch h
  | mul => exact mul_assoc x y z
  | div => exact mul_div_assoc x y z

/-- The operator with this sign. -/
def ofText? : String → Option ArithmeticOp
  | "+" => some add
  | "-" => some sub
  | "*" => some mul
  | "/" => some div
  | _ => none

/-- An operator is known by its sign. -/
theorem ofText?_text (op : ArithmeticOp) : ofText? op.text = some op := by
  cases op <;> rfl

/-- The left operand of a product or a quotient stands in parentheses if it is a sum. -/
theorem bracketsLeft_eq (op : ArithmeticOp) (left : Option ArithmeticOp) :
    op.bracketsLeft left = (!op.isAdditive && left.any isAdditive) := by
  cases left with
  | none => exact (Bool.and_false _).symm
  | some other => rfl

/-- Behind `+` nothing is enclosed. -/
theorem bracketsRight_add (right : Option ArithmeticOp) : add.bracketsRight right = false := by
  cases right <;> rfl

/-- Behind `-` sums and differences are. -/
theorem bracketsRight_sub (right : Option ArithmeticOp) :
    sub.bracketsRight right = right.any isAdditive := by
  cases right <;> rfl

/-- Behind `*` sums and differences are too. -/
theorem bracketsRight_mul (right : Option ArithmeticOp) :
    mul.bracketsRight right = right.any isAdditive := by
  cases right <;> rfl

end ArithmeticOp

/-! ## Formulas -/

/-- A formula over columns, each with what qualifies it or nothing. -/
inductive SignedFormula
  | column (qualifier : Option String) (name : String)
  | operation (op : ArithmeticOp) (left right : SignedFormula)
  | opposite (operand : SignedFormula)
deriving DecidableEq

namespace SignedFormula

/-- Values of columns. -/
abbrev Assignment := Option String → String → ℚ

/-- The value of a formula where columns have these values. -/
def value (env : Assignment) : SignedFormula → ℚ
  | column qualifier name => env qualifier name
  | operation op left right => op.value (left.value env) (right.value env)
  | opposite operand => -operand.value env

/-- The operator at the top of a formula; a sign is none. -/
def op? : SignedFormula → Option ArithmeticOp
  | operation op _ _ => some op
  | _ => none

/-- Whether the formula is a sum or a difference. -/
def isSum (f : SignedFormula) : Bool := f.op?.any ArithmeticOp.isAdditive

/-- What is left without the signs in front. -/
def core : SignedFormula → SignedFormula
  | opposite operand => operand.core
  | f => f

/-! ## Writing -/

/-- The tokens of a formula. -/
def tokens : SignedFormula → List Token
  | column qualifier name => Token.reference qualifier name
  | operation op left right =>
    enclosedIf (op.bracketsLeft left.op?) left.tokens ++
      .operator op.text :: enclosedIf (op.bracketsRight right.op?) right.tokens
  | opposite operand => .operator "-" :: operand.tokens

/-- The terms that a formula stands for: columns of any sources, by what qualifies them where they
    are written. Aliases do not matter where they are not declared, and that of a negative never
    is. -/
def Shapes (ctx : Context) : SignedFormula → Term → Prop
  | column qualifier name, t =>
    ∃ (source : Option Source) (aliasName : Option String),
      ctx.declaration aliasName = Draft.empty ∧ Source.qualifier? ctx source = qualifier ∧
        t = ⟨.field name source, aliasName⟩
  | operation op left right, t =>
    ∃ (l r : Term) (aliasName : Option String), ctx.declaration aliasName = Draft.empty ∧
      left.Shapes ctx l ∧ right.Shapes ctx r ∧ t = ⟨.arithmetic op l r, aliasName⟩
  | opposite operand, t =>
    ∃ (u : Term) (aliasName : Option String), operand.Shapes ctx u ∧ t = ⟨.negative u, aliasName⟩

/-- A formula and its term have the same operator at the top. -/
theorem Shapes.arithmeticOp?_eq {ctx : Context} {f : SignedFormula} {t : Term}
    (h : f.Shapes ctx t) : t.arithmeticOp? = f.op? := by
  cases f with
  | column qualifier name =>
    obtain ⟨source, aliasName, -, -, rfl⟩ := h
    rfl
  | operation op left right =>
    obtain ⟨l, r, aliasName, -, -, -, rfl⟩ := h
    rfl
  | opposite operand =>
    obtain ⟨u, aliasName, -, rfl⟩ := h
    rfl

/-- A term is written as the formula is that it stands for. -/
theorem Shapes.draft_eq {ctx : Context} {f : SignedFormula} {t : Term} (h : f.Shapes ctx t) :
    t.draft ctx = Draft.tokens f.tokens := by
  induction f generalizing t with
  | column qualifier name =>
    obtain ⟨source, aliasName, hnone, hqualifier, rfl⟩ := h
    show Source.qualifier ctx source ++ Draft.token (.ident name) ++ ctx.declaration aliasName = _
    rw [hnone, append_empty, Source.qualifier_eq_tokens, hqualifier]
    rfl
  | operation op left right ihl ihr =>
    obtain ⟨l, r, aliasName, hnone, hl, hr, rfl⟩ := h
    show Draft.parensIf (op.bracketsLeft l.arithmeticOp?) (l.draft ctx) ++
      Draft.tokens [.operator op.text] ++
        Draft.parensIf (op.bracketsRight r.arithmeticOp?) (r.draft ctx) ++
          ctx.declaration aliasName = _
    rw [hnone, ihl hl, ihr hr, hl.arithmeticOp?_eq, hr.arithmeticOp?_eq, parensIf_tokens,
      parensIf_tokens, tokens_append, tokens_append, Draft.append_empty, List.append_assoc]
    rfl
  | opposite operand ih =>
    obtain ⟨u, aliasName, hu, rfl⟩ := h
    show Draft.tokens [.operator "-"] ++ u.draft ctx = _
    rw [ih hu, tokens_append]
    rfl

/-! ## The grammar -/

/-- What a text may be read as. -/
inductive Rank
  | sum | product | factor

/-- The texts of each rank and their trees. A sum is a product or goes on behind a sum, a product is
    a factor or goes on behind a product, and a factor is a column, stands in parentheses or has a
    sign in front of it. -/
inductive Derives : Rank → List Token → SignedFormula → Prop
  | column (qualifier : Option String) (name : String) :
      Derives .factor (Token.reference qualifier name) (.column qualifier name)
  | parens {ts : List Token} {f : SignedFormula} :
      Derives .sum ts f → Derives .factor (.lparen :: (ts ++ [.rparen])) f
  | minus {ts : List Token} {f : SignedFormula} :
      Derives .factor ts f → Derives .factor (.operator "-" :: ts) (.opposite f)
  | factor {ts : List Token} {f : SignedFormula} : Derives .factor ts f → Derives .product ts f
  | multiplied {op : ArithmeticOp} {ts us : List Token} {f g : SignedFormula} :
      op.isAdditive = false → Derives .product ts f → Derives .factor us g →
        Derives .product (ts ++ .operator op.text :: us) (.operation op f g)
  | product {ts : List Token} {f : SignedFormula} : Derives .product ts f → Derives .sum ts f
  | added {op : ArithmeticOp} {ts us : List Token} {f g : SignedFormula} :
      op.isAdditive = true → Derives .sum ts f → Derives .product us g →
        Derives .sum (ts ++ .operator op.text :: us) (.operation op f g)

/-! ## The reader -/

/-- A formula with as many signs in front of it. -/
def signed : Nat → SignedFormula → SignedFormula
  | 0, f => f
  | n + 1, f => signed n (opposite f)

/-- A formula behind an operator that has been read. -/
def behind : Option (SignedFormula × ArithmeticOp) → SignedFormula → SignedFormula
  | none, f => f
  | some (before, op), f => operation op before f

/-- A level of parentheses, as far as it has been read: the sum and, behind it, the product that go
    on, each with the operator behind it, and the number of signs in front of the next operand. -/
structure Level where
  sum     : Option (SignedFormula × ArithmeticOp) := none
  product : Option (SignedFormula × ArithmeticOp) := none
  signs   : Nat := 0

namespace Level

/-- The product that the level goes on with, if nothing else belongs to it behind this operand. -/
def multiplied (level : Level) (operand : SignedFormula) : SignedFormula :=
  behind level.product (signed level.signs operand)

/-- The formula that the level is, if nothing comes behind this operand. -/
def closed (level : Level) (operand : SignedFormula) : SignedFormula :=
  behind level.sum (level.multiplied operand)

end Level

/-- A text that is being read: the levels around, the innermost first, the level, what qualifies the
    next column, and the operand that has been read, without its signs. -/
structure Reader where
  around    : List Level := []
  level     : Level := {}
  qualifier : Option String := none
  operand   : Option SignedFormula := none

namespace Reader

/-- Reads one token. -/
def step (r : Reader) : Token → Option Reader
  | .ident name =>
    match r.operand with
    | none => some ⟨r.around, r.level, none, some (.column r.qualifier name)⟩
    | some _ => none
  | .dot =>
    match r.operand with
    | some (.column none qualifier) => some ⟨r.around, r.level, some qualifier, none⟩
    | _ => none
  | .lparen =>
    match r.operand with
    | none => some { around := r.level :: r.around }
    | some _ => none
  | .rparen =>
    match r.around, r.operand with
    | outer :: around, some f => some ⟨around, outer, none, some (r.level.closed f)⟩
    | _, _ => none
  | .operator text =>
    match r.operand, ArithmeticOp.ofText? text with
    | some f, some op =>
      if op.isAdditive then some ⟨r.around, ⟨some (r.level.closed f, op), none, 0⟩, none, none⟩
      else some ⟨r.around, ⟨r.level.sum, some (r.level.multiplied f, op), 0⟩, none, none⟩
    | none, some .sub => some ⟨r.around, { r.level with signs := r.level.signs + 1 }, none, none⟩
    | _, _ => none
  | _ => none

/-- Reads tokens one after the other. -/
def run (r : Reader) (ts : List Token) : Option Reader := ts.foldlM step r

/-- Two texts are read one after the other. -/
theorem run_append (r : Reader) (ts us : List Token) :
    r.run (ts ++ us) = (r.run ts).bind fun s => s.run us := List.foldlM_append

theorem run_cons (r : Reader) (t : Token) (ts : List Token) :
    r.run (t :: ts) = (r.step t).bind fun s => s.run ts := List.foldlM_cons

/-- A sum or a difference ends the product that was being read. -/
theorem step_additive {op : ArithmeticOp} (h : op.isAdditive = true) (around : List Level)
    (level : Level) (f : SignedFormula) :
    step ⟨around, level, none, some f⟩ (.operator op.text) =
      some ⟨around, ⟨some (level.closed f, op), none, 0⟩, none, none⟩ := by
  simp [step, op.ofText?_text, h]

/-- A product or a quotient goes on with the one that is being read. -/
theorem step_multiplicative {op : ArithmeticOp} (h : op.isAdditive = false) (around : List Level)
    (level : Level) (f : SignedFormula) :
    step ⟨around, level, none, some f⟩ (.operator op.text) =
      some ⟨around, ⟨level.sum, some (level.multiplied f, op), 0⟩, none, none⟩ := by
  simp [step, op.ofText?_text, h]

end Reader

/-- Reads a formula; every parenthesis that is opened has to be closed. -/
def read? (ts : List Token) : Option SignedFormula :=
  match Reader.run {} ts with
  | some ⟨[], level, none, some f⟩ => some (level.closed f)
  | _ => none

/-- What the reader makes of a text: of a factor the operand with its signs, of a product what goes
    on behind the sum of the level, and of a sum the whole level. -/
def Reads : Rank → List Token → SignedFormula → Prop
  | .factor, ts, f => ∀ (around : List Level) (level : Level),
      ∃ (signs : Nat) (operand : SignedFormula),
        Reader.run ⟨around, level, none, none⟩ ts =
            some ⟨around, { level with signs := signs }, none, some operand⟩ ∧
          signed signs operand = signed level.signs f
  | .product, ts, f => ∀ (around : List Level) (sum : Option (SignedFormula × ArithmeticOp)),
      ∃ (product : Option (SignedFormula × ArithmeticOp)) (signs : Nat) (operand : SignedFormula),
        Reader.run ⟨around, ⟨sum, none, 0⟩, none, none⟩ ts =
            some ⟨around, ⟨sum, product, signs⟩, none, some operand⟩ ∧
          behind product (signed signs operand) = f
  | .sum, ts, f => ∀ around : List Level,
      ∃ (level : Level) (operand : SignedFormula),
        Reader.run ⟨around, {}, none, none⟩ ts = some ⟨around, level, none, some operand⟩ ∧
          level.closed operand = f

/-- The reader finds every derivation. -/
theorem Derives.reads {rank : Rank} {ts : List Token} {f : SignedFormula}
    (h : Derives rank ts f) : Reads rank ts f := by
  -- the reader is at any level of nesting: what is read ends at the operand that is still open,
  -- and closing it gives the formula
  induction h with
  | column qualifier name =>
    intro around level
    cases qualifier with
    | none => exact ⟨level.signs, _, rfl, rfl⟩
    | some qualifier => exact ⟨level.signs, _, rfl, rfl⟩
  | @parens ts f _ ih =>
    intro around level
    obtain ⟨inner, operand, hrun, hclosed⟩ := ih (level :: around)
    refine ⟨level.signs, f, ?_, rfl⟩
    rw [Reader.run_cons]
    show Reader.run ⟨level :: around, {}, none, none⟩ (ts ++ [.rparen]) = _
    rw [Reader.run_append, hrun, ← hclosed]
    rfl
  | minus _ ih =>
    intro around level
    exact ih around { level with signs := level.signs + 1 }
  | factor _ ih =>
    intro around sum
    obtain ⟨signs, operand, hrun, hsigned⟩ := ih around ⟨sum, none, 0⟩
    exact ⟨none, signs, operand, hrun, hsigned⟩
  | @multiplied op ts us f g hop _ _ ihf ihg =>
    intro around sum
    obtain ⟨product, signs, operand, hrun, hbehind⟩ := ihf around sum
    obtain ⟨signs', operand', hrun', hsigned⟩ := ihg around ⟨sum, some (f, op), 0⟩
    refine ⟨some (f, op), signs', operand', ?_, congrArg (operation op f) hsigned⟩
    rw [Reader.run_append, hrun]
    show Reader.run ⟨around, ⟨sum, product, signs⟩, none, some operand⟩
      (.operator op.text :: us) = _
    rw [Reader.run_cons, Reader.step_multiplicative hop, Level.multiplied, hbehind]
    exact hrun'
  | product _ ih =>
    intro around
    obtain ⟨product, signs, operand, hrun, hbehind⟩ := ih around none
    exact ⟨⟨none, product, signs⟩, operand, hrun, hbehind⟩
  | @added op ts us f g hop _ _ ihf ihg =>
    intro around
    obtain ⟨level, operand, hrun, hclosed⟩ := ihf around
    obtain ⟨product, signs, last, hrun', hbehind⟩ := ihg around (some (f, op))
    refine ⟨⟨some (f, op), product, signs⟩, last, ?_, congrArg (operation op f) hbehind⟩
    rw [Reader.run_append, hrun]
    show Reader.run ⟨around, level, none, some operand⟩ (.operator op.text :: us) = _
    rw [Reader.run_cons, Reader.step_additive hop, hclosed]
    exact hrun'

/-- What can be derived is read. -/
theorem Derives.read?_eq {ts : List Token} {f : SignedFormula} (h : Derives .sum ts f) :
    read? ts = some f := by
  obtain ⟨level, operand, hrun, hclosed⟩ := h.reads []
  have hrun : Reader.run {} ts = some ⟨[], level, none, some operand⟩ := hrun
  simp only [read?]
  rw [hrun]
  exact congrArg some hclosed

/-- No text has two derivations. -/
theorem Derives.unique {ts : List Token} {f g : SignedFormula} (hf : Derives .sum ts f)
    (hg : Derives .sum ts g) : g = f := by
  have hread := hg.read?_eq
  rw [hf.read?_eq] at hread
  exact Option.some.inj hread.symm

end SignedFormula

end SqlCompose
