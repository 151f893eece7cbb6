import SqlCompose.Proofs.SignReading

/-! # Arithmetic — the tree that is read of a formula, and what it is worth

    A right operand under `+` or `*` mostly does without parentheses. What is written is then
    another tree to who reads it: the formula is put together again from the left. It has the same
    value.

    * `Formula` — formulas without signs, over columns that nothing qualifies; `Formula.signed` has
      each of them among the formulas of the grammar.
    * `Formula.regroup`, `Formula.derives_regroup` — the tree that is read of what is written.
    * `Formula.value_of_written` — what is written of a formula is read with its value. -/

namespace SqlCompose

open Draft

/-- A formula over columns that nothing qualifies, without signs. -/
inductive Formula
  | column (name : String)
  | operation (op : ArithmeticOp) (left right : Formula)
deriving DecidableEq

namespace Formula

open SignedFormula (Rank Derives)

/-! ## Among formulas with signs -/

/-- The formula as one of those that may have signs and columns with something in front of them. -/
def signed : Formula → SignedFormula
  | column name => .column none name
  | operation op left right => .operation op left.signed right.signed

/-- Different formulas stay different. -/
theorem signed_injective {f g : Formula} (h : f.signed = g.signed) : f = g := by
  induction f generalizing g with
  | column name =>
    cases g with
    | column other =>
      obtain ⟨-, rfl⟩ := SignedFormula.column.inj h
      rfl
    | operation op l r => cases h
  | operation op l r ihl ihr =>
    cases g with
    | column other => cases h
    | operation other l' r' =>
      obtain ⟨rfl, hl, hr⟩ := SignedFormula.operation.inj h
      rw [ihl hl, ihr hr]

/-- The value of a formula where columns have these values. -/
def value (env : String → ℚ) (f : Formula) : ℚ := f.signed.value fun _ => env

/-- The operator at the top of a formula. -/
def op? (f : Formula) : Option ArithmeticOp := f.signed.op?

/-- Whether the formula is a sum or a difference. -/
def isSum (f : Formula) : Bool := f.signed.isSum

/-- The tokens of a formula. -/
def tokens (f : Formula) : List Token := f.signed.tokens

/-- The terms that a formula stands for: aliases do not matter where they are not declared, and
    sources do not where nothing is written of them. -/
def Shapes (ctx : Context) (f : Formula) (t : Term) : Prop := f.signed.Shapes ctx t

/-- No sign is in front of a formula. -/
theorem core_signed (f : Formula) : f.signed.core = f.signed := by
  cases f <;> rfl

/-- A formula has no signs, so that they reach. -/
theorem signsReach_signed (f : Formula) : f.signed.signsReach = true := by
  induction f with
  | column name => rfl
  | operation op l r ihl ihr =>
    show (l.signed.signsReach && r.signed.signsReach &&
      (op != .div || r.signed.op?.isSome || r.signed.core.op?.isNone)) = true
    rw [ihl, ihr, core_signed]
    cases r.signed.op? <;> simp

/-! ## The tree that is read -/

/-- Whether a right operand without parentheses goes on with what stands before the operator, as a
    sum does behind `+` and a product behind `*`. -/
def goesOn (op : ArithmeticOp) (right : Formula) : Bool :=
  match op with
  | .add => right.isSum
  | .mul => !right.isSum
  | _ => false

/-- A formula behind an operator that has been read. -/
def behind : Option (Formula × ArithmeticOp) → Formula → Formula
  | none, f => f
  | some (before, op), f => operation op before f

/-- The tree that is read of a formula, with what has been read in front of it and goes with its
    first operand. -/
def regroup (front : Option (Formula × ArithmeticOp)) : Formula → Formula
  | column name => behind front (column name)
  | operation op left right =>
    let first :=
      if left.isSum = op.isAdditive then left.regroup front else behind front (left.regroup none)
    if goesOn op right then right.regroup (some (first, op))
    else operation op first (right.regroup none)

/-- What goes with the first operand of a sum or of a product: nothing, or what has been read of
    that rank with an operator behind it. -/
inductive Leads : Rank → List Token → Option (Formula × ArithmeticOp) → Prop
  | nothing (rank : Rank) : Leads rank [] none
  | added {op : ArithmeticOp} {ts : List Token} {b : Formula} :
      op.isAdditive = true → Derives .sum ts b.signed →
        Leads .sum (ts ++ [.operator op.text]) (some (b, op))
  | multiplied {op : ArithmeticOp} {ts : List Token} {b : Formula} :
      op.isAdditive = false → Derives .product ts b.signed →
        Leads .product (ts ++ [.operator op.text]) (some (b, op))

namespace Leads

variable {before us : List Token} {front : Option (Formula × ArithmeticOp)} {f : Formula}

/-- A product goes on with what leads a sum. -/
theorem sum (h : Leads .sum before front) (hf : Derives .product us f.signed) :
    Derives .sum (before ++ us) (behind front f).signed := by
  cases h with
  | nothing => exact .product hf
  | added hop hb =>
    rw [List.append_assoc]
    exact .added hop hb hf

/-- A factor goes on with what leads a product. -/
theorem product (h : Leads .product before front) (hf : Derives .factor us f.signed) :
    Derives .product (before ++ us) (behind front f).signed := by
  cases h with
  | nothing => exact .factor hf
  | multiplied hop hb =>
    rw [List.append_assoc]
    exact .multiplied hop hb hf

end Leads

/-- How a formula is read without parentheses: what leads it goes with its first operand. -/
structure Regroups (f : Formula) : Prop where
  sum     : f.isSum = true → ∀ {before : List Token} {front : Option (Formula × ArithmeticOp)},
    Leads .sum before front → Derives .sum (before ++ f.tokens) (f.regroup front).signed
  product : f.isSum = false → ∀ {before : List Token} {front : Option (Formula × ArithmeticOp)},
    Leads .product before front → Derives .product (before ++ f.tokens) (f.regroup front).signed

namespace Regroups

variable {f : Formula} {op : ArithmeticOp} {before ts : List Token} {b : Formula}
  {front : Option (Formula × ArithmeticOp)}

/-- A formula by itself is read as it is regrouped. -/
theorem alone (h : f.Regroups) : Derives .sum f.tokens (f.regroup none).signed := by
  cases hsum : f.isSum with
  | true => exact h.sum hsum (.nothing .sum)
  | false => exact .product (h.product hsum (.nothing .product))

/-- And so it is between parentheses. -/
theorem enclosed (h : f.Regroups) :
    Derives .factor (enclosedIf true f.tokens) (f.regroup none).signed :=
  .parens h.alone

/-- The first operand of a sum. -/
theorem first_added (h : f.Regroups) (hlead : Leads .sum before front) :
    Derives .sum (before ++ f.tokens)
      (if f.isSum = true then f.regroup front else behind front (f.regroup none)).signed := by
  cases hsum : f.isSum with
  | true => exact h.sum hsum hlead
  | false => exact hlead.sum (h.product hsum (.nothing .product))

/-- The first operand of a product stands in parentheses if it is a sum. -/
theorem first_multiplied (h : f.Regroups) (hlead : Leads .product before front) :
    Derives .product (before ++ enclosedIf f.isSum f.tokens)
      (if f.isSum = false then f.regroup front else behind front (f.regroup none)).signed := by
  cases hsum : f.isSum with
  | true => exact hlead.product h.enclosed
  | false => exact h.product hsum hlead

/-- The right operand of a sum or a difference. -/
theorem right_added (h : f.Regroups) (hop : op.isAdditive = true) (hb : Derives .sum ts b.signed) :
    Derives .sum (ts ++ .operator op.text :: enclosedIf (op.bracketsRight f.op?) f.tokens)
      (if goesOn op f then f.regroup (some (b, op))
        else operation op b (f.regroup none)).signed := by
  have hlead : Leads .sum (ts ++ [.operator op.text]) (some (b, op)) := .added hop hb
  cases op with
  | add =>
    rw [ArithmeticOp.bracketsRight_add]
    have hright := h.first_added hlead
    rw [List.append_assoc] at hright
    exact hright
  | sub =>
    rw [ArithmeticOp.bracketsRight_sub]
    show Derives .sum (ts ++ _ :: enclosedIf f.isSum f.tokens) _
    cases hsum : f.isSum with
    | true => exact .added hop hb (.factor h.enclosed)
    | false => exact .added hop hb (h.product hsum (.nothing .product))
  | mul => exact nomatch hop
  | div => exact nomatch hop

/-- The right operand of a product or a quotient. -/
theorem right_multiplied (h : f.Regroups) (hop : op.isAdditive = false)
    (hb : Derives .product ts b.signed) :
    Derives .product (ts ++ .operator op.text :: enclosedIf (op.bracketsRight f.op?) f.tokens)
      (if goesOn op f then f.regroup (some (b, op))
        else operation op b (f.regroup none)).signed := by
  cases op with
  | add => exact nomatch hop
  | sub => exact nomatch hop
  | mul =>
    rw [ArithmeticOp.bracketsRight_mul]
    show Derives .product (ts ++ _ :: enclosedIf f.isSum f.tokens)
      (if !f.isSum then f.regroup (some (b, .mul)) else operation .mul b (f.regroup none)).signed
    cases hsum : f.isSum with
    | true => exact .multiplied rfl hb h.enclosed
    | false =>
      have hright := h.product hsum (.multiplied hop hb)
      rw [List.append_assoc] at hright
      exact hright
  | div =>
    cases f with
    | column name => exact .multiplied rfl hb (.column none name)
    | operation other l r => exact .multiplied rfl hb h.enclosed

end Regroups

/-- What leads a formula goes with its first operand. -/
theorem regroups (f : Formula) : f.Regroups := by
  induction f with
  | column name =>
    refine ⟨(nomatch ·), ?_⟩
    intro _ before front hlead
    exact hlead.product (.column none name)
  | operation op l r ihl ihr =>
    -- a sum goes on with the sum around it, and a product with the product
    refine ⟨?_, ?_⟩
    · intro hsum before front hlead
      have hop : op.isAdditive = true := hsum
      have hplain : op.bracketsLeft l.op? = false := by
        rw [ArithmeticOp.bracketsLeft_eq, hop]
        rfl
      have hwhole := ihr.right_added hop (ihl.first_added hlead)
      rw [List.append_assoc] at hwhole
      show Derives .sum (before ++ (enclosedIf (op.bracketsLeft l.op?) l.tokens ++ _)) _
      rw [hplain, regroup, hop]
      exact hwhole
    · intro hsum before front hlead
      have hop : op.isAdditive = false := hsum
      have hbrackets : op.bracketsLeft l.op? = l.isSum := by
        rw [ArithmeticOp.bracketsLeft_eq, hop]
        rfl
      have hwhole := ihr.right_multiplied hop (ihl.first_multiplied hlead)
      rw [List.append_assoc] at hwhole
      show Derives .product (before ++ (enclosedIf (op.bracketsLeft l.op?) l.tokens ++ _)) _
      rw [hbrackets, regroup, hop]
      exact hwhole

/-- What is read of a formula. -/
theorem derives_regroup (f : Formula) : Derives .sum f.tokens (f.regroup none).signed :=
  f.regroups.alone

/-! ## The theorem -/

/-- **Precedence survives writing.** Let a formula over columns be written in any context. The
    writing does not stop, binds nothing and gives tokens that have one and only one derivation,
    even if there might be signs. It is that of a formula without signs, and is worth what the
    formula is, whichever values the columns have. -/
theorem value_of_written {ctx : Context} {f : Formula} {t : Term} (ht : f.Shapes ctx t) :
    ∃ ts : List Token, (∀ p : Parameters, (t.draft ctx).finish p = (.ok ts, p)) ∧
      ∃ g : Formula, Derives .sum ts g.signed ∧ (∀ g', Derives .sum ts g' → g' = g.signed) ∧
        ∀ env : String → ℚ, g.value env = f.value env := by
  have hderives := f.derives_regroup
  obtain ⟨g, hg, hvalue⟩ := (SignedFormula.isWritten f.signsReach_signed).sum
  obtain rfl : g = (f.regroup none).signed := hderives.unique hg
  refine ⟨f.tokens, ?_, f.regroup none, hderives, fun g' hg' => hderives.unique hg', ?_⟩
  · intro p
    rw [SignedFormula.Shapes.draft_eq ht]
    exact Draft.finish_tokens_eq f.tokens p
  · intro env
    exact hvalue fun _ => env

/-- `a*(b/c)-(d+e)` loses the parentheses behind `*` and keeps those behind `-`. -/
theorem value_of_written_difference :
    let f : Formula :=
      .operation .sub (.operation .mul (.column "a") (.operation .div (.column "b") (.column "c")))
        (.operation .add (.column "d") (.column "e"))
    let ctx := Context.ofDialect .sqlite
    ∃ t : Term, f.Shapes ctx t ∧ ∃ ts : List Token,
      (∀ p : Parameters, (t.draft ctx).finish p = (.ok ts, p)) ∧
        ∃ g : Formula, g ≠ f ∧ Derives .sum ts g.signed ∧
          ∀ env : String → ℚ, g.value env = f.value env := by
  intro f ctx
  let column (name : String) : Term := ⟨.field name none, none⟩
  let t : Term :=
    ⟨.arithmetic .sub
      ⟨.arithmetic .mul (column "a") ⟨.arithmetic .div (column "b") (column "c"), some "n"⟩, none⟩
      ⟨.arithmetic .add (column "d") (column "e"), none⟩, none⟩
  have hcolumn : ∀ name, (Formula.column name).Shapes ctx (column name) :=
    fun name => ⟨none, none, rfl, rfl, rfl⟩
  have ht : f.Shapes ctx t := by
    refine ⟨_, _, none, rfl, ⟨_, _, none, rfl, hcolumn "a", ?_, rfl⟩, ?_, rfl⟩
    · exact ⟨_, _, some "n", rfl, hcolumn "b", hcolumn "c", rfl⟩
    · exact ⟨_, _, none, rfl, hcolumn "d", hcolumn "e", rfl⟩
  obtain ⟨ts, hts, g, hderives, -, hvalue⟩ := value_of_written ht
  refine ⟨t, ht, ts, hts, g, ?_, hderives, hvalue⟩
  -- the reader tells which tree it is
  have hfinish := hts {}
  rw [SignedFormula.Shapes.draft_eq ht, Draft.finish_tokens_eq] at hfinish
  obtain rfl : f.tokens = ts := Except.ok.inj (congrArg Prod.fst hfinish)
  have hread : SignedFormula.read? f.tokens = some (Formula.signed (.operation .sub
      (.operation .div (.operation .mul (.column "a") (.column "b")) (.column "c"))
        (.operation .add (.column "d") (.column "e")))) := by decide
  rw [hderives.read?_eq] at hread
  rw [signed_injective (Option.some.inj hread)]
  decide

end Formula

end SqlCompose
