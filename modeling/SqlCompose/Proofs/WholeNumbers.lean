import SqlCompose.Proofs.Arithmetic

/-! # Whole numbers — what a formula is worth in integers, and what is read of how it is written

    In whole numbers a quotient is cut towards zero, so that it matters what is multiplied before it
    is divided. A quotient behind `*` stands without parentheses: `a*(b/c)` is written `a*b/c`,
    where the product is divided. In rational numbers that is the same, in whole numbers it is not.

    * `Formula.whole` — values of formulas in whole numbers.
    * `Formula.onward`, `Formula.whole_regroup` — what is read of a formula: factors are multiplied
      to what stands before them, one after the other, and quotients divide all of it.
    * `Formula.quotientsLead` — that no quotient is multiplied to anything.
    * `Formula.attains`, `Formula.exists_halved`, `Formula.isMisread` — columns may be given values
      so that any other formula is worth something else than what is read, if each stands once.
    * `Formula.whole_of_written` — the theorem. -/

namespace SqlCompose

open Draft

/-- The value of an operation in whole numbers. A quotient is cut towards zero, and what is divided
    by zero is zero. -/
def ArithmeticOp.whole : ArithmeticOp → ℤ → ℤ → ℤ
  | add, x, y => x + y
  | sub, x, y => x - y
  | mul, x, y => x * y
  | div, x, y => x.tdiv y

/-- What is read of an operation behind a factor with this value, given what is read of its
    operands. Products and quotients go on with what has been multiplied so far; a sum stands in
    parentheses. -/
def ArithmeticOp.onward : ArithmeticOp → (ℤ → ℤ) → (ℤ → ℤ) → ℤ → ℤ
  | add, left, right, n => n * (left 1 + right 1)
  | sub, left, right, n => n * (left 1 - right 1)
  | mul, left, right, n => right (left n)
  | div, left, right, n => (left n).tdiv (right 1)

namespace Formula

open SignedFormula (Derives)

/-- The value of a formula where columns have these whole numbers as values. -/
def whole (env : String → ℤ) : Formula → ℤ
  | column name => env name
  | operation op left right => op.whole (left.whole env) (right.whole env)

/-! ## The value of the tree -/

/-- The value that is read of a formula behind a factor with this value. -/
def onward (env : String → ℤ) : Formula → ℤ → ℤ
  | column name => (· * env name)
  | operation op left right => op.onward (left.onward env) (right.onward env)

/-- The value that is read of a formula, by itself and behind what it is added or multiplied to. -/
structure ReadsOnward (env : String → ℤ) (f : Formula) : Prop where
  alone      : (f.regroup none).whole env = f.onward env 1
  added      : f.isSum = true → ∀ b : Formula,
    (f.regroup (some (b, .add))).whole env = b.whole env + f.onward env 1
  multiplied : f.isSum = false → ∀ b : Formula,
    (f.regroup (some (b, .mul))).whole env = f.onward env (b.whole env)

/-- Behind a sum, what has been multiplied so far is multiplied to all of it. -/
theorem onward_sum {f : Formula} (h : f.isSum = true) (env : String → ℤ) (n : ℤ) :
    f.onward env n = n * f.onward env 1 := by
  cases f with
  | column name => exact nomatch h
  | operation op l r =>
    cases op with
    | add => exact congrArg (n * ·) (one_mul _).symm
    | sub => exact congrArg (n * ·) (one_mul _).symm
    | mul => exact nomatch h
    | div => exact nomatch h

namespace ReadsOnward

variable {env : String → ℤ} {f : Formula}

/-- The first operand of a sum is added to what stands in front, as far as it is multiplied. -/
theorem first_added (h : f.ReadsOnward env) (b : Formula) :
    (if f.isSum = true then f.regroup (some (b, .add))
      else behind (some (b, .add)) (f.regroup none)).whole env = b.whole env + f.onward env 1 := by
  cases hsum : f.isSum with
  | true => exact h.added hsum b
  | false => exact congrArg (b.whole env + ·) h.alone

/-- The first operand of a product goes on with the product in front. -/
theorem first_multiplied (h : f.ReadsOnward env) (b : Formula) :
    (if f.isSum = false then f.regroup (some (b, .mul))
      else behind (some (b, .mul)) (f.regroup none)).whole env = f.onward env (b.whole env) := by
  cases hsum : f.isSum with
  | true =>
    rw [onward_sum hsum]
    exact congrArg (b.whole env * ·) h.alone
  | false => exact h.multiplied hsum b

/-- The right operand of a sum or a difference is worth what is read of it. -/
theorem right_added (h : f.ReadsOnward env) {op : ArithmeticOp} (hop : op.isAdditive = true)
    (b : Formula) :
    (if goesOn op f then f.regroup (some (b, op))
      else operation op b (f.regroup none)).whole env =
        op.whole (b.whole env) (f.onward env 1) := by
  cases op with
  | add => exact h.first_added b
  | sub => exact congrArg (b.whole env - ·) h.alone
  | mul => exact nomatch hop
  | div => exact nomatch hop

/-- The right operand of a product goes on with what has been multiplied so far. -/
theorem right_multiplied (h : f.ReadsOnward env) (b : Formula) :
    (if goesOn .mul f then f.regroup (some (b, .mul))
      else operation .mul b (f.regroup none)).whole env = f.onward env (b.whole env) := by
  have hright := h.first_multiplied b
  show (if !f.isSum then f.regroup (some (b, .mul))
    else operation .mul b (f.regroup none)).whole env
    = _
  cases hsum : f.isSum with
  | true => rwa [hsum] at hright
  | false => rwa [hsum] at hright

end ReadsOnward

/-- What is read of a formula has this value. -/
theorem readsOnward (env : String → ℤ) (f : Formula) : f.ReadsOnward env := by
  induction f with
  | column name => exact ⟨(one_mul _).symm, fun h => absurd h Bool.false_ne_true, fun _ b => rfl⟩
  | operation op l r ihl ihr =>
    -- the first operand goes on with what is in front, and the right one with both
    have hfirst : (if l.isSum = op.isAdditive then l.regroup none
        else behind none (l.regroup none)).whole env = l.onward env 1 := by
      rw [show behind none (l.regroup none) = l.regroup none from rfl, ite_self]
      exact ihl.alone
    cases op with
    | add =>
      refine ⟨?_, ?_, fun h => absurd h.symm Bool.false_ne_true⟩
      · rw [regroup, ihr.right_added rfl, hfirst]
        exact (one_mul _).symm
      · intro _ b
        rw [regroup, ihr.right_added rfl]
        show (Formula.whole env (if l.isSum = true then _ else _)) + _ = _ + 1 * _
        rw [ihl.first_added b, one_mul, add_assoc]
    | sub =>
      refine ⟨?_, ?_, fun h => absurd h.symm Bool.false_ne_true⟩
      · rw [regroup, ihr.right_added rfl, hfirst]
        exact (one_mul _).symm
      · intro _ b
        rw [regroup, ihr.right_added rfl]
        show (Formula.whole env (if l.isSum = true then _ else _)) - _ = _ + 1 * _
        rw [ihl.first_added b, one_mul, add_sub_assoc]
    | mul =>
      refine ⟨?_, fun h => absurd h Bool.false_ne_true, ?_⟩
      · rw [regroup, ihr.right_multiplied, hfirst]
        rfl
      · intro _ b
        rw [regroup, ihr.right_multiplied]
        exact congrArg (r.onward env) (ihl.first_multiplied b)
    | div =>
      refine ⟨?_, fun h => absurd h Bool.false_ne_true, ?_⟩
      · exact congrArg₂ Int.tdiv hfirst ihr.alone
      · intro _ b
        exact congrArg₂ Int.tdiv (ihl.first_multiplied b) ihr.alone

/-- What is read of a formula has the value that its factors have one after the other. -/
theorem whole_regroup (env : String → ℤ) (f : Formula) :
    (f.regroup none).whole env = f.onward env 1 := (readsOnward env f).alone

/-! ## Formulas without quotients that are multiplied -/

/-- Whether a quotient is a factor of the formula, at its top or within its product. -/
def hasQuotient : Formula → Bool
  | operation .mul left right => left.hasQuotient || right.hasQuotient
  | operation .div _ _ => true
  | _ => false

/-- Whether no right operand of a product has a quotient as a factor: quotients only lead their
    products. -/
def quotientsLead : Formula → Bool
  | column _ => true
  | operation op left right =>
    left.quotientsLead && right.quotientsLead && !(op = .mul && right.hasQuotient)

/-- A formula whose quotients lead is worth what is read, and so it is behind another factor if it
    has no quotient. -/
theorem onward_of_lead {f : Formula} (h : f.quotientsLead = true) (env : String → ℤ) :
    f.onward env 1 = f.whole env ∧
      (f.hasQuotient = false → ∀ n, f.onward env n = n * f.whole env) := by
  induction f with
  | column name => exact ⟨one_mul _, fun _ n => rfl⟩
  | operation op l r ihl ihr =>
    obtain ⟨hboth, hright⟩ := (Bool.and_eq_true _ _).mp h
    obtain ⟨hl, hr⟩ := (Bool.and_eq_true _ _).mp hboth
    obtain ⟨hlone, hln⟩ := ihl hl
    obtain ⟨hrone, hrn⟩ := ihr hr
    -- a sum starts over, a product hands its left side on, and a quotient may only lead
    cases op with
    | add =>
      have hn (n : ℤ) : (operation .add l r).onward env n = n * (l.whole env + r.whole env) :=
        congrArg (n * ·) (congrArg₂ (· + ·) hlone hrone)
      exact ⟨(hn 1).trans (one_mul _), fun _ => hn⟩
    | sub =>
      have hn (n : ℤ) : (operation .sub l r).onward env n = n * (l.whole env - r.whole env) :=
        congrArg (n * ·) (congrArg₂ (· - ·) hlone hrone)
      exact ⟨(hn 1).trans (one_mul _), fun _ => hn⟩
    | mul =>
      have hno : r.hasQuotient = false := by simpa using hright
      refine ⟨?_, ?_⟩
      · show r.onward env (l.onward env 1) = l.whole env * r.whole env
        rw [hlone, hrn hno]
      · intro hquotient n
        obtain ⟨hlno, -⟩ := (Bool.or_eq_false_iff).mp hquotient
        show r.onward env (l.onward env n) = n * (l.whole env * r.whole env)
        rw [hln hlno, hrn hno, mul_assoc]
    | div => exact ⟨congrArg₂ Int.tdiv hlone hrone, fun h => absurd h.symm Bool.false_ne_true⟩

/-! ## Values that tell the two apart -/

/-- The columns of a formula, from the left to the right. -/
def columns : Formula → List String
  | column name => [name]
  | operation _ left right => left.columns ++ right.columns

/-- Only the columns of a formula matter for its value. -/
theorem whole_congr {f : Formula} {env env' : String → ℤ}
    (h : ∀ name ∈ f.columns, env name = env' name) : f.whole env = f.whole env' := by
  induction f with
  | column name => exact h name List.mem_cons_self
  | operation op l r ihl ihr =>
    have hl := ihl fun name hname => h name (List.mem_append_left _ hname)
    have hr := ihr fun name hname => h name (List.mem_append_right _ hname)
    exact congrArg₂ op.whole hl hr

/-- What is read depends on the columns of the formula alone. -/
theorem onward_congr {f : Formula} {env env' : String → ℤ}
    (h : ∀ name ∈ f.columns, env name = env' name) : f.onward env = f.onward env' := by
  induction f with
  | column name => exact funext fun n => congrArg (n * ·) (h name List.mem_cons_self)
  | operation op l r ihl ihr =>
    have hl := ihl fun name hname => h name (List.mem_append_left _ hname)
    have hr := ihr fun name hname => h name (List.mem_append_right _ hname)
    exact congrArg₂ op.onward hl hr

/-- Columns can be given values so that the formula is worth `w` and this is read of it behind each
    factor. -/
def Admits (f : Formula) (w : ℤ) (read : ℤ → ℤ) : Prop :=
  ∃ env : String → ℤ, f.whole env = w ∧ f.onward env = read

/-- Operands whose columns are distinct can be given values apart. -/
theorem Admits.operation {op : ArithmeticOp} {l r : Formula} {v w : ℤ} {readl readr : ℤ → ℤ}
    (hnodup : (operation op l r).columns.Nodup) (hl : l.Admits v readl) (hr : r.Admits w readr) :
    (operation op l r).Admits (op.whole v w) (op.onward readl readr) := by
  obtain ⟨-, -, hapart⟩ := List.nodup_append.mp hnodup
  obtain ⟨envl, hv, hreadl⟩ := hl
  obtain ⟨envr, hw, hreadr⟩ := hr
  let env (name : String) : ℤ := if name ∈ l.columns then envl name else envr name
  have hleft : ∀ name ∈ l.columns, env name = envl name := fun name hname => if_pos hname
  have hright : ∀ name ∈ r.columns, env name = envr name :=
    fun name hname => if_neg fun hmem => hapart name hmem name hname rfl
  refine ⟨env, congrArg₂ op.whole ?_ ?_, congrArg₂ op.onward ?_ ?_⟩
  · exact (whole_congr hleft).trans hv
  · exact (whole_congr hright).trans hw
  · exact (onward_congr hleft).trans hreadl
  · exact (onward_congr hright).trans hreadr

/-- Value and reading may be given otherwise. -/
theorem Admits.congr {f : Formula} {v w : ℤ} {read read' : ℤ → ℤ} (h : f.Admits v read)
    (hvalue : v = w) (hread : ∀ n, read n = read' n) : f.Admits w read' := by
  obtain rfl := hvalue
  obtain rfl : read = read' := funext hread
  exact h

/-- A formula can be given any value, with which it is also read. -/
theorem attains {f : Formula} (hnodup : f.columns.Nodup) (w : ℤ) : f.Admits w (· * w) := by
  induction f generalizing w with
  | column name => exact ⟨fun _ => w, rfl, rfl⟩
  | operation op l r ihl ihr =>
    obtain ⟨hl, hr, -⟩ := List.nodup_append.mp hnodup
    -- all of the value is the left operand's
    cases op with
    | add =>
      refine ((ihl hl w).operation hnodup (ihr hr 0)).congr (add_zero w) ?_
      intro n
      show n * (1 * w + 1 * 0) = n * w
      rw [one_mul, mul_zero, add_zero]
    | sub =>
      refine ((ihl hl w).operation hnodup (ihr hr 0)).congr (sub_zero w) ?_
      intro n
      show n * (1 * w - 1 * 0) = n * w
      rw [one_mul, mul_zero, sub_zero]
    | mul =>
      exact ((ihl hl w).operation hnodup (ihr hr 1)).congr (mul_one w) fun n => mul_one (n * w)
    | div =>
      exact ((ihl hl w).operation hnodup (ihr hr 1)).congr (Int.tdiv_one w)
        fun n => Int.tdiv_one (n * w)

/-- A product with a quotient can be worth zero and be read as one half, as which it halves what is
    multiplied to it. -/
theorem exists_halved {f : Formula} (hnodup : f.columns.Nodup) (hquotient : f.hasQuotient = true) :
    ∃ read : ℤ → ℤ, f.Admits 0 read ∧ read 2 = 1 := by
  induction f with
  | column name => exact nomatch hquotient
  | operation op l r ihl ihr =>
    obtain ⟨hl, hr, -⟩ := List.nodup_append.mp hnodup
    -- the quotient is on one side; the columns of the other side can be chosen freely
    cases op with
    | add => exact nomatch hquotient
    | sub => exact nomatch hquotient
    | mul =>
      cases hleft : l.hasQuotient with
      | true =>
        obtain ⟨read, hread, hhalf⟩ := ihl hl hleft
        refine ⟨_, hread.operation hnodup (attains hr 1), ?_⟩
        show read 2 * 1 = 1
        rw [hhalf, mul_one]
      | false =>
        have hright : r.hasQuotient = true := by
          have hor : (l.hasQuotient || r.hasQuotient) = true := hquotient
          rwa [hleft] at hor
        obtain ⟨read, hread, hhalf⟩ := ihr hr hright
        refine ⟨_, (attains hl 1).operation hnodup hread, ?_⟩
        show read (2 * 1) = 1
        rw [mul_one, hhalf]
    | div => exact ⟨_, (attains hl 1).operation hnodup (attains hr 2), rfl⟩

/-- Different divisors can be told apart. -/
theorem exists_tdiv_ne {u v : ℤ} (h : u ≠ v) : ∃ n : ℤ, n.tdiv u ≠ n.tdiv v := by
  rcases eq_or_ne u 0 with rfl | hu
  · refine ⟨v, ?_⟩
    rw [Int.tdiv_zero, Int.tdiv_self h.symm]
    exact zero_ne_one
  rcases eq_or_ne v 0 with rfl | hv
  · refine ⟨u, ?_⟩
    rw [Int.tdiv_zero, Int.tdiv_self h]
    exact one_ne_zero
  refine ⟨u * v, ?_⟩
  rw [Int.mul_tdiv_cancel_left v hu, Int.mul_tdiv_cancel u hv]
  exact h.symm

/-- Columns can be given values so that the formula is worth something else than what is read. -/
def IsMisread (f : Formula) : Prop :=
  ∃ (w : ℤ) (read : ℤ → ℤ), f.Admits w read ∧ read 1 ≠ w

namespace IsMisread

variable {op : ArithmeticOp} {l r : Formula}

/-- What is read differently on the left shows where the right operand is neutral. -/
theorem left (hnodup : (operation op l r).columns.Nodup) (h : l.IsMisread) :
    (operation op l r).IsMisread := by
  obtain ⟨-, hr, -⟩ := List.nodup_append.mp hnodup
  obtain ⟨w, read, hread, hne⟩ := h
  have hzero := hread.operation hnodup (attains hr 0)
  have hone := hread.operation hnodup (attains hr 1)
  cases op with
  | add => exact ⟨_, _, hzero, by simpa [ArithmeticOp.onward, ArithmeticOp.whole] using hne⟩
  | sub => exact ⟨_, _, hzero, by simpa [ArithmeticOp.onward, ArithmeticOp.whole] using hne⟩
  | mul => exact ⟨_, _, hone, by simpa [ArithmeticOp.onward, ArithmeticOp.whole] using hne⟩
  | div => exact ⟨_, _, hone, by simpa [ArithmeticOp.onward, ArithmeticOp.whole] using hne⟩

/-- What is read differently on the right shows where the left operand is neutral, and as a divisor
    where the left operand tells the two apart. -/
theorem right (hnodup : (operation op l r).columns.Nodup) (h : r.IsMisread) :
    (operation op l r).IsMisread := by
  obtain ⟨hl, -, -⟩ := List.nodup_append.mp hnodup
  obtain ⟨w, read, hread, hne⟩ := h
  have hat (n : ℤ) := (attains hl n).operation hnodup hread
  cases op with
  | add => exact ⟨_, _, hat 0, by simpa [ArithmeticOp.onward, ArithmeticOp.whole] using hne⟩
  | sub => exact ⟨_, _, hat 0, by simpa [ArithmeticOp.onward, ArithmeticOp.whole] using hne⟩
  | mul => exact ⟨_, _, hat 1, by simpa [ArithmeticOp.onward, ArithmeticOp.whole] using hne⟩
  | div =>
    obtain ⟨n, hn⟩ := exists_tdiv_ne hne
    exact ⟨_, _, hat n, by simpa [ArithmeticOp.onward, ArithmeticOp.whole] using hn⟩

/-- A quotient on the right of a product is read as dividing all of it. -/
theorem of_quotient (hnodup : (operation .mul l r).columns.Nodup) (h : r.hasQuotient = true) :
    (operation .mul l r).IsMisread := by
  obtain ⟨hl, hr, -⟩ := List.nodup_append.mp hnodup
  obtain ⟨read, hread, hhalf⟩ := exists_halved hr h
  refine ⟨_, _, (attains hl 2).operation hnodup hread, ?_⟩
  show read (1 * 2) ≠ 2 * 0
  rw [one_mul, hhalf, mul_zero]
  exact one_ne_zero

end IsMisread

/-- A formula in which a quotient is multiplied to something can be worth something else than what
    is read. -/
theorem isMisread {f : Formula} (hnodup : f.columns.Nodup) (hlead : f.quotientsLead = false) :
    f.IsMisread := by
  induction f with
  | column name => exact nomatch hlead
  | operation op l r ihl ihr =>
    obtain ⟨hl, hr, -⟩ := List.nodup_append.mp hnodup
    rcases (Bool.and_eq_false_iff).mp hlead with hboth | hquotient
    · rcases (Bool.and_eq_false_iff).mp hboth with hleft | hright
      · exact (ihl hl hleft).left hnodup
      · exact (ihr hr hright).right hnodup
    · obtain ⟨rfl, hdivides⟩ : op = .mul ∧ r.hasQuotient = true := by simpa using hquotient
      exact .of_quotient hnodup hdivides

/-- If each column of a formula stands once, it is worth what is read for all values of the columns
    exactly if its quotients lead. -/
theorem quotientsLead_iff {f : Formula} (hnodup : f.columns.Nodup) :
    f.quotientsLead = true ↔ ∀ env : String → ℤ, (f.regroup none).whole env = f.whole env := by
  constructor
  · intro hlead env
    rw [whole_regroup]
    exact (onward_of_lead hlead env).1
  · intro hall
    by_contra hlead
    obtain ⟨w, read, ⟨env, rfl, rfl⟩, hne⟩ := isMisread hnodup (Bool.eq_false_iff.mpr hlead)
    exact hne ((whole_regroup env f).symm.trans (hall env))

/-! ## The theorem -/

/-- What is multiplied by a quotient is written like the quotient of the product. -/
theorem tokens_multiplied_quotient (a l r : Formula) :
    (operation .mul a (operation .div l r)).tokens =
      (operation .div (operation .mul a l) r).tokens := by
  show enclosedIf (ArithmeticOp.mul.bracketsLeft a.op?) a.tokens ++ .operator "*" ::
      (enclosedIf (ArithmeticOp.div.bracketsLeft l.op?) l.tokens ++ _) =
    (enclosedIf (ArithmeticOp.mul.bracketsLeft a.op?) a.tokens ++ .operator "*" ::
      enclosedIf (ArithmeticOp.mul.bracketsRight l.op?) l.tokens) ++ _
  rw [ArithmeticOp.bracketsRight_mul, ArithmeticOp.bracketsLeft_eq .div, List.append_assoc]
  rfl

/-- **Quotients divide all that stands before them.** Let a formula over columns be written in any
    context. The writing does not stop, binds nothing and gives tokens that have one and only one
    derivation.
    * If no product of the formula has a quotient in its right operand, outside parentheses, then
      what is read is worth what the formula is, whichever whole numbers the columns have as values
      and whatever is divided by zero.
    * If each column stands once, that is the only case in which it is.
    * What is multiplied by a quotient is written like the quotient of the product. -/
theorem whole_of_written {ctx : Context} {f : Formula} {t : Term} (ht : f.Shapes ctx t) :
    ∃ ts : List Token, (∀ p : Parameters, (t.draft ctx).finish p = (.ok ts, p)) ∧
      (∃ g : Formula, Derives .sum ts g.signed ∧ (∀ g', Derives .sum ts g' → g' = g.signed) ∧
        (f.quotientsLead = true → ∀ env : String → ℤ, g.whole env = f.whole env) ∧
        (f.columns.Nodup → (∀ env : String → ℤ, g.whole env = f.whole env) →
          f.quotientsLead = true)) ∧
      ∀ a l r, f = .operation .mul a (.operation .div l r) →
        ts = (operation .div (.operation .mul a l) r).tokens := by
  have hderives := f.derives_regroup
  refine ⟨f.tokens, ?_, ⟨f.regroup none, hderives, fun g' hg' => hderives.unique hg', ?_, ?_⟩, ?_⟩
  · intro p
    rw [SignedFormula.Shapes.draft_eq ht]
    exact Draft.finish_tokens_eq f.tokens p
  · intro hlead env
    rw [whole_regroup]
    exact (onward_of_lead hlead env).1
  · exact fun hnodup => (quotientsLead_iff hnodup).mpr
  · rintro a l r rfl
    exact tokens_multiplied_quotient a l r

/-- `(a/b)*c-d/(e*g)`: the quotients lead. -/
theorem whole_of_written_difference :
    let column := Formula.column
    let f : Formula :=
      .operation .sub (.operation .mul (.operation .div (column "a") (column "b")) (column "c"))
        (.operation .div (column "d") (.operation .mul (column "e") (column "g")))
    let ctx := Context.ofDialect .mysql
    ∃ t : Term, f.Shapes ctx t ∧ ∃ ts : List Token,
      (∀ p : Parameters, (t.draft ctx).finish p = (.ok ts, p)) ∧
        ∃ g : Formula, Derives .sum ts g.signed ∧
          ∀ env : String → ℤ, g.whole env = f.whole env := by
  intro column f ctx
  let field (name : String) : Term := ⟨.field name none, none⟩
  let t : Term :=
    ⟨.arithmetic .sub
      ⟨.arithmetic .mul ⟨.arithmetic .div (field "a") (field "b"), none⟩ (field "c"), none⟩
      ⟨.arithmetic .div (field "d") ⟨.arithmetic .mul (field "e") (field "g"), none⟩, none⟩, none⟩
  have hcolumn : ∀ name, (column name).Shapes ctx (field name) :=
    fun name => ⟨none, none, rfl, rfl, rfl⟩
  have ht : f.Shapes ctx t := by
    refine ⟨_, _, none, rfl, ⟨_, _, none, rfl, ?_, hcolumn "c", rfl⟩,
      ⟨_, _, none, rfl, hcolumn "d", ?_, rfl⟩, rfl⟩
    · exact ⟨_, _, none, rfl, hcolumn "a", hcolumn "b", rfl⟩
    · exact ⟨_, _, none, rfl, hcolumn "e", hcolumn "g", rfl⟩
  obtain ⟨ts, hts, ⟨g, hderives, -, hvalue, -⟩, -⟩ := whole_of_written ht
  exact ⟨t, ht, ts, hts, g, hderives, hvalue (by decide)⟩

/-- `a*(b/c)` is read as `(a*b)/c`. Where `a` and `c` are 2 and `b` is 1, the formula is worth 0,
    and what is read 1. -/
theorem whole_of_product_misread :
    let f : Formula := .operation .mul (.column "a") (.operation .div (.column "b") (.column "c"))
    let field (name : String) : Term := ⟨.field name none, none⟩
    let t : Term :=
      ⟨.arithmetic .mul (field "a") ⟨.arithmetic .div (field "b") (field "c"), none⟩, none⟩
    let ctx := Context.ofDialect .generic
    let env : String → ℤ := fun name => if name = "b" then 1 else 2
    f.Shapes ctx t ∧ (t.draft ctx).text ctx = .ok "\"a\"*\"b\"/\"c\"" ∧
      ∃ (ts : List Token) (g : Formula), (t.draft ctx).finish {} = (.ok ts, {}) ∧
        Derives .sum ts g.signed ∧ (∀ g', Derives .sum ts g' → g' = g.signed) ∧
          f.whole env = 0 ∧ g.whole env = 1 := by
  intro f field t ctx env
  have hcolumn : ∀ name, (column name).Shapes ctx (field name) :=
    fun name => ⟨none, none, rfl, rfl, rfl⟩
  have ht : f.Shapes ctx t :=
    ⟨_, _, none, rfl, hcolumn "a", ⟨_, _, none, rfl, hcolumn "b", hcolumn "c", rfl⟩, rfl⟩
  have hderives := f.derives_regroup
  have hfinish : (t.draft ctx).finish {} = (.ok f.tokens, {}) := by
    rw [SignedFormula.Shapes.draft_eq ht]
    exact Draft.finish_tokens_eq f.tokens {}
  exact ⟨ht, by decide +kernel, f.tokens, _, hfinish, hderives, fun g' hg' => hderives.unique hg',
    by decide, by decide⟩

end Formula

end SqlCompose
