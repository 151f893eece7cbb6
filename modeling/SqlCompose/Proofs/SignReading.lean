import Mathlib.Tactic.NormNum
import SqlCompose.Proofs.FormulaGrammar

/-! # Signs — formulas with negative operands, and what is read of how they are written

    A minus sign is written in front of its operand, and never puts it in parentheses. To who reads
    it, a sign binds tighter than products and sums: it belongs to the column or the parentheses
    right behind it. So the sign of a sum is read as the sign of its first operand, and a sign in
    front of a product goes with the product's first operand, which is the same except behind a
    slash.

    * `SignedFormula.exists_derives` — what is written of a formula has a derivation.
    * `SignedFormula.Yields` — a text has a derivation with certain values.
    * `SignedFormula.signsReach` — whether each sign reaches its operand.
    * `SignedFormula.Front` — what stands in front of a product and goes with its first factor.
    * `SignedFormula.isWritten` — how a formula whose signs reach is read, by itself and behind
      others.
    * `SignedFormula.tokens_opposite_sum`, `SignedFormula.tokens_over_opposite` — what other
      formulas look like.
    * `SignedFormula.value_of_signed` — the theorem. -/

namespace SqlCompose

open Draft

namespace SignedFormula

/-! ## What is written has a derivation -/

/-- A factor may go on behind any sum, whatever the operator between them. -/
theorem exists_derives_factor (op : ArithmeticOp) {ts us : List Token} {f g : SignedFormula}
    (hf : Derives .sum ts f) (hg : Derives .factor us g) :
    ∃ h, Derives .sum (ts ++ .operator op.text :: us) h := by
  cases hop : op.isAdditive with
  | true => exact ⟨_, .added hop hf (.factor hg)⟩
  | false =>
    cases hf with
    | product hproduct => exact ⟨_, .product (.multiplied hop hproduct hg)⟩
    | added hother hsum hproduct =>
      -- it goes on behind the last product of the sum
      rw [List.append_assoc]
      exact ⟨_, .added hother hsum (.multiplied hop hproduct hg)⟩

/-- So may whatever has a derivation. -/
theorem Derives.exists_behind {rank : Rank} {us : List Token} {g : SignedFormula}
    (hg : Derives rank us g) (op : ArithmeticOp) {ts : List Token} {f : SignedFormula}
    (hf : Derives .sum ts f) : ∃ h, Derives .sum (ts ++ .operator op.text :: us) h := by
  induction hg generalizing op ts f with
  | column qualifier name => exact exists_derives_factor op hf (.column qualifier name)
  | parens h _ => exact exists_derives_factor op hf (.parens h)
  | minus h _ => exact exists_derives_factor op hf (.minus h)
  | factor _ ih => exact ih op hf
  | @multiplied other us vs _ _ _ _ hlast ih _ =>
    obtain ⟨h, hh⟩ := ih op hf
    have hbehind := exists_derives_factor other hh hlast
    rwa [List.append_assoc] at hbehind
  | product _ ih => exact ih op hf
  | @added other us vs _ _ _ _ _ ihf ihg =>
    obtain ⟨h, hh⟩ := ihf op hf
    have hbehind := ihg other hh
    rwa [List.append_assoc] at hbehind

/-- A sign may stand in front of whatever has a derivation. -/
theorem Derives.exists_minus {rank : Rank} {ts : List Token} {f : SignedFormula}
    (hf : Derives rank ts f) : ∃ g, Derives rank (.operator "-" :: ts) g := by
  induction hf with
  | column qualifier name => exact ⟨_, .minus (.column qualifier name)⟩
  | parens h _ => exact ⟨_, .minus (.parens h)⟩
  | minus h _ => exact ⟨_, .minus (.minus h)⟩
  | factor _ ih =>
    obtain ⟨g, hg⟩ := ih
    exact ⟨g, .factor hg⟩
  | multiplied hop _ hlast ih _ =>
    obtain ⟨g, hg⟩ := ih
    exact ⟨_, .multiplied hop hg hlast⟩
  | product _ ih =>
    obtain ⟨g, hg⟩ := ih
    exact ⟨g, .product hg⟩
  | added hop _ hlast ih _ =>
    obtain ⟨g, hg⟩ := ih
    exact ⟨_, .added hop hg hlast⟩

/-- Whatever is written of a formula can be read somehow. -/
theorem exists_derives (f : SignedFormula) : ∃ g, Derives .sum f.tokens g := by
  have henclosed (condition : Bool) {ts : List Token} {g : SignedFormula}
      (hg : Derives .sum ts g) : ∃ h, Derives .sum (enclosedIf condition ts) h := by
    cases condition with
    | false => exact ⟨g, hg⟩
    | true => exact ⟨g, .product (.factor (.parens hg))⟩
  induction f with
  | column qualifier name => exact ⟨_, .product (.factor (.column qualifier name))⟩
  | operation op left right ihl ihr =>
    obtain ⟨l, hl⟩ := ihl
    obtain ⟨r, hr⟩ := ihr
    obtain ⟨l', hl'⟩ := henclosed (op.bracketsLeft left.op?) hl
    obtain ⟨r', hr'⟩ := henclosed (op.bracketsRight right.op?) hr
    exact hr'.exists_behind op hl'
  | opposite operand ih =>
    obtain ⟨g, hg⟩ := ih
    exact hg.exists_minus

/-! ## Derivations up to value -/

/-- The text has a derivation with these values. -/
def Yields (rank : Rank) (ts : List Token) (v : Assignment → ℚ) : Prop :=
  ∃ g, Derives rank ts g ∧ ∀ env, g.value env = v env

namespace Yields

variable {rank : Rank} {op : ArithmeticOp} {ts us : List Token} {v w : Assignment → ℚ}

/-- The value of what is read may be given otherwise. -/
theorem congr (h : Yields rank ts v) (hvalue : ∀ env, v env = w env) : Yields rank ts w := by
  obtain ⟨g, hderives, hg⟩ := h
  exact ⟨g, hderives, fun env => (hg env).trans (hvalue env)⟩

/-- Between parentheses a sum is a factor. -/
theorem parens (h : Yields .sum ts v) : Yields .factor (enclosedIf true ts) v := by
  obtain ⟨g, hderives, hg⟩ := h
  exact ⟨g, .parens hderives, hg⟩

/-- A sign in front of a factor makes a factor of opposite value. -/
theorem minus (h : Yields .factor ts v) :
    Yields .factor (.operator "-" :: ts) fun env => -v env := by
  obtain ⟨g, hderives, hg⟩ := h
  exact ⟨.opposite g, .minus hderives, fun env => congrArg Neg.neg (hg env)⟩

/-- A factor by itself is a product. -/
theorem factor (h : Yields .factor ts v) : Yields .product ts v := by
  obtain ⟨g, hderives, hg⟩ := h
  exact ⟨g, .factor hderives, hg⟩

/-- A product by itself is a sum. -/
theorem product (h : Yields .product ts v) : Yields .sum ts v := by
  obtain ⟨g, hderives, hg⟩ := h
  exact ⟨g, .product hderives, hg⟩

/-- A product goes on with a factor. -/
theorem multiplied (hop : op.isAdditive = false) (hv : Yields .product ts v)
    (hw : Yields .factor us w) :
    Yields .product (ts ++ .operator op.text :: us) fun env => op.value (v env) (w env) := by
  obtain ⟨f, hf, hfv⟩ := hv
  obtain ⟨g, hg, hgw⟩ := hw
  exact ⟨.operation op f g, .multiplied hop hf hg,
    fun env => congrArg₂ op.value (hfv env) (hgw env)⟩

/-- A sum goes on with a product. -/
theorem added (hop : op.isAdditive = true) (hv : Yields .sum ts v) (hw : Yields .product us w) :
    Yields .sum (ts ++ .operator op.text :: us) fun env => op.value (v env) (w env) := by
  obtain ⟨f, hf, hfv⟩ := hv
  obtain ⟨g, hg, hgw⟩ := hw
  exact ⟨.operation op f g, .added hop hf hg, fun env => congrArg₂ op.value (hfv env) (hgw env)⟩

end Yields

/-- What stands in front of a product and goes with its first factor: that factor is multiplied by
    these values. -/
def Front (before : List Token) (c : Assignment → ℚ) : Prop :=
  ∀ {us : List Token} {v : Assignment → ℚ}, Yields .factor us v →
    Yields .product (before ++ us) fun env => c env * v env

namespace Front

theorem nothing : Front [] fun _ => 1 := by
  intro us v hv
  exact hv.factor.congr fun env => (one_mul (v env)).symm

/-- A product and the operator behind it. -/
theorem times {ts : List Token} {b : Assignment → ℚ} (hb : Yields .product ts b) :
    Front (ts ++ [.operator ArithmeticOp.mul.text]) b := by
  intro us v hv
  rw [List.append_assoc]
  exact hb.multiplied rfl hv

/-- One sign more. -/
theorem minus {before : List Token} {c : Assignment → ℚ} (h : Front before c) :
    Front (before ++ [.operator "-"]) fun env => -c env := by
  intro us v hv
  rw [List.append_assoc]
  refine (h hv.minus).congr ?_
  intro env
  rw [mul_neg, neg_mul]

end Front

/-! ## Signs that reach their operands -/

/-- Whether every sign reaches its operand: none stands in front of a sum, and none in front of a
    product behind a slash. -/
def signsReach : SignedFormula → Bool
  | column _ _ => true
  | operation op left right =>
    left.signsReach && right.signsReach &&
      (op != .div || right.op?.isSome || right.core.op?.isNone)
  | opposite operand => !operand.isSum && operand.signsReach

/-- A column with signs in front of it is a factor. -/
theorem yields_of_core {f : SignedFormula} (h : f.core.op? = none) :
    Yields .factor f.tokens fun env => f.value env := by
  induction f with
  | column qualifier name => exact ⟨_, .column qualifier name, fun _ => rfl⟩
  | operation op left right _ _ => exact nomatch h
  | opposite operand ih => exact (ih h).minus

/-- How a formula is read without parentheses: behind what goes with its first factor, unless it is
    a sum, by itself, and behind what it is added to. -/
structure IsWritten (f : SignedFormula) : Prop where
  product : f.isSum = false → ∀ {before : List Token} {c : Assignment → ℚ}, Front before c →
    Yields .product (before ++ f.tokens) fun env => c env * f.value env
  sum     : Yields .sum f.tokens fun env => f.value env
  added   : ∀ {ts : List Token} {b : Assignment → ℚ}, Yields .sum ts b →
    Yields .sum (ts ++ .operator ArithmeticOp.add.text :: f.tokens) fun env => b env + f.value env

namespace IsWritten

variable {f : SignedFormula} {op : ArithmeticOp} {ts : List Token} {b : Assignment → ℚ}

/-- A formula that is no sum is read as a product by itself. -/
theorem alone (h : f.IsWritten) (hsum : f.isSum = false) :
    Yields .product f.tokens fun env => f.value env :=
  (h.product hsum Front.nothing).congr fun env => one_mul (f.value env)

/-- Between parentheses any formula is read as a factor. -/
theorem enclosed (h : f.IsWritten) :
    Yields .factor (enclosedIf true f.tokens) fun env => f.value env :=
  h.sum.parens

/-- What can be read as a product can be read wherever a sum is read. -/
theorem of_product (product : ∀ {before : List Token} {c : Assignment → ℚ}, Front before c →
    Yields .product (before ++ f.tokens) fun env => c env * f.value env) : f.IsWritten := by
  have halone : Yields .product f.tokens fun env => f.value env :=
    (product Front.nothing).congr fun env => one_mul (f.value env)
  exact
    { product := fun _ => product
      sum := halone.product
      added := fun hb => hb.added rfl halone }

/-- The first operand of a product goes with what stands in front, in parentheses if it is a sum. -/
theorem first (h : f.IsWritten) (hop : op.isAdditive = false) {before : List Token}
    {c : Assignment → ℚ} (hfront : Front before c) :
    Yields .product (before ++ enclosedIf (op.bracketsLeft f.op?) f.tokens)
      fun env => c env * f.value env := by
  rw [ArithmeticOp.bracketsLeft_eq, hop]
  show Yields .product (before ++ enclosedIf f.isSum f.tokens) _
  cases hsum : f.isSum with
  | true => exact hfront h.enclosed
  | false => exact h.product hsum hfront

/-- The right operand behind a product: behind `*` a product, behind `/` a factor. -/
theorem right_multiplied (h : f.IsWritten) (hop : op.isAdditive = false)
    (hdivisor : (op != .div || f.op?.isSome || f.core.op?.isNone) = true)
    (hb : Yields .product ts b) :
    Yields .product (ts ++ .operator op.text :: enclosedIf (op.bracketsRight f.op?) f.tokens)
      fun env => op.value (b env) (f.value env) := by
  cases op with
  | add => exact nomatch hop
  | sub => exact nomatch hop
  | mul =>
    rw [ArithmeticOp.bracketsRight_mul]
    show Yields .product (ts ++ _ :: enclosedIf f.isSum f.tokens) _
    cases hsum : f.isSum with
    | true => exact hb.multiplied rfl h.enclosed
    | false =>
      have hproduct := h.product hsum (Front.times hb)
      rwa [List.append_assoc] at hproduct
  | div =>
    cases hop? : f.op? with
    | none =>
      have hcore : f.core.op? = none := by simpa [hop?] using hdivisor
      exact hb.multiplied rfl (yields_of_core hcore)
    | some other => exact hb.multiplied rfl h.enclosed

/-- The right operand behind a sum: behind `+` whatever it is, behind `-` a product. -/
theorem right_added (h : f.IsWritten) (hop : op.isAdditive = true) (hb : Yields .sum ts b) :
    Yields .sum (ts ++ .operator op.text :: enclosedIf (op.bracketsRight f.op?) f.tokens)
      fun env => op.value (b env) (f.value env) := by
  cases op with
  | add =>
    rw [ArithmeticOp.bracketsRight_add]
    exact h.added hb
  | sub =>
    rw [ArithmeticOp.bracketsRight_sub]
    show Yields .sum (ts ++ _ :: enclosedIf f.isSum f.tokens) _
    cases hsum : f.isSum with
    | true => exact hb.added rfl h.enclosed.factor
    | false => exact hb.added rfl (h.alone hsum)
  | mul => exact nomatch hop
  | div => exact nomatch hop

end IsWritten

/-- Every formula whose signs reach is read with its value. -/
theorem isWritten {f : SignedFormula} (h : f.signsReach = true) : f.IsWritten := by
  induction f with
  | column qualifier name => exact .of_product fun hfront => hfront (yields_of_core rfl)
  | opposite operand ih =>
    obtain ⟨hsum, hreach⟩ := (Bool.and_eq_true _ _).mp h
    refine .of_product ?_
    intro before c hfront
    -- the sign goes with the first factor, as what stands in front of it does
    have hproduct := (ih hreach).product (by simpa using hsum) hfront.minus
    rw [List.append_assoc] at hproduct
    refine hproduct.congr ?_
    intro env
    show -c env * operand.value env = c env * -operand.value env
    rw [neg_mul, mul_neg]
  | operation op l r ihl ihr =>
    obtain ⟨hreach, hdivisor⟩ := (Bool.and_eq_true _ _).mp h
    obtain ⟨hl, hr⟩ := (Bool.and_eq_true _ _).mp hreach
    have hleft := ihl hl
    have hright := ihr hr
    cases hop : op.isAdditive with
    | true =>
      -- the left operand goes on with what stands before the sum, and the right one behind it
      have hsum : (operation op l r).isSum ≠ false := by
        show op.isAdditive ≠ false
        rw [hop]
        exact Bool.noConfusion
      have htokens : (operation op l r).tokens =
          l.tokens ++ .operator op.text :: enclosedIf (op.bracketsRight r.op?) r.tokens := by
        show enclosedIf (op.bracketsLeft l.op?) l.tokens ++ _ = _
        rw [ArithmeticOp.bracketsLeft_eq, hop]
        rfl
      refine ⟨(absurd · hsum), ?_, ?_⟩
      · rw [htokens]
        exact hright.right_added hop hleft.sum
      · intro ts b hb
        have hwhole := hright.right_added hop (hleft.added hb)
        rw [List.append_assoc] at hwhole
        rw [htokens]
        exact hwhole.congr fun env => op.value_add hop (b env) (l.value env) (r.value env)
    | false =>
      refine .of_product ?_
      intro before c hfront
      have hwhole := hright.right_multiplied hop hdivisor (hleft.first hop hfront)
      rw [List.append_assoc] at hwhole
      exact hwhole.congr fun env => op.value_mul hop (c env) (l.value env) (r.value env)

/-! ## Signs that do not reach -/

/-- The opposite of a sum is written like the sum of the opposite of its first operand. -/
theorem tokens_opposite_sum {op : ArithmeticOp} (hop : op.isAdditive = true)
    (l r : SignedFormula) :
    (opposite (operation op l r)).tokens = (operation op (opposite l) r).tokens := by
  show Token.operator "-" :: (enclosedIf (op.bracketsLeft l.op?) l.tokens ++ _) =
    enclosedIf (op.bracketsLeft none) (.operator "-" :: l.tokens) ++ _
  rw [ArithmeticOp.bracketsLeft_eq, ArithmeticOp.bracketsLeft_eq, hop]
  rfl

/-- What is divided by the opposite of a product is written like the product of what is divided by
    the opposite of its first operand. -/
theorem tokens_over_opposite {op : ArithmeticOp} (hop : op.isAdditive = false)
    (a l r : SignedFormula) (hl : l.isSum = false) :
    (operation .div a (opposite (operation op l r))).tokens =
      (operation op (operation .div a (opposite l)) r).tokens := by
  have hplain : op.bracketsLeft l.op? = false := by
    rw [ArithmeticOp.bracketsLeft_eq, hop]
    exact hl
  have hquotient : op.bracketsLeft (some .div) = false := by
    rw [ArithmeticOp.bracketsLeft_eq, hop]
    rfl
  show _ ++ _ :: (Token.operator "-" :: (enclosedIf (op.bracketsLeft l.op?) l.tokens ++ _)) =
    enclosedIf (op.bracketsLeft (some .div)) (_ ++ _ :: (.operator "-" :: l.tokens)) ++ _
  rw [hplain, hquotient]
  exact (List.append_assoc _ (_ :: _ :: l.tokens) _).symm

/-! ## The theorem -/

/-- **Signs are read as far as they reach.** Let a formula of columns of any sources, with the four
    operations and signs, be written in any context. The writing does not stop, binds nothing and
    gives tokens that have one and only one derivation.
    * If the signs of the formula reach, that is worth what the formula is, whichever values the
      columns have; and it is worth as much as every formula that is written alike and whose signs
      reach.
    * The opposite of a sum or a difference is written like that of its first operand alone, with
      the rest added or subtracted.
    * A division by the opposite of a product or a quotient is written like the division by the
      opposite of its first operand, multiplied or divided by the rest. -/
theorem value_of_signed {ctx : Context} {f : SignedFormula} {t : Term} (ht : f.Shapes ctx t) :
    ∃ ts : List Token, (∀ p : Parameters, (t.draft ctx).finish p = (.ok ts, p)) ∧
      (∃ g : SignedFormula, Derives .sum ts g ∧ (∀ g', Derives .sum ts g' → g' = g) ∧
        (f.signsReach = true → ∀ env, g.value env = f.value env) ∧
        ∀ h : SignedFormula, h.tokens = ts → h.signsReach = true →
          ∀ env, g.value env = h.value env) ∧
      (∀ op l r, f = .opposite (.operation op l r) → op.isAdditive = true →
        ts = (operation op (.opposite l) r).tokens) ∧
      ∀ op a l r, f = .operation .div a (.opposite (.operation op l r)) → op.isAdditive = false →
        l.isSum = false → ts = (operation op (.operation .div a (.opposite l)) r).tokens := by
  obtain ⟨g, hderives⟩ := f.exists_derives
  -- the same tokens may be those of another formula, and the derivation is the same for both
  have hvalue (h : SignedFormula) (htokens : h.tokens = f.tokens) (hreach : h.signsReach = true) :
      ∀ env, g.value env = h.value env := by
    obtain ⟨g', hderives', hg'⟩ := (isWritten hreach).sum
    rw [htokens] at hderives'
    obtain rfl := hderives.unique hderives'
    exact hg'
  refine ⟨f.tokens, ?_, ⟨g, hderives, fun g' hg' => hderives.unique hg', hvalue f rfl, hvalue⟩,
    ?_, ?_⟩
  · intro p
    rw [ht.draft_eq]
    exact Draft.finish_tokens_eq f.tokens p
  · rintro op l r rfl hop
    exact tokens_opposite_sum hop l r
  · rintro op a l r rfl hop hl
    exact tokens_over_opposite hop a l r hl

/-- `a*-b/c--(d/e)`: the signs reach a product that is subtracted and one that is multiplied. -/
theorem value_of_signed_product :
    let column (name : String) : SignedFormula := .column none name
    let f : SignedFormula :=
      .operation .sub
        (.operation .mul (column "a") (.opposite (.operation .div (column "b") (column "c"))))
        (.opposite (.operation .div (column "d") (column "e")))
    let ctx := Context.ofDialect .sqlite
    ∃ t : Term, f.Shapes ctx t ∧ ∃ ts : List Token,
      (∀ p : Parameters, (t.draft ctx).finish p = (.ok ts, p)) ∧
        ∃ g : SignedFormula, g ≠ f ∧ Derives .sum ts g ∧ ∀ env, g.value env = f.value env := by
  intro column f ctx
  let field (name : String) : Term := ⟨.field name none, none⟩
  let t : Term :=
    ⟨.arithmetic .sub
      ⟨.arithmetic .mul (field "a") ⟨.negative ⟨.arithmetic .div (field "b") (field "c"), none⟩,
        some "n"⟩, none⟩
      ⟨.negative ⟨.arithmetic .div (field "d") (field "e"), none⟩, none⟩, none⟩
  have hcolumn : ∀ name, (column name).Shapes ctx (field name) :=
    fun name => ⟨none, none, rfl, rfl, rfl⟩
  have ht : f.Shapes ctx t := by
    refine ⟨_, _, none, rfl, ⟨_, _, none, rfl, hcolumn "a", ⟨_, some "n", ?_, rfl⟩, rfl⟩,
      ⟨_, none, ?_, rfl⟩, rfl⟩
    · exact ⟨_, _, none, rfl, hcolumn "b", hcolumn "c", rfl⟩
    · exact ⟨_, _, none, rfl, hcolumn "d", hcolumn "e", rfl⟩
  obtain ⟨ts, hts, ⟨g, hderives, -, hvalue, -⟩, -, -⟩ := value_of_signed ht
  refine ⟨t, ht, ts, hts, g, ?_, hderives, hvalue (by decide)⟩
  -- the reader tells which tree it is
  have hfinish := hts {}
  rw [ht.draft_eq, Draft.finish_tokens_eq] at hfinish
  obtain rfl : f.tokens = ts := Except.ok.inj (congrArg Prod.fst hfinish)
  have hread : read? f.tokens = some (.operation .sub
      (.operation .div (.operation .mul (column "a") (.opposite (column "b"))) (column "c"))
      (.operation .div (.opposite (column "d")) (column "e"))) := by decide
  rw [hderives.read?_eq] at hread
  rw [Option.some.inj hread]
  decide

/-- The sign of `a+b` is read as that of `a`. Where `a` is 1 and `b` is 2, the formula is worth -3,
    and what is read 1. -/
theorem value_of_sum_misread :
    let f : SignedFormula := .opposite (.operation .add (.column none "a") (.column none "b"))
    let field (name : String) : Term := ⟨.field name none, none⟩
    let t : Term := ⟨.negative ⟨.arithmetic .add (field "a") (field "b"), none⟩, none⟩
    let ctx := Context.ofDialect .generic
    let env : Assignment := fun _ name => if name = "a" then 1 else 2
    f.Shapes ctx t ∧ (t.draft ctx).text ctx = .ok "-\"a\"+\"b\"" ∧
      ∃ ts g, (t.draft ctx).finish {} = (.ok ts, {}) ∧ Derives .sum ts g ∧
        (∀ g', Derives .sum ts g' → g' = g) ∧ f.value env = -3 ∧ g.value env = 1 := by
  intro f field t ctx env
  have hcolumn : ∀ name, (column none name).Shapes ctx (field name) :=
    fun name => ⟨none, none, rfl, rfl, rfl⟩
  have ht : f.Shapes ctx t := ⟨_, none, ⟨_, _, none, rfl, hcolumn "a", hcolumn "b", rfl⟩, rfl⟩
  have hderives : Derives .sum f.tokens
      (.operation .add (.opposite (.column none "a")) (.column none "b")) :=
    .added rfl (.product (.factor (.minus (.column none "a")))) (.factor (.column none "b"))
  have hfinish : (t.draft ctx).finish {} = (.ok f.tokens, {}) := by
    rw [ht.draft_eq]
    exact Draft.finish_tokens_eq f.tokens {}
  refine ⟨ht, by decide +kernel, f.tokens, _, hfinish, hderives, fun g' hg' => hderives.unique hg',
    ?_, ?_⟩
  · show -((1 : ℚ) + 2) = -3
    norm_num
  · show -(1 : ℚ) + 2 = 1
    norm_num

end SignedFormula

end SqlCompose
