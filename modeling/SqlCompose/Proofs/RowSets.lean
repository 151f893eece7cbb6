import Mathlib.Data.Multiset.Dedup
import Mathlib.Data.Multiset.UnionInter
import SqlCompose.Proofs.Brackets

/-! # Row sets — what a set operation stands for, and what is read of its tokens

    A set operation asks for its operators one after the other. Who reads it lets INTERSECT bind
    tighter than all others and goes on from left to right otherwise.

    * `SetOperator.rows` — the rows that an operator makes of those of two operands.
    * `RowSet`, `RowSet.value` — operators between operands, and the rows that they stand for.
    * `RowSet.chained`, `RowSet.grouped` — a chain as it is asked for, and as it is read.
    * `SetOperator.Sorted`, `RowSet.value_grouped_iff` — the chains between which there is no
      difference: those with every INTERSECT in front.
    * `RowSet.Derives` — the grammar; `RowSet.Reader` and `Derives.read?_eq` show that no text has
      two derivations.
    * `RowSet.derives_grouped` — a chain of operands in parentheses is read grouped. -/

namespace SqlCompose

/-! ## Rows -/

namespace SetOperator

/-- The rows that an operator makes of those of two operands. All but UNION ALL leave each row only
    once. -/
def rows {ρ : Type} [DecidableEq ρ] (op : SetOperator) (a b : Multiset ρ) : Multiset ρ :=
  match op with
  | union => (a + b).dedup
  | unionAll => a + b
  | intersect => (a ∩ b).dedup
  | except | minus => (a.filter (· ∉ b)).dedup

/-- INTERSECT binds tighter than the other operators. -/
def isTight : SetOperator → Bool
  | intersect => true
  | _ => false

/-- No INTERSECT stands behind another operator. -/
def Sorted (ops : List SetOperator) : Prop :=
  ops.Pairwise fun op op' => op'.isTight = true → op.isTight = true

instance (ops : List SetOperator) : Decidable (Sorted ops) :=
  inferInstanceAs (Decidable (ops.Pairwise _))

section

variable {ρ : Type} [DecidableEq ρ]

/-- No rows and no rows make no rows. -/
@[simp] theorem rows_zero_zero (op : SetOperator) : op.rows (0 : Multiset ρ) 0 = 0 := by
  cases op <;> rfl

/-- Other operators than INTERSECT keep a row that the second operand does not have. -/
theorem rows_singleton_zero {op : SetOperator} (h : op.isTight = false) (r : ρ) :
    op.rows {r} 0 = {r} := by
  cases op with
  | union => simp [rows]
  | unionAll => simp [rows]
  | intersect => exact nomatch h
  | except => simp [rows]
  | minus => simp [rows]

/-- Nothing is common with no rows. -/
theorem rows_intersect_zero (a : Multiset ρ) : intersect.rows a 0 = 0 := by
  simp [rows]

/-- A row is common with itself. -/
theorem rows_intersect_self (r : ρ) : intersect.rows ({r} : Multiset ρ) {r} = {r} := by
  have hself : ({r} : Multiset ρ) ∩ {r} = {r} :=
    le_antisymm Multiset.inter_le_left (Multiset.le_inter le_rfl le_rfl)
  exact (congrArg Multiset.dedup hself).trans Multiset.dedup_singleton

end

/-- Only INTERSECT binds tighter than the others. -/
theorem eq_intersect {op : SetOperator} (h : op.isTight = true) : op = intersect := by
  cases op <;> first | rfl | exact nomatch h

/-- The operator with these words. -/
def ofText? : String → Option SetOperator
  | "UNION" => some union
  | "UNION ALL" => some unionAll
  | "INTERSECT" => some intersect
  | "EXCEPT" => some except
  | "MINUS" => some minus
  | _ => none

/-- The tokens of an operator between two operands. -/
def tokens (op : SetOperator) : List Token := [.space, .raw op.text, .space]

end SetOperator

/-! ## Trees -/

/-- Operators between operands. -/
inductive RowSet (ι : Type)
  | operand (i : ι)
  | combined (op : SetOperator) (left right : RowSet ι)
deriving DecidableEq

namespace RowSet

/-- The rows that operators make of those of the operands. -/
def value {ι ρ : Type} [DecidableEq ρ] (rows : ι → Multiset ρ) : RowSet ι → Multiset ρ
  | operand i => rows i
  | combined op left right => op.rows (left.value rows) (right.value rows)

/-- The operators between other operands. -/
def map {ι κ : Type} (f : ι → κ) : RowSet ι → RowSet κ
  | operand i => operand (f i)
  | combined op left right => combined op (left.map f) (right.map f)

section

variable {ι κ : Type}

/-- A chain as it is asked for: one operator after the other. -/
def chained (e : RowSet ι) (rest : List (SetOperator × ι)) : RowSet ι :=
  rest.foldl (fun e x => combined x.1 e (operand x.2)) e

/-- A row set behind an operator that has been read. -/
def behind : Option (RowSet ι × SetOperator) → RowSet ι → RowSet ι
  | none, e => e
  | some (before, op), e => combined op before e

/-- A chain as it is read: what INTERSECT combines is one operand of the others. -/
def grouped (left : Option (RowSet ι × SetOperator)) (e : RowSet ι) :
    List (SetOperator × ι) → RowSet ι
  | [] => behind left e
  | (op, i) :: rest =>
    if op.isTight then grouped left (combined op e (operand i)) rest
    else grouped (some (behind left e, op)) (operand i) rest

/-- An operator that binds tightly joins the next operand to the one before. -/
theorem grouped_tight {op : SetOperator} (h : op.isTight = true)
    (left : Option (RowSet ι × SetOperator)) (e : RowSet ι) (i : ι)
    (rest : List (SetOperator × ι)) :
    grouped left e ((op, i) :: rest) = grouped left (combined op e (operand i)) rest :=
  if_pos h

/-- Any other ends what has been joined so far. -/
theorem grouped_loose {op : SetOperator} (h : op.isTight = false)
    (left : Option (RowSet ι × SetOperator)) (e : RowSet ι) (i : ι)
    (rest : List (SetOperator × ι)) :
    grouped left e ((op, i) :: rest) = grouped (some (behind left e, op)) (operand i) rest :=
  if_neg (Bool.eq_false_iff.mp h)

/-- What stands behind an operator is mapped with it. -/
theorem map_behind (f : ι → κ) (left : Option (RowSet ι × SetOperator)) (e : RowSet ι) :
    (behind left e).map f = behind (left.map (Prod.map (RowSet.map f) id)) (e.map f) := by
  cases left <;> rfl

/-- Grouping commutes with renaming the operands. -/
theorem map_grouped (f : ι → κ) (left : Option (RowSet ι × SetOperator)) (e : RowSet ι)
    (rest : List (SetOperator × ι)) :
    (grouped left e rest).map f =
      grouped (left.map (Prod.map (RowSet.map f) id)) (e.map f) (rest.map (Prod.map id f)) := by
  induction rest generalizing left e with
  | nil => exact map_behind f left e
  | cons x rest ih =>
    obtain ⟨op, i⟩ := x
    show _ = grouped _ _ ((op, f i) :: rest.map (Prod.map id f))
    cases hop : op.isTight with
    | true =>
      rw [grouped_tight hop, grouped_tight hop, ih]
      rfl
    | false =>
      rw [grouped_loose hop, grouped_loose hop, ih, ← map_behind]
      rfl

/-! ## Chains that are read as they are asked for -/

/-- Behind an operator other than INTERSECT, more of them go on from left to right. -/
theorem grouped_of_loose {rest : List (SetOperator × ι)} (h : ∀ x ∈ rest, x.1.isTight = false)
    (left : Option (RowSet ι × SetOperator)) (e : RowSet ι) :
    grouped left e rest = chained (behind left e) rest := by
  induction rest generalizing left e with
  | nil => rfl
  | cons x rest ih =>
    obtain ⟨op, i⟩ := x
    rw [grouped_loose (h _ List.mem_cons_self)]
    exact ih (fun x hx => h x (List.mem_cons_of_mem _ hx)) _ _

/-- A chain with every INTERSECT in front is read as it is asked for. -/
theorem grouped_of_sorted {rest : List (SetOperator × ι)}
    (h : SetOperator.Sorted (rest.map Prod.fst)) (e : RowSet ι) :
    grouped none e rest = chained e rest := by
  induction rest generalizing e with
  | nil => rfl
  | cons x rest ih =>
    obtain ⟨op, i⟩ := x
    obtain ⟨hfirst, hrest⟩ := List.pairwise_cons.mp h
    cases hop : op.isTight with
    | true =>
      rw [grouped_tight hop]
      exact ih hrest _
    | false =>
      rw [grouped_loose hop]
      refine grouped_of_loose (fun x hx => ?_) _ _
      refine Bool.eq_false_iff.mpr fun htight => ?_
      rw [hfirst x.1 (List.mem_map_of_mem hx) htight] at hop
      exact nomatch hop

end

/-! ## Chains that are not -/

section

variable {ι ρ : Type} [DecidableEq ρ] {rows : ι → Multiset ρ} {rest : List (SetOperator × ι)}

/-- Without rows in any operand a chain has none. -/
theorem value_chained_zero (hrest : ∀ x ∈ rest, rows x.2 = 0) {e : RowSet ι}
    (he : e.value rows = 0) : (chained e rest).value rows = 0 := by
  induction rest generalizing e with
  | nil => exact he
  | cons x rest ih =>
    refine ih (fun x hx => hrest x (List.mem_cons_of_mem _ hx)) ?_
    show x.1.rows (e.value rows) (rows x.2) = 0
    rw [he, hrest x List.mem_cons_self, SetOperator.rows_zero_zero]

/-- As it is asked for, an INTERSECT with an operand without rows leaves nothing of a row. -/
theorem value_chained_lost {r : ρ} (hrest : ∀ x ∈ rest, rows x.2 = 0)
    (htight : ∃ x ∈ rest, x.1.isTight = true) {e : RowSet ι} (he : e.value rows = {r}) :
    (chained e rest).value rows = 0 := by
  induction rest generalizing e with
  | nil => exact absurd htight (by simp)
  | cons x rest ih =>
    have hrest' : ∀ x ∈ rest, rows x.2 = 0 := fun x hx => hrest x (List.mem_cons_of_mem _ hx)
    have hvalue : (combined x.1 e (operand x.2)).value rows = x.1.rows {r} 0 :=
      congrArg₂ x.1.rows he (hrest x List.mem_cons_self)
    cases hx : x.1.isTight with
    | true =>
      refine value_chained_zero hrest' (hvalue.trans ?_)
      rw [SetOperator.eq_intersect hx, SetOperator.rows_intersect_zero]
    | false =>
      refine ih hrest' ?_ (hvalue.trans (SetOperator.rows_singleton_zero hx r))
      obtain ⟨y, hy, hytight⟩ := htight
      rcases List.mem_cons.mp hy with rfl | hy
      · exact absurd hytight (Bool.eq_false_iff.mp hx)
      · exact ⟨y, hy, hytight⟩

/-- As it is read, a row in front of another operator than INTERSECT is kept when there are no rows
    behind. -/
theorem value_grouped_kept {r : ρ} (hrest : ∀ x ∈ rest, rows x.2 = 0) {op : SetOperator}
    (hop : op.isTight = false) {before e : RowSet ι} (hbefore : before.value rows = {r})
    (he : e.value rows = 0) : (grouped (some (before, op)) e rest).value rows = {r} := by
  have hkept : (combined op before e).value rows = {r} :=
    (congrArg₂ op.rows hbefore he).trans (SetOperator.rows_singleton_zero hop r)
  induction rest generalizing op before e with
  | nil => exact hkept
  | cons x rest ih =>
    obtain ⟨op', i⟩ := x
    have hrest' : ∀ x ∈ rest, rows x.2 = 0 := fun x hx => hrest x (List.mem_cons_of_mem _ hx)
    have hi : rows i = 0 := hrest (op', i) List.mem_cons_self
    cases htight : op'.isTight with
    | true =>
      rw [grouped_tight htight]
      have he' : (combined op' e (operand i)).value rows = 0 :=
        (congrArg₂ op'.rows he hi).trans (SetOperator.rows_zero_zero op')
      exact ih hrest' hop hbefore he'
        ((congrArg₂ op.rows hbefore he').trans (SetOperator.rows_singleton_zero hop r))
    | false =>
      rw [grouped_loose htight]
      exact ih hrest' htight hkept hi
        ((congrArg₂ op'.rows hkept hi).trans (SetOperator.rows_singleton_zero htight r))

end

/-! ### By position -/

/-- A chain of operators between operands that are given by their positions. -/
def positions (start : ℕ) (ops : List SetOperator) : List (SetOperator × ℕ) := ops.zipIdx start

/-- Positions keep the operators. -/
theorem map_fst_positions (start : ℕ) (ops : List SetOperator) :
    (positions start ops).map Prod.fst = ops := List.zipIdx_map_fst start ops

/-- One row in each of the first operands and none in the others. -/
def firstRows (count : ℕ) (i : ℕ) : Multiset Unit := if i < count then {()} else 0

/-- The rows are in none of the operands from there on. -/
theorem firstRows_positions (start : ℕ) (ops : List SetOperator) :
    ∀ x ∈ positions start ops, firstRows start x.2 = 0 := by
  intro x hx
  have hle : start ≤ x.2 := (List.mem_zipIdx hx).1
  exact if_neg (by omega)

/-- Where an INTERSECT stands behind another operator, there are rows that are lost in the chain as
    it is asked for and kept as it is read: those of the operands up to the first other operator. -/
theorem exists_value_ne {ops : List SetOperator} (h : ¬SetOperator.Sorted ops) (start : ℕ) :
    ∃ count, start ≤ count ∧ ∀ e : RowSet ℕ, e.value (firstRows count) = {()} →
      (grouped none e (positions start ops)).value (firstRows count) = {()} ∧
        (chained e (positions start ops)).value (firstRows count) = 0 := by
  induction ops generalizing start with
  | nil => exact absurd .nil h
  | cons op rest ih =>
    have hpositions : positions start (op :: rest) = (op, start) :: positions (start + 1) rest :=
      List.zipIdx_cons
    rw [hpositions]
    cases hop : op.isTight with
    | true =>
      have hrest : ¬SetOperator.Sorted rest :=
        fun hrest => h (List.pairwise_cons.mpr ⟨fun _ _ _ => hop, hrest⟩)
      obtain ⟨count, hcount, hvalue⟩ := ih hrest (start + 1)
      refine ⟨count, by omega, fun e he => ?_⟩
      rw [grouped_tight hop]
      refine hvalue (combined op e (operand start)) ?_
      have hstart : firstRows count start = {()} := if_pos (by omega)
      rw [SetOperator.eq_intersect hop]
      exact (congrArg₂ SetOperator.intersect.rows he hstart).trans
        (SetOperator.rows_intersect_self ())
    | false =>
      have hnone : ∀ x ∈ positions (start + 1) rest, firstRows start x.2 = 0 := by
        intro x hx
        exact firstRows_positions start (op :: rest) x
          (hpositions ▸ List.mem_cons_of_mem _ hx)
      have hstart : firstRows start start = 0 := if_neg (lt_irrefl start)
      have htight : ∃ op' ∈ rest, op'.isTight = true := by
        refine Classical.byContradiction fun hloose => h (List.pairwise_cons.mpr ⟨?_, ?_⟩)
        · exact fun op' hmem htight => absurd ⟨op', hmem, htight⟩ hloose
        · exact List.pairwise_of_forall_mem_list
            fun _ _ op' hmem htight => absurd ⟨op', hmem, htight⟩ hloose
      refine ⟨start, le_rfl, fun e he => ⟨?_, ?_⟩⟩
      · rw [grouped_loose hop]
        exact value_grouped_kept hnone hop he hstart
      · refine value_chained_lost (List.forall_mem_cons.mpr ⟨hstart, hnone⟩) ?_ he
        obtain ⟨op', hmem, htight⟩ := htight
        rw [← map_fst_positions (start + 1) rest] at hmem
        obtain ⟨x, hx, rfl⟩ := List.mem_map.mp hmem
        exact ⟨x, List.mem_cons_of_mem _ hx, htight⟩

/-- A chain of operators as it is asked for: each of them is applied to the rows so far. -/
def asked (ops : List SetOperator) : RowSet ℕ := chained (operand 0) (positions 1 ops)

/-- The last operator is applied to what those before it made. -/
theorem asked_append (ops : List SetOperator) (op : SetOperator) :
    asked (ops ++ [op]) = combined op (asked ops) (operand (ops.length + 1)) := by
  have hpositions : positions 1 (ops ++ [op]) = positions 1 ops ++ [(op, ops.length + 1)] := by
    rw [positions, List.zipIdx_append, Nat.add_comm]
    rfl
  rw [asked, hpositions]
  exact List.foldl_append

/-- A chain of operators as it is read. -/
def read (ops : List SetOperator) : RowSet ℕ := grouped none (operand 0) (positions 1 ops)

/-- A chain stands for the same rows as it is asked for and as it is read, whichever the rows of its
    operands are, exactly if every INTERSECT is in front. -/
theorem value_grouped_iff (ops : List SetOperator) :
    (∀ (ρ : Type) [DecidableEq ρ] (rows : ℕ → Multiset ρ),
      (read ops).value rows = (asked ops).value rows) ↔ SetOperator.Sorted ops := by
  constructor
  · intro hsame
    refine Classical.byContradiction fun hsorted => ?_
    obtain ⟨count, hcount, hvalue⟩ := exists_value_ne hsorted 1
    obtain ⟨hread, hasked⟩ := hvalue (operand 0) (if_pos (by omega))
    have hrows := hsame Unit (firstRows count)
    rw [show (read ops).value (firstRows count) = {()} from hread,
      show (asked ops).value (firstRows count) = 0 from hasked] at hrows
    exact Multiset.singleton_ne_zero () hrows
  · intro hsorted ρ _ rows
    rw [← map_fst_positions 1 ops] at hsorted
    exact congrArg (value rows) (grouped_of_sorted hsorted (operand 0))

/-! ## The grammar -/

/-- What tokens may be read as. -/
inductive Rank
  | expression | term | factor

/-- The tokens of each rank and their trees. An expression is a term or goes on behind an
    expression, a term is a factor or goes on behind a term with INTERSECT, and a factor stands in
    parentheses: an expression, or a statement. A statement does not start with a parenthesis. -/
inductive Derives : Rank → List Token → RowSet (List Token) → Prop
  | operand {body : List Token} :
      Bracket.Balanced body → body.head? ≠ some .lparen →
        Derives .factor (.lparen :: (body ++ [.rparen])) (.operand body)
  | parens {ts : List Token} {e : RowSet (List Token)} :
      Derives .expression ts e → Derives .factor (.lparen :: (ts ++ [.rparen])) e
  | factor {ts : List Token} {e : RowSet (List Token)} : Derives .factor ts e → Derives .term ts e
  | intersected {op : SetOperator} {ts us : List Token} {e f : RowSet (List Token)} :
      op.isTight = true → Derives .term ts e → Derives .factor us f →
        Derives .term (ts ++ op.tokens ++ us) (.combined op e f)
  | term {ts : List Token} {e : RowSet (List Token)} : Derives .term ts e → Derives .expression ts e
  | combined {op : SetOperator} {ts us : List Token} {e f : RowSet (List Token)} :
      op.isTight = false → Derives .expression ts e → Derives .term us f →
        Derives .expression (ts ++ op.tokens ++ us) (.combined op e f)

/-! ## The reader -/

/-- A level of parentheses, as far as it has been read: the expression and, behind it, the term that
    go on, each with the operator behind it. -/
structure Level where
  expression : Option (RowSet (List Token) × SetOperator) := none
  term       : Option (RowSet (List Token) × SetOperator) := none

/-- The tree that the level is, if nothing comes behind this factor. -/
def Level.closed (level : Level) (e : RowSet (List Token)) : RowSet (List Token) :=
  behind level.expression (behind level.term e)

/-- The level behind a factor and an operator. -/
def Level.behind (level : Level) (e : RowSet (List Token)) (op : SetOperator) : Level :=
  if op.isTight then ⟨level.expression, some (RowSet.behind level.term e, op)⟩
  else ⟨some (level.closed e, op), none⟩

/-- Where a reader is in its level. -/
inductive Place
  /-- In front of a factor. -/
  | start
  /-- Behind the parenthesis in front of a factor. -/
  | opened
  /-- In a statement, with its tokens so far and what is open in it. -/
  | inside (opened : List Bracket) (body : List Token)
  /-- Behind a factor. -/
  | factor (e : RowSet (List Token))
  /-- Behind the blank behind a factor. -/
  | blank (e : RowSet (List Token))
  /-- Behind an operator. -/
  | operator

/-- Tokens that are being read: the levels around, the innermost first, the level, and where the
    reader is in it. -/
structure Reader where
  around : List Level := []
  level  : Level := {}
  place  : Place := .start

namespace Reader

/-- Reads one token of a statement in parentheses. -/
def inside (r : Reader) (opened : List Bracket) (body : List Token) (t : Token) : Option Reader :=
  if opened = [] ∧ t = .rparen then some { r with place := .factor (.operand body) }
  else (Bracket.step opened t).map fun opened => { r with place := .inside opened (body ++ [t]) }

/-- Reads one token. -/
def step (r : Reader) (t : Token) : Option Reader :=
  match r.place, t with
  | .start, .lparen => some { r with place := .opened }
  | .opened, .lparen => some ⟨r.level :: r.around, {}, .opened⟩
  | .opened, t => r.inside [] [] t
  | .inside opened body, t => r.inside opened body t
  | .factor e, .rparen =>
    match r.around with
    | outer :: around => some ⟨around, outer, .factor (r.level.closed e)⟩
    | [] => none
  | .factor e, .space => some { r with place := .blank e }
  | .blank e, .raw text =>
    (SetOperator.ofText? text).map fun op => ⟨r.around, r.level.behind e op, .operator⟩
  | .operator, .space => some { r with place := .start }
  | _, _ => none

/-- Reads tokens one after the other. -/
def run (r : Reader) (ts : List Token) : Option Reader := ts.foldlM step r

/-- Two texts are read one after the other. -/
theorem run_append (r : Reader) (ts us : List Token) :
    r.run (ts ++ us) = (r.run ts).bind fun s => s.run us := List.foldlM_append

theorem run_cons (r : Reader) (t : Token) (ts : List Token) :
    r.run (t :: ts) = (r.step t).bind fun s => s.run ts := List.foldlM_cons

/-- A statement is read up to the parenthesis behind it. -/
theorem run_inside (around : List Level) (level : Level) {opened : List Bracket}
    {rest : List Token} (h : Bracket.run opened rest = some []) (body : List Token) :
    run ⟨around, level, .inside opened body⟩ (rest ++ [.rparen]) =
      some ⟨around, level, .factor (.operand (body ++ rest))⟩ := by
  induction rest generalizing opened body with
  | nil =>
    obtain rfl : opened = [] := Option.some.inj h
    rw [List.append_nil]
    rfl
  | cons t rest ih =>
    obtain ⟨opened', hstep, hrest⟩ := Option.bind_eq_some_iff.mp h
    have hinside : ¬(opened = [] ∧ t = .rparen) := by
      rintro ⟨rfl, rfl⟩
      exact nomatch hstep
    rw [List.cons_append, run_cons]
    show ((Reader.mk around level (.inside opened body)).inside opened body t).bind _ = _
    rw [inside, if_neg hinside, hstep]
    exact (ih hrest (body ++ [t])).trans (by rw [List.append_assoc]; rfl)

/-- A statement in parentheses is read as a factor. -/
theorem run_operand (around : List Level) (level : Level) {body : List Token}
    (hbalanced : Bracket.Balanced body) (hfirst : body.head? ≠ some .lparen) :
    run ⟨around, level, .start⟩ (.lparen :: (body ++ [.rparen])) =
      some ⟨around, level, .factor (.operand body)⟩ := by
  have hopened : run ⟨around, level, .opened⟩ (body ++ [.rparen]) =
      run ⟨around, level, .inside [] []⟩ (body ++ [.rparen]) := by
    cases body with
    | nil => rfl
    | cons t rest =>
      have hstep : step ⟨around, level, .opened⟩ t = step ⟨around, level, .inside [] []⟩ t := by
        cases t <;> first | rfl | exact absurd rfl hfirst
      rw [List.cons_append, run_cons, run_cons, hstep]
  rw [run_cons]
  exact hopened.trans (run_inside around level hbalanced [])

/-- An operator goes on behind a factor. -/
theorem run_operator (around : List Level) (level : Level) (e : RowSet (List Token))
    (op : SetOperator) :
    run ⟨around, level, .factor e⟩ op.tokens =
      some ⟨around, level.behind e op, .start⟩ := by
  cases op <;> rfl

end Reader

/-- Reads an expression; every parenthesis that is opened has to be closed. -/
def read? (ts : List Token) : Option (RowSet (List Token)) :=
  match Reader.run {} ts with
  | some ⟨[], level, .factor e⟩ => some (level.closed e)
  | _ => none

/-- What the reader makes of tokens: of a factor the tree behind which it stands, of a term what
    goes on behind the expression of the level, and of an expression the whole level. -/
def Reads : Rank → List Token → RowSet (List Token) → Prop
  | .factor, ts, e => ∀ (around : List Level) (level : Level),
      Reader.run ⟨around, level, .start⟩ ts = some ⟨around, level, .factor e⟩
  | .term, ts, e =>
    ∀ (around : List Level) (expression : Option (RowSet (List Token) × SetOperator)),
      ∃ (term : Option (RowSet (List Token) × SetOperator)) (last : RowSet (List Token)),
        Reader.run ⟨around, ⟨expression, none⟩, .start⟩ ts =
            some ⟨around, ⟨expression, term⟩, .factor last⟩ ∧ behind term last = e
  | .expression, ts, e => ∀ around : List Level,
      ∃ (level : Level) (last : RowSet (List Token)),
        Reader.run ⟨around, {}, .start⟩ ts = some ⟨around, level, .factor last⟩ ∧
          level.closed last = e

namespace Derives

variable {rank : Rank} {ts : List Token} {e f : RowSet (List Token)}

/-- Every derivation starts with a parenthesis. -/
theorem exists_lparen (h : Derives rank ts e) : ∃ us, ts = .lparen :: us := by
  induction h with
  | operand => exact ⟨_, rfl⟩
  | parens => exact ⟨_, rfl⟩
  | factor _ ih => exact ih
  | @intersected op ts us e f _ _ _ ih _ =>
    obtain ⟨rest, rfl⟩ := ih
    exact ⟨rest ++ op.tokens ++ us, rfl⟩
  | term _ ih => exact ih
  | @combined op ts us e f _ _ _ ih _ =>
    obtain ⟨rest, rfl⟩ := ih
    exact ⟨rest ++ op.tokens ++ us, rfl⟩

/-- The reader finds every derivation. -/
theorem reads (h : Derives rank ts e) : Reads rank ts e := by
  induction h with
  | operand hbalanced hfirst =>
    exact fun around level => Reader.run_operand around level hbalanced hfirst
  | @parens ts e hts ih =>
    intro around level
    obtain ⟨inner, last, hrun, hclosed⟩ := ih (level :: around)
    obtain ⟨us, rfl⟩ := hts.exists_lparen
    have hopened : Reader.run ⟨around, level, .start⟩ (.lparen :: (.lparen :: us ++ [.rparen])) =
        Reader.run ⟨level :: around, {}, .start⟩ (.lparen :: us ++ [.rparen]) := rfl
    rw [hopened, Reader.run_append, hrun, ← hclosed]
    rfl
  | factor _ ih => exact fun around expression => ⟨none, _, ih around ⟨expression, none⟩, rfl⟩
  | @intersected op ts us e f hop _ _ ihe ihf =>
    intro around expression
    obtain ⟨term, last, hrun, hbehind⟩ := ihe around expression
    refine ⟨some (e, op), f, ?_, rfl⟩
    have hlevel : Level.behind ⟨expression, term⟩ last op = ⟨expression, some (e, op)⟩ := by
      rw [Level.behind, if_pos hop, ← hbehind]
    rw [Reader.run_append, Reader.run_append, hrun, Option.bind_some, Reader.run_operator, hlevel]
    exact ihf around ⟨expression, some (e, op)⟩
  | term _ ih =>
    intro around
    obtain ⟨term, last, hrun, hbehind⟩ := ih around none
    exact ⟨⟨none, term⟩, last, hrun, hbehind⟩
  | @combined op ts us e f hop _ _ ihe ihf =>
    intro around
    obtain ⟨level, last, hrun, hclosed⟩ := ihe around
    obtain ⟨term, last', hrun', hbehind⟩ := ihf around (some (e, op))
    refine ⟨⟨some (e, op), term⟩, last', ?_, congrArg (RowSet.combined op e) hbehind⟩
    have hlevel : level.behind last op = ⟨some (e, op), none⟩ := by
      rw [Level.behind, if_neg (Bool.eq_false_iff.mp hop), hclosed]
    rw [Reader.run_append, Reader.run_append, hrun, Option.bind_some, Reader.run_operator, hlevel]
    exact hrun'

/-- What can be derived is read. -/
theorem read?_eq (h : Derives .expression ts e) : read? ts = some e := by
  obtain ⟨level, last, hrun, hclosed⟩ := h.reads []
  have hrun : Reader.run {} ts = some ⟨[], level, .factor last⟩ := hrun
  simp only [read?]
  rw [hrun]
  exact congrArg some hclosed

/-- No tokens have two derivations. -/
theorem unique (he : Derives .expression ts e) (hf : Derives .expression ts f) : f = e := by
  have hread := hf.read?_eq
  rw [he.read?_eq] at hread
  exact (Option.some.inj hread).symm

end Derives

/-! ## Chains -/

/-- The tokens of a chain of statements in parentheses, behind the first of them. -/
def chainTokens : List (SetOperator × List Token) → List Token
  | [] => []
  | (op, body) :: rest => op.tokens ++ (.lparen :: (body ++ [.rparen])) ++ chainTokens rest

/-- The tokens in front of a term: those of an expression and an operator, or none. -/
inductive Leads : Option (RowSet (List Token) × SetOperator) → List Token → Prop
  | none : Leads none []
  | some {op : SetOperator} {ts : List Token} {e : RowSet (List Token)} :
      op.isTight = false → Derives .expression ts e → Leads (some (e, op)) (ts ++ op.tokens)

/-- What leads may be followed by a term. -/
theorem Leads.derives {left : Option (RowSet (List Token) × SetOperator)} {before ts : List Token}
    {e : RowSet (List Token)} (hleft : Leads left before) (h : Derives .term ts e) :
    Derives .expression (before ++ ts) (behind left e) := by
  cases hleft with
  | none => exact .term h
  | some hop hbefore => exact .combined hop hbefore h

/-- A chain of statements in parentheses is read grouped. -/
theorem derives_grouped {rest : List (SetOperator × List Token)}
    (hrest : ∀ x ∈ rest, Bracket.Balanced x.2 ∧ x.2.head? ≠ some .lparen)
    {left : Option (RowSet (List Token) × SetOperator)} {before ts : List Token}
    {e : RowSet (List Token)} (hleft : Leads left before) (h : Derives .term ts e) :
    Derives .expression (before ++ ts ++ chainTokens rest) (grouped left e rest) := by
  induction rest generalizing left before ts e with
  | nil =>
    rw [chainTokens, List.append_nil]
    exact hleft.derives h
  | cons x rest ih =>
    obtain ⟨op, body⟩ := x
    obtain ⟨hbalanced, hfirst⟩ := hrest (op, body) List.mem_cons_self
    have hbody : Derives .factor (.lparen :: (body ++ [.rparen])) (operand body) :=
      .operand hbalanced hfirst
    have hrest' := fun x hx => hrest x (List.mem_cons_of_mem _ hx)
    rw [chainTokens]
    cases hop : op.isTight with
    | true =>
      have hchain := ih hrest' hleft (.intersected hop h hbody)
      rw [grouped_tight hop]
      simpa only [List.append_assoc] using hchain
    | false =>
      have hchain := ih hrest' (.some hop (hleft.derives h)) (.factor hbody)
      rw [grouped_loose hop]
      simpa only [List.append_assoc] using hchain

end RowSet

end SqlCompose
