import SqlCompose.Combined
import SqlCompose.Proofs.Criterion
import SqlCompose.Proofs.SetReading
import SqlCompose.Proofs.Unbound

/-! # Set operations — when they can be written, and what is written then

    A set operation is its statements with the operators between them, an order and a page. It can
    be written if every statement selects as many terms as the first one. Whether they do is found
    out while they are written: where one does not, it is written out once more beside the first, to
    be shown.

    * `Dialect.pageTokens`, `SetOperation.layout` — what is to be written.
    * `SetOperation.draft_of_fits`, `SetOperation.stop_of_unequal` — the two outcomes.
    * `SetStep` — the calls on a set operation; `SetStep.lists_run` says in which order what they
      are given stands.
    * `SetOperation.finish_layout` — the theorem. -/

namespace SqlCompose

open Draft

/-! ## Drafts -/

namespace Draft

/-- A draft that stops at operands that do not fit together, and has bound nothing. -/
theorem finish_of_unequal {d : Draft} {ctx : Context} {main other : List Token}
    (hstop : d.stop = some (.unequalOperands ctx (main.map .token) (other.map .token)))
    (hbinds : d.Binds True []) (p : Parameters) :
    d.finish p =
      (.error (.unequalOperands (Token.texts ctx main) (Token.texts ctx other)), p) := by
  refine Prod.ext ?_ ?_
  · show d.numbered p.factory p.values.length = _
    rw [numbered, hstop]
    simp only [Piece.number_map_token]
  · show { p with values := p.values ++ d.bound } = p
    rw [List.subset_nil.mp hbinds.among, List.append_nil]

/-- What has stopped stays so, whatever follows. -/
theorem stop_append_of_stop {d : Draft} {s : Stop} (h : d.stop = some s) (rest : Draft) :
    (d ++ rest).stop = some s := by
  rw [append_of_stop h]
  exact h

/-- What stops stops between parentheses as well. -/
theorem stop_parensIf {d : Draft} {s : Stop} (h : d.stop = some s) (condition : Bool) :
    (parensIf condition d).stop = some s := by
  cases condition with
  | false => exact h
  | true =>
    have hopened : (token .lparen ++ d).stop = some s := h
    exact stop_append_of_stop hopened (token .rparen)

end Draft

/-! ## Layouts -/

/-- What a dialect writes for a limit and an offset. -/
def Dialect.pageTokens (d : Dialect) (limit offset : Option Int64) (ordered : Bool) :
    List Token :=
  let skipped (n : Int64) : List Token :=
    [.space, .keyword .offset, .space, .int n, .space, .keyword .rows]
  let taken (n : Int64) : List Token :=
    [.space, .keyword .fetch, .space, .keyword .next, .space, .int n, .space, .keyword .rows,
      .space, .keyword .only]
  match d, limit, offset with
  | mssql, none, none => []
  | mssql, limit, offset =>
    (if ordered then []
      else [.space, .keyword .orderBy, .space, .lparen, .keyword .select, .space, .int 0,
        .rparen]) ++
      skipped (offset.getD 0) ++ limit.elim [] taken
  | oracle, limit, offset => offset.elim [] skipped ++ limit.elim [] taken
  | _, limit, offset =>
    limit.elim [] (fun n => [.space, .keyword .limit, .space, .int n]) ++
      offset.elim [] fun n => [.space, .keyword .offset, .space, .int n]

theorem Dialect.pagination_eq_tokens (d : Dialect) (limit offset : Option Int64)
    (ordered : Bool) :
    d.pagination (limit.map fun n => token (.int n)) (offset.map fun n => token (.int n)) ordered =
      tokens (d.pageTokens limit offset ordered) := by
  cases d <;> cases limit <;> cases offset <;> cases ordered <;> rfl

namespace SetOperation

/-- The context of the terms that a set operation is sorted by. -/
def orderContext (outer : Context) (s : SetOperation) : Context :=
  { outer with dialect := s.base.dialect, identQuote := s.base.dialect.identQuote }

/-- A term to sort by: a name that the first statement selects under, or else the whole term. -/
def sortTokens (outer : Context) (s : SetOperation) (o : Ordering) : List Token :=
  let whole := (o.term.draft (s.orderContext outer)).written
  let sorted := match o.term.knownAs with
    | some name => if s.base.selectedAliases.contains name then [.ident name] else whole
    | none => whole
  sorted ++ o.direction.elim [] fun d => [.space, .raw d.text]

/-- The order of all rows. -/
def orderTokens (outer : Context) (s : SetOperation) : List Token :=
  if s.orderings.isEmpty then []
  else [.space, .keyword .orderBy, .space] ++
    Token.joined .comma (s.orderings.map (s.sortTokens outer))

/-- The statements in their order, each but the first behind its operator; then the order and the
    page. Parentheses are around all of it in a nested part, and its own alias is behind them where
    it is to be declared. -/
def layout (outer : Context) (s : SetOperation) : List Token :=
  let statement (q : Query) : List Token := (q.draft (s.operandContext outer)).written
  enclosedIf outer.nested
    (statement s.base ++ s.operands.flatMap (fun o => o.operator.tokens ++ statement o.query) ++
      s.orderTokens outer ++
      s.base.dialect.pageTokens s.limit s.offset (!s.orderings.isEmpty)) ++
  if outer.declares then outer.aliasTokens (outer.aliasOf s.slot) else []

/-! ## The parts -/

variable {outer : Context} {s : SetOperation}

/-- The statements of a set operation can be written in their context. -/
def StatementsWritten (outer : Context) (s : SetOperation) : Prop :=
  ∀ q ∈ s.statements, ∃ ts, ((q.draft (s.operandContext outer)).finish {}).1 = .ok ts

/-- So can the terms that it is sorted by, in theirs. -/
def OrderingsWritten (outer : Context) (s : SetOperation) : Prop :=
  ∀ o ∈ s.orderings, ∃ ts, ((o.term.draft (s.orderContext outer)).finish {}).1 = .ok ts

/-- The statement behind an operator selects as many terms as the first statement. -/
def Fits (s : SetOperation) (o : Operand) : Prop :=
  o.query.selects.length = s.base.selects.length

instance (s : SetOperation) (o : Operand) : Decidable (s.Fits o) :=
  inferInstanceAs (Decidable (o.query.selects.length = s.base.selects.length))

/-- What is written for a term to sort by that goes by a name: the name, if the first statement
    selects under it. -/
def byAlias (s : SetOperation) (name : String) : Option Draft :=
  if s.base.selectedAliases.contains name then some (token (.ident name)) else none

/-- A statement is nothing but its tokens. -/
theorem StatementsWritten.draft_eq (h : s.StatementsWritten outer) (hplain : outer.binding = false)
    {q : Query} (hq : q ∈ s.statements) :
    q.draft (s.operandContext outer) = tokens (q.draft (s.operandContext outer)).written :=
  eq_tokens_written (Node.draft_binds_nothing (.query q) hplain) (h q hq)

theorem orderingDrafts_eq_map (hplain : outer.binding = false) {orderings : List Ordering}
    (h : ∀ o ∈ orderings, ∃ ts, ((o.term.draft (s.orderContext outer)).finish {}).1 = .ok ts) :
    orderingDrafts (s.orderContext outer) s.byAlias orderings =
      (orderings.map (s.sortTokens outer)).map tokens := by
  induction orderings with
  | nil => rfl
  | cons o rest ih =>
    obtain ⟨ho, hrest⟩ := List.forall_mem_cons.mp h
    have hbinds : (o.term.draft (s.orderContext outer)).Binds True [] :=
      Node.draft_binds_nothing (.term o.term) hplain
    have hwhole := eq_tokens_written hbinds ho
    rw [List.map_cons, List.map_cons, ← ih hrest]
    obtain ⟨term, direction⟩ := o
    refine congrArg (· :: _) ?_
    have hsuffix : Direction.suffix direction =
        tokens (direction.elim [] fun d => [.space, .raw d.text]) := by
      cases direction <;> rfl
    show Option.getD _ (term.draft (s.orderContext outer)) ++ Direction.suffix direction = _
    rw [hsuffix, sortTokens, ← tokens_append]
    refine congrArg (· ++ _) ?_
    -- a term is written by its alias only where the operands give that alias
    cases hname : term.knownAs with
    | none => exact hwhole
    | some name =>
      simp only [Option.bind_some, byAlias]
      split
      · rfl
      · exact hwhole

/-- The order is nothing but its tokens. -/
theorem OrderingsWritten.draft_eq (h : s.OrderingsWritten outer) (hplain : outer.binding = false) :
    Clause.unlessNone [.orderBy] (orderingDrafts (s.orderContext outer) s.byAlias s.orderings) =
      tokens (s.orderTokens outer) := by
  rw [orderingDrafts_eq_map hplain h, Clause.unlessNone, List.isEmpty_map, List.isEmpty_map,
    orderTokens]
  split
  · rfl
  · rw [commas_tokens]
    show tokens [.space] ++ tokens [.keyword .orderBy] ++ tokens [.space] ++ tokens _ = _
    rw [tokens_append, tokens_append, tokens_append]
    rfl

/-- Statements that fit are written one behind the other, each behind its operator. -/
theorem operandsDraft_of_fits {ctx : Context} {main : Draft} {operands : List Operand}
    (hwritten : ∀ o ∈ operands, o.query.draft ctx = tokens (o.query.draft ctx).written)
    (hfits : ∀ o ∈ operands, s.Fits o) :
    operandsDraft ctx s.base.selects.length main operands =
      tokens (operands.flatMap fun o => o.operator.tokens ++ (o.query.draft ctx).written) := by
  induction operands with
  | nil => rfl
  | cons o rest ih =>
    obtain ⟨ho, hrest⟩ := List.forall_mem_cons.mp hwritten
    obtain ⟨hfit, hfits⟩ := List.forall_mem_cons.mp hfits
    rw [operandsDraft_cons hfit, ih hrest hfits, ho, tokens_append, tokens_append]
    rfl

/-- Two statements that do not fit together: the first one, and the one behind an operator. -/
def mismatch (outer : Context) (s : SetOperation) (o : Operand) : Stop :=
  .unequalOperands (s.operandContext outer)
    ((s.base.draft (s.operandContext outer)).written.map .token)
    ((o.query.draft (s.operandContext outer)).written.map .token)

/-- The first statement that does not fit is shown beside the first of all. -/
theorem stop_operandsDraft {before after : List Operand} {o : Operand}
    (hbase : s.base.draft (s.operandContext outer) =
      tokens (s.base.draft (s.operandContext outer)).written)
    (hother : o.query.draft (s.operandContext outer) =
      tokens (o.query.draft (s.operandContext outer)).written)
    (hbefore : ∀ b ∈ before, b.query.draft (s.operandContext outer) =
      tokens (b.query.draft (s.operandContext outer)).written)
    (hfits : ∀ b ∈ before, s.Fits b) (hunequal : ¬ s.Fits o) :
    (operandsDraft (s.operandContext outer) s.base.selects.length
      (s.base.draft (s.operandContext outer)) (before ++ o :: after)).stop =
        some (s.mismatch outer o) := by
  induction before with
  | nil =>
    rw [List.nil_append, operandsDraft_unequal hunequal]
    have hshown := congrArg₂ (fun a b => (unequal (s.operandContext outer) a b).stop) hbase hother
    exact hshown
  | cons b rest ih =>
    obtain ⟨hb, hrest⟩ := List.forall_mem_cons.mp hbefore
    obtain ⟨hfit, hfits⟩ := List.forall_mem_cons.mp hfits
    rw [List.cons_append, operandsDraft_cons hfit, hb, tokens_append, append_of_complete rfl]
    exact ih hrest hfits

/-! ## The outcomes -/

theorem inside_eq (outer : Context) (s : SetOperation) :
    s.inside outer =
      s.base.draft (s.operandContext outer) ++
        operandsDraft (s.operandContext outer) s.base.selects.length
          (s.base.draft (s.operandContext outer)) s.operands ++
        Clause.unlessNone [.orderBy]
          (orderingDrafts (s.orderContext outer) s.byAlias s.orderings) ++
        s.base.dialect.pagination (s.limit.map fun n => token (.int n))
          (s.offset.map fun n => token (.int n)) (!s.orderings.isEmpty) := by
  cases s
  rfl

/-- If all statements fit, the set operation is its layout. -/
theorem draft_of_fits (hplain : outer.binding = false) (hstatements : s.StatementsWritten outer)
    (horderings : s.OrderingsWritten outer) (hfits : ∀ o ∈ s.operands, s.Fits o) :
    s.draft outer = tokens (s.layout outer) := by
  obtain ⟨hbase, hoperands⟩ :=
    List.forall_mem_cons.mp fun q hq => hstatements.draft_eq (q := q) hplain hq
  rw [SetOperation.draft_eq, inside_eq,
    operandsDraft_of_fits (fun o ho => hoperands _ (List.mem_map_of_mem ho)) hfits, hbase,
    horderings.draft_eq hplain, Dialect.pagination_eq_tokens, Context.declaration_eq_tokens,
    tokens_append, tokens_append, tokens_append, parensIf_tokens, tokens_append]
  rfl

/-- If one does not fit, the set operation stops at the first that does not. -/
theorem stop_of_unequal (hplain : outer.binding = false) (hstatements : s.StatementsWritten outer)
    {before after : List Operand} {o : Operand} (hoperands : s.operands = before ++ o :: after)
    (hfits : ∀ b ∈ before, s.Fits b) (hunequal : ¬ s.Fits o) :
    (s.draft outer).stop = some (s.mismatch outer o) := by
  have hwritten : ∀ b ∈ s.operands, b.query.draft (s.operandContext outer) =
      tokens (b.query.draft (s.operandContext outer)).written := fun b hb =>
    hstatements.draft_eq hplain (List.mem_cons_of_mem _ (List.mem_map_of_mem hb))
  have hbase := hstatements.draft_eq hplain (List.mem_cons_self (a := s.base))
  rw [hoperands] at hwritten
  obtain ⟨hbefore, hrest⟩ := List.forall_mem_append.mp hwritten
  have hother := hrest o List.mem_cons_self
  have hinside : (s.base.draft (s.operandContext outer) ++
      operandsDraft (s.operandContext outer) s.base.selects.length
        (s.base.draft (s.operandContext outer)) s.operands).stop = some (s.mismatch outer o) := by
    rw [append_of_complete (congrArg Draft.stop hbase), hoperands]
    exact stop_operandsDraft hbase hother hbefore hfits hunequal
  rw [SetOperation.draft_eq, inside_eq]
  exact stop_append_of_stop
    (stop_parensIf (stop_append_of_stop (stop_append_of_stop hinside _) _) outer.nested) _

end SetOperation

/-! ## Calls -/

/-- A call on a set operation. -/
inductive SetStep
  | combine (op : SetOperator) (other : Query)
  | orderBy (columns : List Column) (direction : Option Direction)
  | take (n : Int64)
  | skip (n : Int64)
  | withAlias (identity : Identity) (aliasName : Option String)

namespace SetStep

/-- What a call makes of a set operation. -/
def apply (s : SetOperation) : SetStep → SetOperation
  | combine op other => s.combine op other
  | orderBy columns direction => s.orderBy columns direction
  | take n => s.take n
  | skip n => s.skip n
  | withAlias identity aliasName => s.withAlias identity aliasName

/-- What calls make of a set operation, one after another. -/
def run (s : SetOperation) (steps : List SetStep) : SetOperation := steps.foldl apply s

/-- The operator and the statement that a call combines with. -/
def operand? : SetStep → Option Operand
  | combine op other => some ⟨op, other⟩
  | _ => none

/-- The terms that a call sorts by, where bare names belong to the given source. -/
def orderings (source : Option Source) : SetStep → List Ordering
  | orderBy columns direction => columns.map fun c => ⟨c.boundTo source, direction⟩
  | _ => []

theorem base_apply (s : SetOperation) (step : SetStep) : (step.apply s).base = s.base := by
  cases step <;> rfl

/-- Calls put operands and terms to sort by behind those that there are. -/
theorem lists_run (s : SetOperation) (steps : List SetStep) :
    (run s steps).operands = s.operands ++ steps.filterMap operand? ∧
      (run s steps).orderings =
        s.orderings ++ steps.flatMap (orderings s.base.firstSource?) := by
  induction steps generalizing s with
  | nil => exact ⟨(List.append_nil _).symm, (List.append_nil _).symm⟩
  | cons step rest ih =>
    obtain ⟨hoperands, horderings⟩ := ih (step.apply s)
    rw [base_apply] at horderings
    have hone : (step.apply s).operands = s.operands ++ step.operand?.toList ∧
        (step.apply s).orderings = s.orderings ++ step.orderings s.base.firstSource? := by
      cases step with
      | combine op other => exact ⟨rfl, (List.append_nil _).symm⟩
      | orderBy columns direction => exact ⟨(List.append_nil _).symm, rfl⟩
      | _ => exact ⟨(List.append_nil _).symm, (List.append_nil _).symm⟩
    constructor
    · refine hoperands.trans ?_
      rw [hone.1, List.append_assoc, List.filterMap_cons]
      cases step.operand? <;> rfl
    · refine horderings.trans ?_
      rw [hone.2, List.append_assoc, List.flatMap_cons]

end SetStep

namespace SetOperation

variable {outer : Context} {s : SetOperation}

/-! ## The theorem -/

/-- **A set operation is written in the order of its calls, or does not fit together.** Let a set
    operation with any number of operands be written in a context that binds nothing, and let each
    of its statements and of the terms that it is sorted by be one that can be written there.
    * It cannot be written exactly if a statement behind an operator, wherever it stands, selects
      another number of terms than the first one.
    * What it fails with then is the error of set operations that shows the first statement beside
      the first one that does not fit, each as it is written as an operand.
    * Otherwise its tokens are its layout: the statements with the operator of each in front of it,
      the order, the page of the first statement's dialect, parentheses around all of this exactly
      in a nested part, and its own alias if it is to be declared.
    * Operands and terms to sort by stand in the order of the calls that they were given in. -/
theorem finish_layout (hplain : outer.binding = false) (hstatements : s.StatementsWritten outer)
    (horderings : s.OrderingsWritten outer) (p : Parameters) :
    ((∃ e, ((s.draft outer).finish p).1 = .error e) ↔
      ∃ o ∈ s.operands, o.query.selects.length ≠ s.base.selects.length) ∧
    (∀ e, ((s.draft outer).finish p).1 = .error e →
      e.area = .setOperation ∧
        ∃ o, s.operands.find? (fun o => o.query.selects.length != s.base.selects.length) = some o ∧
          e = .unequalOperands
            (Token.texts (s.operandContext outer)
              (s.base.draft (s.operandContext outer)).written)
            (Token.texts (s.operandContext outer)
              (o.query.draft (s.operandContext outer)).written)) ∧
    ((∀ o ∈ s.operands, o.query.selects.length = s.base.selects.length) →
      (s.draft outer).finish p = (.ok (s.layout outer), p)) ∧
    ∀ steps : List SetStep,
      (SetStep.run s steps).operands = s.operands ++ steps.filterMap SetStep.operand? ∧
        (SetStep.run s steps).orderings =
          s.orderings ++ steps.flatMap (SetStep.orderings s.base.firstSource?) := by
  have hbinds := Node.draft_binds_nothing (.setOperation s) hplain
  have hok (hfits : ∀ o ∈ s.operands, s.Fits o) :
      (s.draft outer).finish p = (.ok (s.layout outer), p) := by
    rw [draft_of_fits hplain hstatements horderings hfits]
    exact finish_tokens_eq _ p
  -- the first operand with other columns decides, if there is one
  cases hfirst : s.operands.find? (fun o => o.query.selects.length != s.base.selects.length) with
  | none =>
    have hfits : ∀ o ∈ s.operands, s.Fits o := by
      intro o ho
      have hnot := List.find?_eq_none.mp hfirst o ho
      simpa [Fits] using hnot
    refine ⟨?_, ?_, hok, SetStep.lists_run s⟩
    · constructor
      · rintro ⟨e, he⟩
        rw [hok hfits] at he
        exact nomatch he
      · rintro ⟨o, ho, hunequal⟩
        exact absurd (hfits o ho) hunequal
    · intro e he
      rw [hok hfits] at he
      exact nomatch he
  | some o =>
    obtain ⟨hunequal, before, after, hoperands, hbefore⟩ := List.find?_eq_some_iff_append.mp hfirst
    have hunequal : ¬ s.Fits o := by simpa [Fits] using hunequal
    have hfits : ∀ b ∈ before, s.Fits b := by
      intro b hb
      simpa [Fits] using hbefore b hb
    have hmem : o ∈ s.operands := List.mem_of_find?_eq_some hfirst
    have herror := finish_of_unequal
      (stop_of_unequal hplain hstatements hoperands hfits hunequal) hbinds p
    refine ⟨?_, ?_, ?_, SetStep.lists_run s⟩
    · exact iff_of_true ⟨_, congrArg Prod.fst herror⟩ ⟨o, hmem, hunequal⟩
    · intro e he
      obtain rfl := Except.error.inj ((congrArg Prod.fst herror).symm.trans he)
      exact ⟨rfl, o, rfl, rfl⟩
    · intro hall
      exact absurd (hall o hmem) hunequal

/-- Three statements, sorted by a name that the first one selects under and by a column; and the
    same with a statement of two terms behind them. -/
theorem finish_layout_of_three :
    let select (name : String) (terms : List Term) : Query :=
      { Query.start 1 .mysql with
        sources := [.table (.named 2 name)]
        selects := terms }
    let a : Term := ⟨.field "a" none, some "k"⟩
    let s := SetStep.run ((select "t" [a]).combine 3 .unionAll (select "u" [.field "b"]))
      [.orderBy [.term a] (some .desc), .combine .minus (select "v" [.field "c"]),
        .orderBy [.term (.field "d")] none, .take 5]
    let uneven := SetStep.run s [.combine .union (select "w" [.field "e", .field "f"])]
    let outer := { Context.ofDialect .generic with nested := true, declares := true }
    (s.draft outer).finish {} = (.ok (s.layout outer), {}) ∧
      Token.texts outer (s.layout outer) =
        "(SELECT \"a\" \"k\" FROM \"t\" UNION ALL SELECT \"b\" FROM \"u\" " ++
          "MINUS SELECT \"c\" FROM \"v\" ORDER BY \"k\" DESC,\"d\" LIMIT 5)" ∧
      ∃ e, ((uneven.draft outer).finish {}).1 = .error e ∧ e.area = .setOperation := by
  intro select a s uneven outer
  have hqueries : ∀ q ∈ s.statements ++ uneven.statements,
      (q.draft (s.operandContext outer)).stop.isNone = true := by decide +kernel
  have hterms : ∀ o ∈ s.orderings, (o.term.draft (s.orderContext outer)).stop.isNone = true := by
    decide +kernel
  have hwritten {d : Draft} (h : d.stop.isNone = true) : ∃ ts, (d.finish {}).1 = .ok ts :=
    ⟨_, congrArg Prod.fst (finish_of_complete (Option.isNone_iff_eq_none.mp h) {})⟩
  have hstatements : s.StatementsWritten outer := fun q hq =>
    hwritten (hqueries q (List.mem_append_left _ hq))
  have hothers : uneven.StatementsWritten outer := fun q hq =>
    hwritten (hqueries q (List.mem_append_right _ hq))
  have horderings : s.OrderingsWritten outer := fun o ho => hwritten (hterms o ho)
  obtain ⟨-, -, hlayout, -⟩ := finish_layout rfl hstatements horderings {}
  obtain ⟨hfails, harea, -⟩ := finish_layout (s := uneven) rfl hothers horderings {}
  obtain ⟨e, he⟩ := hfails.mpr (by decide)
  exact ⟨hlayout (by decide), by decide +kernel, e, he, (harea e he).1⟩

end SetOperation

end SqlCompose
