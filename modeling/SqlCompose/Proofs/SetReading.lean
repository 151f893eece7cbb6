import SqlCompose.Combined
import SqlCompose.Proofs.NestedStatements
import SqlCompose.Proofs.RowSets
import SqlCompose.Proofs.Upserts

/-! # Set operations — how a chain of statements is read

    A chain of set operators is kept as a list and written without parentheses of its own, each
    statement between parentheses. So who reads it puts it together again, and takes what INTERSECT
    combines for one operand of the operators around it.

    * `SetOperation.IsChain`, `Query.IsSelect` — a chain without an order or a page of its own, and
      a statement that is written as a SELECT and nothing behind it.
    * `Query.draft_of_isSelect` — such a statement in a chain stands between parentheses.
    * `complete_operandsDraft`, `finish_operandsDraft` — when the operands can be written, and how.
    * `SetOperation.read_chain` — the theorem. -/

namespace SqlCompose

open Draft

/-! ## Selected rows -/

namespace Draft

/-- The draft starts with a keyword. -/
def StartsWithWord (d : Draft) : Prop := ∃ (k : Keyword) (rest : Draft), d = word k ++ rest

theorem StartsWithWord.word (k : Keyword) : (Draft.word k).StartsWithWord :=
  ⟨k, empty, (append_empty _).symm⟩

theorem StartsWithWord.append {a : Draft} (ha : a.StartsWithWord) (b : Draft) :
    (a ++ b).StartsWithWord := by
  obtain ⟨k, rest, rfl⟩ := ha
  exact ⟨k, rest ++ b, append_assoc _ _ _⟩

end Draft

namespace Query

/-- A statement that is written as a SELECT, with nothing behind it. -/
structure IsSelect (q : Query) : Prop where
  selection : q.isSelection = true
  keeps     : q.deletes = false
  reads     : q.inserts = false
  closed    : q.conflict.isOpen = false
  silent    : q.returns = []

instance (q : Query) : Decidable q.IsSelect :=
  decidable_of_iff (q.isSelection = true ∧ q.deletes = false ∧ q.inserts = false ∧
    q.conflict.isOpen = false ∧ q.returns.isEmpty = true)
    ⟨fun ⟨h₁, h₂, h₃, h₄, h₅⟩ => ⟨h₁, h₂, h₃, h₄, List.isEmpty_iff.mp h₅⟩,
      fun h => ⟨h.selection, h.keeps, h.reads, h.closed, List.isEmpty_iff.mpr h.silent⟩⟩

/-- In a chain whose statements stand in parentheses, nothing else is written of a SELECT. -/
theorem draft_of_isSelect {q : Query} (h : q.IsSelect) {outer : Context}
    (hdeclares : outer.declares = false) :
    q.draft outer = parensIf outer.nested (q.inside outer) := by
  rw [draft_of_isSelection h.selection, behind_of_silent h.closed h.silent, Context.declaration,
    hdeclares]
  exact append_empty _

/-- A SELECT starts with a keyword, that of its WITH clauses or its own. -/
theorem startsWithWord_inside {q : Query} (h : q.IsSelect) (outer : Context) :
    (q.inside outer).StartsWithWord := by
  have hselecting : (Clause.selecting (q.innerContext outer) q q.parts).StartsWithWord :=
    (((StartsWithWord.word .select).append space).append _).append _ |>.append _
  have hverb : ((if q.deletes then word .delete
      else when q.inserts (Clause.inserting (q.innerContext outer) q q.parts ++ space) ++
        Clause.selecting (q.innerContext outer) q q.parts) : Draft).StartsWithWord := by
    rw [h.keeps, h.reads]
    exact hselecting
  have hhead : (Clause.withs (q.innerContext outer) q q.parts ++
      (if q.deletes then word .delete
        else when q.inserts (Clause.inserting (q.innerContext outer) q q.parts ++ space) ++
          Clause.selecting (q.innerContext outer) q q.parts)).StartsWithWord := by
    rw [Clause.withs]
    split
    · exact hverb
    · exact ((((StartsWithWord.word .with_).append space).append _).append _).append _
  exact ((((((((((hhead.append _).append _).append _).append _).append _).append _).append
    _).append _).append _).append _).append _

/-- What stands between the parentheses of a SELECT is read as a statement. -/
theorem balanced_inside {q : Query} (h : q.IsSelect) {outer : Context} {p p' : Parameters}
    {body : List Token} (hfinish : (q.inside outer).finish p = (.ok body, p')) :
    Bracket.Balanced body ∧ body.head? ≠ some .lparen := by
  constructor
  · have hstop := complete_of_finish hfinish
    rw [finish_of_complete hstop] at hfinish
    obtain rfl := Except.ok.inj (Prod.mk.inj hfinish).1
    have hdraft : q.draft { outer with nested := false, declares := false } = q.inside outer :=
      draft_of_isSelect h rfl
    have hbracketed :=
      (Node.query q).draft_bracketed { outer with nested := false, declares := false }
    rw [Node.draft, hdraft] at hbracketed
    exact hbracketed hstop p.factory p.values.length []
  · obtain ⟨k, rest, hinside⟩ := startsWithWord_inside h outer
    rw [hinside] at hfinish
    obtain ⟨us, vs, p₁, hword, -, rfl⟩ := finish_append_ok hfinish
    obtain rfl : [Token.keyword k] = us :=
      Except.ok.inj (congrArg Prod.fst ((finish_tokens_eq [.keyword k] p).symm.trans hword))
    exact nofun

end Query

/-! ## Chains -/

namespace SetOperation

/-- The statements of a set operation. -/
def statements (s : SetOperation) : List Query := s.base :: s.operands.map Operand.query

/-- The operators of a set operation. -/
def operators (s : SetOperation) : List SetOperator := s.operands.map Operand.operator

/-- A chain without an order and a page of its own. -/
structure IsChain (s : SetOperation) : Prop where
  unordered : s.orderings = []
  unlimited : s.limit = none
  whole     : s.offset = none

theorem isChain_combine (identity : Identity) (op : SetOperator) (q other : Query) :
    (q.combine identity op other).IsChain where
  unordered := rfl
  unlimited := rfl
  whole := rfl

theorem IsChain.combine {s : SetOperation} (h : s.IsChain) (op : SetOperator) (other : Query) :
    (s.combine op other).IsChain :=
  ⟨h.unordered, h.unlimited, h.whole⟩

/-- A further call asks for its operator between the rows so far and those of its statement. -/
theorem asked_combine (s : SetOperation) (op : SetOperator) (other : Query) :
    RowSet.asked (s.combine op other).operators =
      .combined op (RowSet.asked s.operators) (.operand s.statements.length) := by
  have hoperators : (s.combine op other).operators = s.operators ++ [op] := List.map_append
  rw [hoperators, RowSet.asked_append, operators, statements, List.length_cons, List.length_map,
    List.length_map]

/-- The context of the statements of a set operation. -/
def operandContext (outer : Context) (s : SetOperation) : Context :=
  { outer with
    dialect := s.base.dialect
    identQuote := s.base.dialect.identQuote
    nested := s.base.dialect.wrapsOperands }

end SetOperation

theorem Dialect.pagination_none (d : Dialect) (ordered : Bool) :
    d.pagination none none ordered = Draft.empty := by
  cases d <;> rfl

namespace SetOperation

/-- A chain is written as its statements, with the operators between them. -/
theorem draft_of_isChain {s : SetOperation} (h : s.IsChain) {outer : Context}
    (hdeclares : outer.declares = false) :
    s.draft outer = parensIf outer.nested (s.base.draft (s.operandContext outer) ++
      operandsDraft (s.operandContext outer) s.base.selects.length
        (s.base.draft (s.operandContext outer)) s.operands) := by
  have hdeclaration (aliasName : Option String) : outer.declaration aliasName = empty := by
    rw [Context.declaration, hdeclares]
    rfl
  obtain ⟨base, operands, orderings, limit, offset, slot⟩ := s
  obtain ⟨rfl, rfl, rfl⟩ := h
  rw [SetOperation.draft_eq, hdeclaration, append_empty]
  refine congrArg (parensIf outer.nested) ?_
  show _ ++ empty ++ base.dialect.pagination none none _ = _
  rw [Dialect.pagination_none, append_empty, append_empty]
  rfl

end SetOperation

/-! ## When operands can be written, and how -/

section

variable {ctx : Context} {count : Nat} {main : Draft}

/-- An operand that selects as many terms as it has to is written behind its operator. -/
theorem operandsDraft_cons {o : Operand} (hcount : o.query.selects.length = count)
    (rest : List Operand) :
    operandsDraft ctx count main (o :: rest) =
      tokens o.operator.tokens ++ o.query.draft ctx ++ operandsDraft ctx count main rest := by
  obtain ⟨operator, query⟩ := o
  simp only [operandsDraft]
  exact if_neg (by simpa using hcount)

/-- An operand that does not ends the writing. -/
theorem operandsDraft_unequal {o : Operand} (hcount : o.query.selects.length ≠ count)
    (rest : List Operand) :
    operandsDraft ctx count main (o :: rest) = unequal ctx main (o.query.draft ctx) := by
  obtain ⟨operator, query⟩ := o
  simp only [operandsDraft]
  exact if_pos (by simpa using hcount)

/-- The operands can be written if each of them can and selects as many terms as it has to. -/
theorem complete_operandsDraft (operands : List Operand) :
    (operandsDraft ctx count main operands).stop = none ↔
      ∀ o ∈ operands, o.query.selects.length = count ∧ (o.query.draft ctx).stop = none := by
  induction operands with
  | nil => exact iff_of_true rfl (List.forall_mem_nil _)
  | cons o rest ih =>
    rw [List.forall_mem_cons, ← ih]
    by_cases hcount : o.query.selects.length = count
    · rw [operandsDraft_cons hcount]
      simp only [complete_append_iff, hcount, true_and]
      exact and_congr_left fun _ => and_iff_right rfl
    · rw [operandsDraft_unequal hcount]
      exact iff_of_false (unequal_stop ctx main _) fun h => hcount h.1.1

/-- The operands are written one behind the other, each between parentheses and behind its
    operator. -/
theorem finish_operandsDraft {operands : List Operand} (hnested : ctx.nested = true)
    (hdeclares : ctx.declares = false) (hselect : ∀ o ∈ operands, o.query.IsSelect)
    {p p' : Parameters} {ts : List Token}
    (h : (operandsDraft ctx count main operands).finish p = (.ok ts, p')) :
    ∃ bodies : List (List Token),
      List.Forall₂ (fun q body => ∃ p₁ p₂ : Parameters, (q.inside ctx).finish p₁ = (.ok body, p₂))
        (operands.map Operand.query) bodies ∧
        ts = RowSet.chainTokens ((operands.map Operand.operator).zip bodies) := by
  induction operands generalizing p ts with
  | nil =>
    obtain rfl : [] = ts := Except.ok.inj (congrArg Prod.fst ((finish_tokens_eq [] p).symm.trans h))
    exact ⟨[], .nil, rfl⟩
  | cons o rest ih =>
    -- what is written to its end has operands of equal length only
    have hcount := ((complete_operandsDraft (o :: rest)).mp (complete_of_finish h) o
      List.mem_cons_self).1
    rw [operandsDraft_cons hcount, Query.draft_of_isSelect (hselect o List.mem_cons_self) hdeclares,
      hnested] at h
    obtain ⟨us, vs, p₁, hus, hvs, rfl⟩ := finish_append_ok h
    obtain ⟨first, second, p₂, hfirst, hsecond, rfl⟩ := finish_append_ok hus
    obtain rfl : o.operator.tokens = first :=
      Except.ok.inj (congrArg Prod.fst ((finish_tokens_eq _ p).symm.trans hfirst))
    obtain ⟨body, hbody, rfl⟩ := finish_parensIf_ok hsecond
    obtain ⟨bodies, hbodies, rfl⟩ := ih (fun o ho => hselect o (List.mem_cons_of_mem _ ho)) hvs
    exact ⟨body :: bodies, .cons ⟨p₂, p₁, hbody⟩ hbodies, rfl⟩

end

/-! ## The theorem -/

/-- What stands in a chain at each position. -/
theorem map_positions (ops : List SetOperator) (before bodies : List (List Token))
    (hlength : ops.length = bodies.length) :
    (RowSet.positions before.length ops).map (Prod.map id fun i => (before ++ bodies).getD i []) =
      ops.zip bodies := by
  induction ops generalizing before bodies with
  | nil => rfl
  | cons op rest ih =>
    obtain ⟨body, bodies, rfl⟩ := List.exists_cons_of_length_eq_add_one hlength.symm
    have hrest := ih (before ++ [body]) bodies (Nat.succ.inj hlength)
    rw [List.append_assoc, List.length_append] at hrest
    have hfirst : (before ++ body :: bodies).getD before.length [] = body := by
      simp
    rw [RowSet.positions, List.zipIdx_cons, List.map_cons, List.zip_cons_cons]
    exact congrArg₂ List.cons (congrArg (Prod.mk op) hfirst) hrest

namespace SetOperation

/-- The tokens of a chain, in the parentheses around it, are read as one tree: that of its operators
    with INTERSECT in front of the others. -/
theorem derives_chain {s : SetOperation} (hchain : s.IsChain)
    (hwraps : s.base.dialect.wrapsOperands = true) (hselect : ∀ q ∈ s.statements, q.IsSelect)
    {outer : Context} (hdeclares : outer.declares = false) {p p' : Parameters} {ts : List Token}
    (h : (s.draft outer).finish p = (.ok ts, p')) :
    ∃ bodies : List (List Token),
      List.Forall₂ (fun q body => ∃ p₁ p₂ : Parameters,
        (q.inside (s.operandContext outer)).finish p₁ = (.ok body, p₂)) s.statements bodies ∧
        RowSet.Derives .expression ts
          ((RowSet.read s.operators).map fun i => bodies.getD i []) := by
  obtain ⟨hbase, hoperands⟩ := List.forall_mem_cons.mp hselect
  have hoperands : ∀ o ∈ s.operands, o.query.IsSelect :=
    fun o ho => hoperands o.query (List.mem_map_of_mem ho)
  rw [draft_of_isChain hchain hdeclares] at h
  obtain ⟨chain, hfinish, rfl⟩ := finish_parensIf_ok h
  obtain ⟨us, vs, p₁, hus, hvs, rfl⟩ := finish_append_ok hfinish
  have hnested : (s.operandContext outer).nested = true := hwraps
  have hdeclares : (s.operandContext outer).declares = false := hdeclares
  rw [Query.draft_of_isSelect hbase hdeclares, hnested] at hus
  obtain ⟨first, hfirst, rfl⟩ := finish_parensIf_ok hus
  obtain ⟨bodies, hbodies, rfl⟩ := finish_operandsDraft hnested hdeclares hoperands hvs
  refine ⟨first :: bodies, .cons ⟨p, p₁, hfirst⟩ hbodies, ?_⟩
  have hlength : s.operators.length = bodies.length := by
    rw [operators, List.length_map, ← hbodies.length_eq, List.length_map]
  -- the reading by position is the grouping of the bodies that stand there
  have hread : (RowSet.read s.operators).map (fun i => (first :: bodies).getD i []) =
      RowSet.grouped none (.operand first) (s.operators.zip bodies) := by
    rw [RowSet.read, RowSet.map_grouped]
    exact congrArg (RowSet.grouped none (.operand first)) (map_positions _ [first] bodies hlength)
  have hbehind : ∀ body ∈ bodies, Bracket.Balanced body ∧ body.head? ≠ some .lparen := by
    have hboth : List.Forall₂
        (fun body (q : Query) => (Bracket.Balanced body ∧ body.head? ≠ some .lparen) ∧ q.IsSelect)
        bodies (s.operands.map Operand.query) := by
      have hselected := List.forall_mem_map.mpr hoperands
      refine (((List.forall₂_and_left _ _).mpr ⟨hselected, hbodies⟩).imp ?_).flip
      rintro q body ⟨hq, p₁, p₂, hbody⟩
      exact ⟨Query.balanced_inside hq hbody, hq⟩
    exact ((List.forall₂_and_left _ _).mp hboth).1
  have hrest : ∀ x ∈ s.operators.zip bodies,
      Bracket.Balanced x.2 ∧ x.2.head? ≠ some .lparen :=
    fun x hx => hbehind x.2 (List.of_mem_zip hx).2
  obtain ⟨hbalanced, hstart⟩ := Query.balanced_inside hbase hfirst
  have hderives := RowSet.derives_grouped hrest .none (.factor (.operand hbalanced hstart))
  rw [hread]
  cases outer.nested with
  | false => exact hderives
  | true => exact .term (.factor (.parens hderives))

/-- **A chain of set operators is read with INTERSECT in front.** Let a chain of SELECT statements
    without an order and a page of its own be written in a dialect that puts them in parentheses,
    where aliases are not declared. It can be written exactly if each of them can and all select
    equally many terms. Its tokens are then an expression of the grammar in which INTERSECT binds
    tighter and operators go on from left to right otherwise, with what is written of the statements
    as its operands; and there is no other tree for them. As it is read, the chain stands for the
    same rows as one operator applied after the other, whichever the rows of the statements are,
    exactly if no INTERSECT stands behind another operator. -/
theorem read_chain {s : SetOperation} (hchain : s.IsChain)
    (hwraps : s.base.dialect.wrapsOperands = true) (hselect : ∀ q ∈ s.statements, q.IsSelect)
    {outer : Context} (hdeclares : outer.declares = false) :
    ((s.draft outer).stop = none ↔
      ∀ q ∈ s.statements, q.selects.length = s.base.selects.length ∧
        (q.inside (s.operandContext outer)).stop = none) ∧
      (∀ (p p' : Parameters) (ts : List Token), (s.draft outer).finish p = (.ok ts, p') →
        ∃ bodies : List (List Token),
          List.Forall₂ (fun q body => ∃ p₁ p₂ : Parameters,
            (q.inside (s.operandContext outer)).finish p₁ = (.ok body, p₂)) s.statements bodies ∧
            ∀ e, RowSet.Derives .expression ts e ↔
              e = (RowSet.read s.operators).map fun i => bodies.getD i []) ∧
      ((∀ (ρ : Type) [DecidableEq ρ] (rows : ℕ → Multiset ρ),
        (RowSet.read s.operators).value rows = (RowSet.asked s.operators).value rows) ↔
          SetOperator.Sorted s.operators) := by
  refine ⟨?_, ?_, RowSet.value_grouped_iff s.operators⟩
  · obtain ⟨hbase, hoperands⟩ := List.forall_mem_cons.mp hselect
    have hquery {q : Query} (hq : q.IsSelect) :
        (q.draft (s.operandContext outer)).stop = none ↔
          (q.inside (s.operandContext outer)).stop = none := by
      have hdeclares : (s.operandContext outer).declares = false := hdeclares
      rw [Query.draft_of_isSelect hq hdeclares, complete_parensIf_iff]
    rw [draft_of_isChain hchain hdeclares, complete_parensIf_iff, complete_append_iff,
      complete_operandsDraft, hquery hbase, statements, List.forall_mem_cons, List.forall_mem_map]
    refine and_congr (and_iff_right rfl).symm (forall₂_congr fun o ho => ?_)
    rw [hquery (hoperands o.query (List.mem_map_of_mem ho))]
  · intro p p' ts h
    obtain ⟨bodies, hbodies, hderives⟩ := derives_chain hchain hwraps hselect hdeclares h
    refine ⟨bodies, hbodies, fun e => ⟨fun he => hderives.unique he, ?_⟩⟩
    rintro rfl
    exact hderives

/-- The rows that two tables have in common, and those of a third one. -/
theorem read_chain_intersect_union :
    let select (name : String) : Query :=
      { Query.start 1 .generic with
        sources := [.table (.named 2 name)]
        selects := [⟨.field "x" none, none⟩] }
    let s := ((select "a").combine 3 .intersect (select "b")).combine .union (select "c")
    let outer := Context.ofDialect .generic
    ∃ (ts : List Token) (p : Parameters) (bodies : List (List Token)),
      (s.draft outer).finish {} = (.ok ts, p) ∧
        RowSet.Derives .expression ts ((RowSet.read s.operators).map fun i => bodies.getD i []) ∧
        ∀ (ρ : Type) [DecidableEq ρ] (rows : ℕ → Multiset ρ),
          (RowSet.read s.operators).value rows = (RowSet.asked s.operators).value rows := by
  intro select s outer
  have hchain : s.IsChain := (isChain_combine 3 .intersect _ _).combine .union _
  have hselect : ∀ q ∈ s.statements, q.IsSelect := by decide
  have hdeclares : outer.declares = false := rfl
  have hinside : ∀ q ∈ s.statements, q.selects.length = s.base.selects.length ∧
      (q.inside (s.operandContext outer)).stop.isNone = true := by
    decide +kernel
  obtain ⟨hcomplete, hread, hvalue⟩ := read_chain hchain rfl hselect hdeclares
  have hstop : (s.draft outer).stop = none :=
    hcomplete.mpr fun q hq => ⟨(hinside q hq).1, Option.isNone_iff_eq_none.mp (hinside q hq).2⟩
  have hfinish := finish_of_complete hstop {}
  obtain ⟨bodies, -, hderives⟩ := hread _ _ _ hfinish
  exact ⟨_, _, bodies, hfinish, (hderives _).mpr rfl, hvalue.mpr (by decide)⟩

/-- The rows of two tables, and those that they have in common with a third one. With one row in the
    first table alone, nothing is left of the chain as it is asked for; it is read as the rows of
    the first table and those that the others have in common. -/
theorem read_chain_union_intersect :
    let select (name : String) : Query :=
      { Query.start 1 .generic with
        sources := [.table (.named 2 name)]
        selects := [⟨.field "id" none, none⟩] }
    let s := ((select "a").combine 3 .union (select "b")).combine .intersect (select "c")
    let body (name : String) : List Token :=
      [.keyword .select, .space, .ident "id", .space, .keyword .from_, .space, .ident name]
    let rows (body' : List Token) : Multiset ℕ := if body' = body "a" then {1} else 0
    let asked : RowSet (List Token) :=
      .combined .intersect (.combined .union (.operand (body "a")) (.operand (body "b")))
        (.operand (body "c"))
    let read : RowSet (List Token) :=
      .combined .union (.operand (body "a"))
        (.combined .intersect (.operand (body "b")) (.operand (body "c")))
    ∃ (ts : List Token) (p : Parameters),
      (s.draft (Context.ofDialect .generic)).finish {} = (.ok ts, p) ∧
        RowSet.Derives .expression ts read ∧ read.value rows = {1} ∧ asked.value rows = 0 := by
  intro select s body rows asked read
  have hchain : s.IsChain := (isChain_combine 3 .union _ _).combine .intersect _
  have hselect : ∀ q ∈ s.statements, q.IsSelect := by decide
  have hstop : (s.draft (Context.ofDialect .generic)).stop = none :=
    Option.isNone_iff_eq_none.mp (by decide +kernel)
  have hfinish := finish_of_complete hstop {}
  obtain ⟨bodies, -, hderives⟩ := derives_chain hchain rfl hselect rfl hfinish
  have hread : RowSet.read?
      (Piece.number none 0 (s.draft (Context.ofDialect .generic)).pieces) = some read := by
    decide +kernel
  rw [Option.some.inj (hderives.read?_eq.symm.trans hread)] at hderives
  exact ⟨_, _, hfinish, hderives, by decide +kernel, by decide +kernel⟩

end SetOperation

end SqlCompose
