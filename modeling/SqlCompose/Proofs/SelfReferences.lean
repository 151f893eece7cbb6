import SqlCompose.Proofs.Everywhere
import SqlCompose.Proofs.SetReading
import SqlCompose.Proofs.WrittenLists

/-! # Self-references — when WITH is written with RECURSIVE

    A WITH clause needs RECURSIVE if its body reads the clause itself, wherever in the body the
    statement stands that does so. Looked at are the body, or all statements of a set operation if
    that is what it is: what they have in FROM and JOIN, and no further. So RECURSIVE is never
    written where it is not needed, and it is missing exactly where all statements that read a
    clause in itself stand deeper: in an item of FROM or JOIN, in a term, or in a WITH clause of the
    body.

    * `Query.ReadsName` — a statement reads a name in FROM or JOIN.
    * `Cte.ReadsItself`, `Cte.ReadsOpenly`, `Cte.ReadsDeeper` — a WITH clause reads itself:
      anywhere, where it is looked for, and deeper.
    * `Cte.readsItself_iff`, `Cte.isRecursive_iff` — it reads itself openly or deeper, and is taken
      for recursive if it does so openly.
    * `Query.opening`, `Query.opened_of_writes` — how a statement with WITH clauses starts.
    * `Query.recursive_written` — the theorem. -/

namespace SqlCompose

open Draft

/-! ## Statements that read a name -/

namespace FromItem

/-- The item is the WITH clause of this name, or a table of this name outside of all schemas. -/
def Names (name : String) : FromItem → Prop
  | .cte other => other = name
  | .table t => t.schema = none ∧ t.name = name
  | .query _ | .setOperation _ => False

theorem reads_iff {name : String} {item : FromItem} : item.reads name = true ↔ item.Names name := by
  cases item with
  | cte other => simp only [reads, Names, beq_iff_eq]
  | table t =>
    simp only [reads, Names, Bool.and_eq_true, Option.isNone_iff_eq_none, beq_iff_eq]
  | query q => exact iff_of_false nofun id
  | setOperation s => exact iff_of_false nofun id

/-- The statements that the item is, one or those of a set operation. -/
def statements : FromItem → List Query
  | .query q => [q]
  | .setOperation s => s.statements
  | .table _ | .cte _ => []

end FromItem

namespace Query

/-- The statement reads the name in FROM or JOIN. -/
def ReadsName (name : String) (q : Query) : Prop := ∃ item ∈ q.items, item.Names name

theorem reads_iff {name : String} {q : Query} : q.reads name = true ↔ q.ReadsName name := by
  simp only [reads, ReadsName, items, Bool.or_eq_true, List.any_eq_true, List.mem_append,
    List.mem_map, FromItem.reads_iff]
  constructor
  · rintro (⟨item, hitem, hnames⟩ | ⟨j, hj, hnames⟩)
    · exact ⟨item, .inl hitem, hnames⟩
    · exact ⟨j.item, .inr ⟨j, hj, rfl⟩, hnames⟩
  · rintro ⟨item, hitem | ⟨j, hj, rfl⟩, hnames⟩
    · exact .inl ⟨item, hitem, hnames⟩
    · exact .inr ⟨j, hj, hnames⟩

end Query

theorem SetOperation.reads_iff {name : String} {s : SetOperation} :
    s.reads name = true ↔ ∃ q ∈ s.statements, q.ReadsName name := by
  simp only [reads, statements, Bool.or_eq_true, List.any_eq_true, List.mem_cons, List.mem_map,
    Query.reads_iff]
  constructor
  · rintro (hbase | ⟨o, ho, hreads⟩)
    · exact ⟨s.base, .inl rfl, hbase⟩
    · exact ⟨o.query, .inr ⟨o, ho, rfl⟩, hreads⟩
  · rintro ⟨q, rfl | ⟨o, ho, rfl⟩, hreads⟩
    · exact .inl hreads
    · exact .inr ⟨o, ho, hreads⟩

/-! ## WITH clauses that read themselves -/

/-- The part of a tree is not a statement that reads the name. -/
def Part.Spares (name : String) : Part → Prop
  | .query q => ¬q.ReadsName name
  | .expr _ | .table _ | .setOperation _ => True

section

variable {P : Part → Prop}

theorem operandsEverywhere_iff (operands : List Operand) :
    operandsEverywhere P operands ↔ ∀ o ∈ operands, P (.query o.query) ∧ o.query.Below P := by
  induction operands with
  | nil => exact iff_of_true trivial nofun
  | cons o rest ih =>
    obtain ⟨operator, query⟩ := o
    rw [List.forall_mem_cons, ← ih]
    rfl

theorem SetOperation.below_iff (s : SetOperation) :
    s.Below P ↔ (∀ q ∈ s.statements, P (.query q) ∧ q.Below P) ∧
      orderingsEverywhere P s.orderings := by
  rw [statements, List.forall_mem_cons, List.forall_mem_map, and_assoc, ← operandsEverywhere_iff]
  cases s
  rfl

/-- Everywhere in an item but in the statements that it is. -/
def FromItem.Beneath (P : Part → Prop) (item : FromItem) : Prop :=
  (∀ q ∈ item.statements, q.Below P) ∧
    match item with
    | .table t => t.Below P
    | .setOperation s => orderingsEverywhere P s.orderings
    | .query _ | .cte _ => True

/-- A name is spared everywhere in an item if it is by the statements that the item is, and
    everywhere in these. -/
theorem FromItem.everywhere_spares_iff (name : String) (item : FromItem) :
    item.Everywhere (Part.Spares name) ↔
      (∀ q ∈ item.statements, ¬q.ReadsName name) ∧ item.Beneath (Part.Spares name) := by
  cases item with
  | table t =>
    show True ∧ t.Below _ ↔ (∀ q ∈ [], _) ∧ (∀ q ∈ [], _) ∧ t.Below _
    simp only [List.not_mem_nil, false_imp_iff, implies_true, true_and]
  | query q =>
    show ¬q.ReadsName name ∧ q.Below _ ↔ (∀ r ∈ [q], ¬r.ReadsName name) ∧ (∀ r ∈ [q], _) ∧ True
    simp only [List.forall_mem_singleton, and_true]
  | setOperation s =>
    show True ∧ s.Below _ ↔ _ ∧ (∀ q ∈ s.statements, _) ∧ orderingsEverywhere _ s.orderings
    rw [true_and, s.below_iff, forall₂_and, and_assoc]
    rfl
  | cte other =>
    show True ↔ (∀ q ∈ [], _) ∧ (∀ q ∈ [], _) ∧ True
    simp only [List.not_mem_nil, false_imp_iff, implies_true, and_self]

end

namespace Cte

/-- The WITH clause reads itself: a statement somewhere in its body reads its name. -/
def ReadsItself (c : Cte) : Prop := ¬c.body.Everywhere (Part.Spares c.name)

/-- The WITH clause reads itself where that is looked for: its body reads its name, or a statement
    of the set operation that is its body. -/
def ReadsOpenly (c : Cte) : Prop := ∃ q ∈ c.body.statements, q.ReadsName c.name

/-- The WITH clause reads itself in a statement that stands deeper in its body. -/
def ReadsDeeper (c : Cte) : Prop := ¬c.body.Beneath (Part.Spares c.name)

theorem readsItself_iff (c : Cte) : c.ReadsItself ↔ c.ReadsOpenly ∨ c.ReadsDeeper := by
  rw [ReadsItself, FromItem.everywhere_spares_iff, not_and_or, ReadsOpenly, ReadsDeeper]
  refine or_congr_left ?_
  push Not
  rfl

theorem isRecursive_iff (c : Cte) : c.isRecursive = true ↔ c.ReadsOpenly := by
  obtain ⟨name, body, columns⟩ := c
  cases body with
  | query q =>
    show q.reads name = true ↔ ∃ r ∈ [q], r.ReadsName name
    rw [Query.reads_iff]
    simp only [List.mem_singleton, exists_eq_left]
  | setOperation s => exact SetOperation.reads_iff
  | table t => exact iff_of_false nofun fun ⟨_, h, _⟩ => nomatch h
  | cte other => exact iff_of_false nofun fun ⟨_, h, _⟩ => nomatch h

end Cte

/-! ## How a statement starts -/

namespace Query

/-- The tokens at the start of a statement with WITH clauses; a selection that is nested stands in
    parentheses. -/
def opening (outer : Context) (q : Query) : List Token :=
  (if outer.nested && q.isSelection then [.lparen] else []) ++ [.keyword .with_, .space]

variable {q : Query}

/-- Every statement that is written starts with its WITH clauses. -/
theorem draft_eq_withs (hblank : q.isBlank = false) (outer : Context) :
    ∃ rest : Draft, q.draft outer =
      when (outer.nested && q.isSelection) (token .lparen) ++
        (Clause.withs (q.innerContext outer) q q.parts ++ rest) := by
  cases hselection : q.isSelection with
  | true =>
    have hinside : ∃ rest : Draft, q.inside outer =
        Clause.withs (q.innerContext outer) q q.parts ++ rest := by
      rw [inside, Clause.selection]
      simp only [append_assoc]
      exact ⟨_, rfl⟩
    obtain ⟨rest, hinside⟩ := hinside
    rw [draft_of_isSelection hselection, hinside]
    cases outer.nested with
    | true =>
      refine ⟨rest ++ (token .rparen ++ q.behind outer), ?_⟩
      simp only [parensIf, parens, if_true, append_assoc]
      rfl
    | false => exact ⟨rest ++ q.behind outer, append_assoc _ _ _⟩
  | false =>
    -- an UPDATE or an INSERT of rows, which is never put in parentheses
    rw [Bool.and_false]
    show ∃ rest, Clause.statement outer q q.parts = _
    simp only [isSelection, hblank, Bool.not_false, Bool.true_and] at hselection
    simp only [Clause.statement, hblank, Bool.false_eq_true, if_false]
    cases htable : q.updateTable with
    | some t =>
      simp only [Clause.update, append_assoc]
      exact ⟨_, rfl⟩
    | none =>
      have hrows : (q.inserts && !q.rows.isEmpty) = true := by simpa [htable] using hselection
      simp only [hrows, if_true, Clause.insertion, append_assoc]
      exact ⟨_, rfl⟩

/-- WITH clauses start with the name of the first one. -/
theorem commas_cteDrafts (ctx : Context) (c : Cte) (rest : List Cte) :
    ∃ behind : Draft, commas (cteDrafts ctx (c :: rest)) = raw c.name ++ behind := by
  obtain ⟨name, body, columns⟩ := c
  cases rest with
  | nil =>
    show ∃ behind, raw name ++ _ ++ _ ++ _ = raw name ++ behind
    simp only [append_assoc]
    exact ⟨_, rfl⟩
  | cons second rest =>
    obtain ⟨other, second, added⟩ := second
    show ∃ behind, raw name ++ _ ++ _ ++ _ ++ token .comma ++
      commas (cteDrafts ctx (⟨other, second, added⟩ :: rest)) = raw name ++ behind
    simp only [append_assoc]
    exact ⟨_, rfl⟩

/-- Behind WITH, there is RECURSIVE if one of the clauses is taken for recursive, and then the name
    of the first one. -/
theorem opened_of_writes (hblank : q.isBlank = false) {c : Cte} {rest : List Cte}
    (hctes : q.ctes = c :: rest) {outer : Context} {ts : List Token}
    (h : (q.draft outer).Writes ts) :
    ∃ behind : List Token, ts = q.opening outer ++
      ((if q.ctes.any Cte.isRecursive then [.keyword .recursive, .space] else []) ++
        .raw c.name :: behind) := by
  obtain ⟨rear, hdraft⟩ := draft_eq_withs hblank outer
  obtain ⟨clauses, hclauses⟩ := commas_cteDrafts (q.innerContext outer) c rest
  -- with the first definition taken apart, the clause starts with tokens only
  have hwiths : Clause.withs (q.innerContext outer) q q.parts =
      tokens [.keyword .with_, .space] ++
        (when (q.ctes.any Cte.isRecursive) (tokens [.keyword .recursive, .space]) ++
          (tokens [.raw c.name] ++ clauses)) := by
    have hnone : (cteDrafts (q.innerContext outer) q.ctes).isEmpty = false := by
      rw [hctes]
      cases c
      rfl
    rw [parts_eq]
    simp only [Clause.withs, hnone, Bool.false_eq_true, if_false, append_assoc]
    rw [hctes, hclauses]
    rfl
  have hwhen {condition : Bool} (us : List Token) {vs : List Token}
      (h : (when condition (tokens us)).Writes vs) : vs = if condition then us else [] := by
    cases condition with
    | true => exact Writes.of_tokens h
    | false => exact Writes.of_empty h
  rw [hdraft, hwiths] at h
  obtain ⟨front, body, hfront, hbody, rfl⟩ := h.of_append
  obtain ⟨clause, further, hclause, -, rfl⟩ := hbody.of_append
  obtain ⟨listed, hlisted, rfl⟩ := Writes.of_behind _ hclause
  obtain ⟨recursive, named, hrecursive, hnamed, rfl⟩ := hlisted.of_append
  obtain ⟨behind, -, rfl⟩ := Writes.of_behind _ hnamed
  obtain rfl := hwhen [.lparen] hfront
  obtain rfl := hwhen _ hrecursive
  refine ⟨behind ++ further, ?_⟩
  simp only [opening, List.append_assoc, List.cons_append, List.nil_append]

/-! ## The theorem -/

/-- The tokens at the start of a statement with WITH clauses that are taken for recursive. -/
def recursiveOpening (outer : Context) (q : Query) : List Token :=
  q.opening outer ++ [.keyword .recursive, .space]

/-- **RECURSIVE is written where it is looked for.** Let a statement have WITH clauses.
    * Without enough in it, nothing is written of it. Otherwise all that is written starts with
      WITH, behind the opening parenthesis of a nested selection.
    * RECURSIVE stands behind WITH exactly if one of the clauses reads itself openly: its body, or a
      statement of the set operation that is its body, has in FROM or JOIN the WITH clause of that
      name, or a table of that name outside of all schemas.
    * RECURSIVE is needed, since one of the clauses reads itself anywhere in its body, exactly if it
      is written or one of the clauses reads itself in a statement that stands deeper. -/
theorem recursive_written (hctes : q.ctes ≠ []) (outer : Context) :
    (q.isBlank = true → q.draft outer = .empty) ∧
    (q.isBlank = false → ∀ (p : Parameters) (ts : List Token),
      ((q.draft outer).finish p).1 = .ok ts →
        q.opening outer <+: ts ∧
        (q.recursiveOpening outer <+: ts ↔ ∃ c ∈ q.ctes, c.ReadsOpenly) ∧
        ((∃ c ∈ q.ctes, c.ReadsItself) ↔
          q.recursiveOpening outer <+: ts ∨ ∃ c ∈ q.ctes, c.ReadsDeeper)) := by
  refine ⟨?_, ?_⟩
  · intro hblank
    show Clause.statement outer q q.parts = .empty
    simp only [Clause.statement, hblank, if_true]
  · intro hblank p ts hfinish
    obtain ⟨c, rest, hlist⟩ := List.exists_cons_of_ne_nil hctes
    obtain ⟨behind, rfl⟩ := opened_of_writes hblank hlist ⟨p, _, Prod.ext hfinish rfl⟩
    have hany : q.ctes.any Cte.isRecursive = true ↔ ∃ c ∈ q.ctes, c.ReadsOpenly := by
      simp only [List.any_eq_true, Cte.isRecursive_iff]
    have hwritten : q.recursiveOpening outer <+: q.opening outer ++
        ((if q.ctes.any Cte.isRecursive then [.keyword .recursive, .space] else []) ++
          .raw c.name :: behind) ↔ ∃ c ∈ q.ctes, c.ReadsOpenly := by
      rw [← hany, recursiveOpening, List.prefix_append_right_inj]
      cases q.ctes.any Cte.isRecursive with
      | true => exact iff_of_true (List.prefix_append _ _) rfl
      | false =>
        -- what stands behind WITH is a name, and not a keyword
        refine iff_of_false (fun hprefix => ?_) Bool.false_ne_true
        have hname := (List.cons_prefix_cons.mp hprefix).1
        cases hname
    refine ⟨List.prefix_append _ _, hwritten, ?_⟩
    rw [hwritten, ← exists_or]
    refine exists_congr fun c => ?_
    rw [← and_or_left, c.readsItself_iff]

/-- Numbers from one on, each the one before it and one more. -/
theorem recursive_written_union :
    let n := Term.field "n"
    let first : Query := { start 1 .postgres with selects := [.value (.int 1)] }
    let next : Query :=
      { start 2 .postgres with
        sources := [.cte "t"]
        selects := [.arithmetic .add n (.value (.int 1))] }
    let numbers : Cte :=
      ⟨"t", .setOperation { base := first, operands := [⟨.unionAll, next⟩], slot := ⟨3, none⟩ },
        [n]⟩
    let q : Query :=
      { start 4 .postgres with ctes := [numbers], sources := [.cte "t"], selects := [n] }
    let ctx := Context.ofDialect .postgres
    let text := "WITH RECURSIVE t(\"n\") AS ((SELECT 1) UNION ALL (SELECT \"n\"+1 FROM t)) " ++
      "SELECT \"n\" FROM t"
    q.ctes ≠ [] ∧ ∃ ts, ((q.draft ctx).finish {}).1 = .ok ts ∧ Token.texts ctx ts = text ∧
      q.recursiveOpening ctx <+: ts ∧ ∃ c ∈ q.ctes, c.ReadsItself := by
  intro n first next numbers q ctx text
  have htext : ((q.draft ctx).finish {}).1.toOption.map (Token.texts ctx) = some text := by
    decide +kernel
  obtain ⟨ts, hts, htext⟩ := exists_ok_of_map htext
  obtain ⟨-, hwritten⟩ := recursive_written (q := q) (List.cons_ne_nil numbers []) ctx
  obtain ⟨-, hopenly, hneeded⟩ := hwritten rfl {} ts hts
  have hreads : numbers.ReadsOpenly :=
    ⟨next, List.mem_cons_of_mem _ (List.mem_singleton_self next), .cte "t",
      List.mem_singleton_self _, rfl⟩
  have hrecursive := hopenly.mpr ⟨numbers, List.mem_singleton_self numbers, hreads⟩
  exact ⟨List.cons_ne_nil numbers [], ts, hts, htext, hrecursive, hneeded.mpr (.inl hrecursive)⟩

/-- A WITH clause that reads itself in a statement in FROM. -/
theorem recursive_missing :
    let reading (identity : Identity) (item : FromItem) (before : List Step) :=
      Step.run (.start identity .generic) (before ++ [.readFrom item, .select [.name "n"]])
    let text := "WITH x AS (SELECT \"sq0\".\"n\" FROM (SELECT \"x\".\"n\" FROM x) \"sq0\") " ++
      "SELECT \"x\".\"n\" FROM x"
    ∃ inner body q : Query, reading 1 (.cte "x") [] = .ok inner ∧
      reading 2 (.query inner) [] = .ok body ∧
      reading 3 (.cte "x") [.withClause (.query body) "x" []] = .ok q ∧
      (∃ c ∈ q.ctes, c.ReadsItself) ∧ q.sql = .ok text := by
  intro reading text
  refine ⟨_, _, _, rfl, rfl, rfl, ⟨_, List.mem_singleton_self _, ?_⟩, by decide +kernel⟩
  rw [Cte.readsItself_iff]
  refine .inr fun hbeneath => ?_
  have hbody := hbeneath.1 _ (List.mem_singleton_self _)
  exact hbody.1.1.1 ⟨.cte "x", List.mem_singleton_self _, rfl⟩

end Query

end SqlCompose
