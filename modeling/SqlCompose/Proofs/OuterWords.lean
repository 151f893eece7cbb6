import SqlCompose.Proofs.Pages
import SqlCompose.Proofs.ShownAliases

/-! # Outer words — orders and pages outside of all parentheses

    An order or a page that stands in a set operation is one of its statements' or its own. Where
    the statements are in parentheses, a reader that skips what is in parentheses finds its own
    alone.

    * `Token.outerWords` — the words that orders and parts of pages start with, outside of
      everything that is open.
    * `Token.outerWords_append`, `Token.outerWords_enclosed` — lists one behind the other, and what
      is in parentheses.
    * `Query.outside` — what is written of a statement outside of its own parentheses. Its order and
      page are not in it, see `Query.outside_repaged`.
    * `SetOperation.outerWords_chained` — the words outside of the parentheses of all statements. -/

namespace SqlCompose

open Draft

/-! ## The reader -/

namespace Bracket

/-- What is open below the others makes no difference to a token that they can be read with. -/
theorem step_append {opened opened' : List Bracket} {t : Token} (h : step opened t = some opened')
    (below : List Bracket) : step (opened ++ below) t = some (opened' ++ below) := by
  have hclose {b : Bracket} (hb : close b opened = some opened') :
      close b (opened ++ below) = some (opened' ++ below) := by
    cases opened with
    | nil => exact nomatch hb
    | cons innermost rest =>
      have hb : (if innermost = b then some rest else none) = some opened' := hb
      show (if innermost = b then some (rest ++ below) else none) = _
      split at hb
      · next hsame =>
        obtain rfl := Option.some.inj hb
        rw [if_pos hsame]
      · exact nomatch hb
  cases t with
  | rparen => exact hclose h
  | rbracket => exact hclose h
  | _ =>
    obtain rfl := Option.some.inj h
    rfl

/-- Nor to a list of tokens. -/
theorem run_below {opened opened' : List Bracket} {ts : List Token}
    (h : run opened ts = some opened') (below : List Bracket) :
    run (opened ++ below) ts = some (opened' ++ below) := by
  induction ts generalizing opened with
  | nil =>
    obtain rfl := Option.some.inj h
    rfl
  | cons t rest ih =>
    obtain ⟨between, hstep, hrest⟩ := Option.bind_eq_some_iff.mp h
    show (step (opened ++ below) t).bind _ = _
    rw [step_append hstep, Option.bind_some]
    exact ih hrest

theorem Balanced.append {ts us : List Token} (hts : Balanced ts) (hus : Balanced us) :
    Balanced (ts ++ us) := by
  have hts : run [] ts = some [] := hts
  show run [] (ts ++ us) = some []
  rw [run_append, hts]
  exact hus

end Bracket

namespace Token

/-- The words that orders and parts of pages start with, where nothing is open. -/
def outerWords (opened : List Bracket) : List Token → List Keyword
  | [] => []
  | t :: rest =>
    (if opened.isEmpty then (Piece.token t).pageWord?.toList else []) ++
      outerWords ((Bracket.step opened t).getD opened) rest

theorem outerWords_append {opened opened' : List Bracket} {ts : List Token}
    (h : Bracket.run opened ts = some opened') (us : List Token) :
    outerWords opened (ts ++ us) = outerWords opened ts ++ outerWords opened' us := by
  induction ts generalizing opened with
  | nil =>
    obtain rfl := Option.some.inj h
    rfl
  | cons t rest ih =>
    obtain ⟨between, hstep, hrest⟩ := Option.bind_eq_some_iff.mp h
    rw [List.cons_append, outerWords, outerWords, hstep, Option.getD_some, ih hrest,
      List.append_assoc]

/-- Where something is open below everything else, there are no outer words. -/
theorem outerWords_below {opened opened' : List Bracket} {ts : List Token}
    (h : Bracket.run opened ts = some opened') (b : Bracket) :
    outerWords (opened ++ [b]) ts = [] := by
  induction ts generalizing opened with
  | nil => rfl
  | cons t rest ih =>
    obtain ⟨between, hstep, hrest⟩ := Option.bind_eq_some_iff.mp h
    have hopen : (opened ++ [b]).isEmpty = false := by simp
    rw [outerWords, hopen, Bracket.step_append hstep, Option.getD_some, ih hrest]
    rfl

/-- What is in parentheses has no outer words. -/
theorem outerWords_enclosed {body : List Token} (h : Bracket.Balanced body) (us : List Token) :
    outerWords [] (enclosedIf true body ++ us) = outerWords [] us := by
  have hbody : Bracket.run [.round] body = some [.round] := Bracket.run_below h [.round]
  have hinside : outerWords [.round] body = [] := outerWords_below h .round
  show [] ++ outerWords [.round] (body ++ [.rparen] ++ us) = _
  rw [List.nil_append, List.append_assoc, outerWords_append hbody, hinside]
  rfl

end Token

namespace Draft.Writes

variable {d : Draft} {ts : List Token}

/-- What is written of a draft that leaves open what was open has nothing open. -/
theorem isBalanced (h : d.Writes ts) (hd : d.Bracketed) : Bracket.Balanced ts := by
  obtain ⟨p, p', hfinish⟩ := h
  have hstop := complete_of_finish hfinish
  rw [finish_of_complete hstop] at hfinish
  obtain ⟨rfl, -⟩ := hfinish
  exact hd hstop p.factory p.values.length []

end Draft.Writes

/-! ## Statements -/

namespace Query

/-- The statement with another order and page. -/
def repaged (orderings : List Ordering) (limit offset : Option Int64) (q : Query) : Query :=
  { q with orderings, limit, offset }

/-- Whether the statement is written as an UPDATE with an order and a limit at its end. No
    parentheses are ever put around it. -/
def trails (q : Query) : Bool :=
  !q.isBlank && q.updateTable.isSome && q.dialect.updateLayout != .standard

/-- What is written of a statement outside of the parentheses that it has where it is nested. -/
def outside (outer : Context) (q : Query) : Draft :=
  if q.isSelection then q.behind outer else q.draft outer

/-- The order and the page of a statement are in its parentheses, or are not written. -/
theorem outside_repaged {q : Query} (htrails : q.trails = false) (orderings : List Ordering)
    (limit offset : Option Int64) (outer : Context) :
    (q.repaged orderings limit offset).outside outer = q.outside outer := by
  have hkind : (q.repaged orderings limit offset).isSelection = q.isSelection := rfl
  rw [outside, outside, hkind]
  -- a selection leaves its page out, and other statements have none that they write at the end
  split
  · cases q
    rfl
  · next hnot =>
    have hnot : q.isSelection = false := by simpa using hnot
    rw [draft_of_not_isSelection hnot, draft_of_not_isSelection (hkind.trans hnot)]
    show (if q.isBlank then _ else _) = _
    split
    · rfl
    · next hblank =>
      have htarget : (q.repaged orderings limit offset).updateTable = q.updateTable := rfl
      rw [htarget]
      cases hupdate : q.updateTable with
      | none =>
        cases q
        rfl
      | some table =>
        have hlayout : q.dialect.updateLayout = .standard := by
          simpa [trails, hblank, hupdate] using htrails
        have hother : (q.repaged orderings limit offset).dialect.updateLayout = .standard := hlayout
        simp only [Clause.update]
        rw [hlayout, hother]
        cases q
        rfl

/-- Whatever is open before what is in the parentheses of a statement is open behind it. -/
theorem inside_bracketed (q : Query) (outer : Context) : (q.inside outer).Bracketed := by
  have hparts := Query.parts_sim (S := bracketing) q trivial (q.below_of_forall fun _ => trivial)
  exact (Clause.selection_sim hparts rfl).2

/-- What is in the parentheses of a nested statement has no outer words. -/
theorem outerWords_nested {q : Query} {ctx : Context} (hnested : ctx.nested = true)
    {ts : List Token} (h : (q.draft ctx).Writes ts) :
    ∃ us : List Token, (q.outside ctx).Writes us ∧
      Token.outerWords [] ts = Token.outerWords [] us := by
  rw [outside]
  split
  · next hselection =>
    rw [draft_of_isSelection hselection, hnested] at h
    obtain ⟨front, us, hfront, hus, rfl⟩ := h.of_append
    obtain ⟨body, hbody, rfl⟩ := hfront.of_parensIf
    exact ⟨us, hus, Token.outerWords_enclosed (hbody.isBalanced (q.inside_bracketed ctx)) us⟩
  · exact ⟨ts, h, rfl⟩

/-- An alias is all that stands outside of the parentheses of a SELECT. It has no outer words. -/
theorem outerWords_outside {q : Query} (hselection : q.isSelection = true)
    (hclosed : q.conflict.isOpen = false) (hsilent : q.returns = []) {ctx : Context}
    {ts : List Token} (h : (q.outside ctx).Writes ts) : Token.outerWords [] ts = [] := by
  have halias : ∀ aliasName, Token.outerWords [] (ctx.declaredTokens aliasName) = [] := by
    intro aliasName
    rw [Context.declaredTokens]
    split
    · cases aliasName with
      | none => rfl
      | some aliasName =>
        simp only [Context.aliasTokens]
        split
        · rfl
        · split <;> rfl
    · rfl
  rw [outside, if_pos hselection, behind_of_silent hclosed hsilent,
    Context.declaration_eq_tokens] at h
  rw [h.of_tokens]
  exact halias _

end Query

/-! ## Set operations -/

namespace SetOperation

theorem balanced_operator (op : SetOperator) : Bracket.Balanced op.tokens := by
  cases op <;> decide

theorem outerWords_operator (op : SetOperator) : Token.outerWords [] op.tokens = [] := by
  cases op <;> rfl

/-- The order and the page of a set operation, behind its statements. -/
def tail (outer : Context) (s : SetOperation) : Draft :=
  Clause.unlessNone [.orderBy] (s.sorted outer) ++
    s.base.dialect.pagination (s.limit.map fun n => token (.int n))
      (s.offset.map fun n => token (.int n)) (!s.orderings.isEmpty)

/-- A set operation that fits together is its statements and its tail. -/
theorem draft_eq_tail {outer : Context} {s : SetOperation} (hfits : ∀ o ∈ s.operands, s.Fits o) :
    s.draft outer =
      parensIf outer.nested
          ((s.chained fun q => q.draft (s.operandContext outer)) ++ s.tail outer) ++
        outer.declaration (outer.aliasOf s.slot) := by
  rw [draft_eq_assembled hfits, assembled, tail, append_assoc (s.chained _)]

/-- Operands one behind the other, each behind its operator. -/
def row (ctx : Context) (operands : List Operand) : Draft :=
  operands.foldr (fun o rest => tokens o.operator.tokens ++ o.query.draft ctx ++ rest) empty

theorem row_append (ctx : Context) (os us : List Operand) :
    row ctx (os ++ us) = row ctx os ++ row ctx us := by
  induction os with
  | nil => rfl
  | cons o os ih =>
    show _ ++ row ctx (os ++ us) = _
    rw [ih]
    exact (append_assoc _ _ _).symm

/-- Where statements are in parentheses, what stands outside of all parentheses stands outside of
    theirs. -/
theorem outerWords_row {ctx : Context} (hnested : ctx.nested = true) {operands : List Operand}
    {ts : List Token} (h : (row ctx operands).Writes ts) :
    Bracket.Balanced ts ∧ ∃ outsides : List (List Token),
      List.Forall₂ (fun q us => (q.outside ctx).Writes us) (operands.map Operand.query) outsides ∧
        Token.outerWords [] ts = outsides.flatMap (Token.outerWords []) := by
  induction operands generalizing ts with
  | nil =>
    obtain rfl := h.of_empty
    exact ⟨rfl, [], .nil, rfl⟩
  | cons o rest ih =>
    obtain ⟨front, behind, hfront, hbehind, rfl⟩ := Writes.of_append h
    obtain ⟨first, hfirst, rfl⟩ := hfront.of_behind
    obtain ⟨hrest, outsides, houtsides, hwords⟩ := ih hbehind
    have hbalanced := hfirst.isBalanced ((Node.query o.query).draft_bracketed ctx)
    obtain ⟨us, hus, hsame⟩ := Query.outerWords_nested hnested hfirst
    have hopened := (balanced_operator o.operator).append hbalanced
    refine ⟨hopened.append hrest, us :: outsides, .cons hus houtsides, ?_⟩
    rw [Token.outerWords_append hopened, Token.outerWords_append (balanced_operator o.operator),
      outerWords_operator, List.nil_append, hsame, hwords]
    rfl

/-- So it is with the first statement in front of them. -/
theorem outerWords_chained {ctx : Context} (hnested : ctx.nested = true) {s : SetOperation}
    {ts : List Token} (h : (s.chained fun q => q.draft ctx).Writes ts) :
    Bracket.Balanced ts ∧ ∃ outsides : List (List Token),
      List.Forall₂ (fun q us => (q.outside ctx).Writes us) s.statements outsides ∧
        Token.outerWords [] ts = outsides.flatMap (Token.outerWords []) := by
  obtain ⟨first, behind, hfirst, hbehind, rfl⟩ := h.of_append
  obtain ⟨hrest, outsides, houtsides, hwords⟩ := outerWords_row hnested hbehind
  have hbalanced := hfirst.isBalanced ((Node.query s.base).draft_bracketed ctx)
  obtain ⟨us, hus, hsame⟩ := Query.outerWords_nested hnested hfirst
  refine ⟨hbalanced.append hrest, us :: outsides, .cons hus houtsides, ?_⟩
  rw [Token.outerWords_append hbalanced, hsame, hwords]
  rfl

end SetOperation

end SqlCompose
