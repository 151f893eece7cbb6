import SqlCompose.Proofs.DefinitionLockstep
import SqlCompose.Proofs.Filling

/-! # Brackets — whatever is opened is closed

    Parentheses and brackets are tokens of their own, written one at a time around what stands
    between them. A reader that keeps the open ones on a stack is never met by one that does not
    close the innermost, and its stack is empty at the end.

    * `Bracket.run` — the reader; `Bracket.Balanced` is what it accepts.
    * `Bracket.count_run` — it counts what has been opened and not closed.
    * `Draft.Bracketed` — what leaves the stack of the reader alone.
    * `bracketing` — every tree is such a draft: the simulation of writing a tree twice in one
      context.
    * `Writing.balanced` — the theorem, for terms, statements, set operations and definitions. -/

namespace SqlCompose

open Draft

/-! ## The reader -/

/-- What can be open. -/
inductive Bracket
  /-- Opened by `(`. -/
  | round
  /-- Opened by `[`. -/
  | square
deriving DecidableEq

namespace Bracket

/-- The token that opens. -/
def opening : Bracket → Token
  | round => .lparen
  | square => .lbracket

/-- The token that closes. -/
def closing : Bracket → Token
  | round => .rparen
  | square => .rbracket

/-- What is open once the innermost has been closed, if it is the one that is to be closed. -/
def close (b : Bracket) : List Bracket → Option (List Bracket)
  | [] => none
  | innermost :: opened => if innermost = b then some opened else none

/-- What is open behind a token, the innermost first. -/
def step (opened : List Bracket) : Token → Option (List Bracket)
  | .lparen => some (round :: opened)
  | .lbracket => some (square :: opened)
  | .rparen => close round opened
  | .rbracket => close square opened
  | _ => some opened

/-- What is open behind a list of tokens. -/
def run (opened : List Bracket) (ts : List Token) : Option (List Bracket) := ts.foldlM step opened

/-- The reader is never stuck, and nothing is open at the end. -/
def Balanced (ts : List Token) : Prop := run [] ts = some []

instance (ts : List Token) : Decidable (Balanced ts) :=
  inferInstanceAs (Decidable (run [] ts = some []))

theorem run_append (opened : List Bracket) (ts us : List Token) :
    run opened (ts ++ us) = (run opened ts).bind fun opened => run opened us :=
  List.foldlM_append

@[simp] theorem step_opening (b : Bracket) (opened : List Bracket) :
    step opened b.opening = some (b :: opened) := by
  cases b <;> rfl

@[simp] theorem step_closing (b : Bracket) (opened : List Bracket) :
    step (b :: opened) b.closing = some opened := by
  cases b <;> rfl

theorem step_other {t : Token} (h : t.isBracket = false) (opened : List Bracket) :
    step opened t = some opened := by
  cases t <;> first | rfl | exact nomatch h

/-- What is between two brackets is read with the first one open. -/
theorem run_between (b : Bracket) {ts : List Token}
    (h : ∀ opened, run opened ts = some opened) (opened : List Bracket) :
    run opened ([b.opening] ++ ts ++ [b.closing]) = some opened := by
  have hopen : run opened [b.opening] = some (b :: opened) := by
    show (step opened b.opening).bind some = _
    rw [step_opening]
    rfl
  have hclose : run (b :: opened) [b.closing] = some opened := by
    show (step (b :: opened) b.closing).bind some = _
    rw [step_closing]
    rfl
  rw [run_append, run_append, hopen, Option.bind_some, h, Option.bind_some, hclose]

/-! ### Counting -/

theorem count_close {b innermost : Bracket} {opened opened' : List Bracket}
    (h : close innermost opened = some opened') :
    opened'.count b + [innermost].count b = opened.count b := by
  cases opened with
  | nil => exact nomatch h
  | cons first rest =>
    have h : (if first = innermost then some rest else none) = some opened' := h
    split at h
    · next hfirst =>
      obtain rfl := Option.some.inj h
      subst hfirst
      exact List.count_append.symm.trans ((List.perm_append_singleton first rest).count_eq b)
    · exact nomatch h

/-- A token that opens makes the stack higher by one, a token that closes lower by one. -/
theorem count_step {opened opened' : List Bracket} {t : Token} (h : step opened t = some opened')
    (b : Bracket) :
    opened'.count b + [t].count b.closing = opened.count b + [t].count b.opening := by
  cases t with
  | lparen =>
    obtain rfl := Option.some.inj h
    cases b <;> simp [opening, closing]
  | lbracket =>
    obtain rfl := Option.some.inj h
    cases b <;> simp [opening, closing]
  | rparen =>
    have hclose := count_close (b := b) h
    cases b <;> simpa [opening, closing] using hclose
  | rbracket =>
    have hclose := count_close (b := b) h
    cases b <;> simpa [opening, closing] using hclose
  | _ =>
    obtain rfl := Option.some.inj h
    cases b <;> simp [opening, closing]

/-- What is open at the end is what was open before and what was opened, less what was closed. -/
theorem count_run {opened opened' : List Bracket} {ts : List Token}
    (h : run opened ts = some opened') (b : Bracket) :
    opened'.count b + ts.count b.closing = opened.count b + ts.count b.opening := by
  induction ts generalizing opened with
  | nil =>
    obtain rfl := Option.some.inj h
    rfl
  | cons t rest ih =>
    obtain ⟨between, hstep, hrest⟩ := Option.bind_eq_some_iff.mp h
    have hfirst := count_step hstep b
    have hcount := ih hrest
    rw [← List.singleton_append, List.count_append, List.count_append]
    omega

/-- Nothing is closed before it has been opened. -/
theorem Balanced.closed_le_opened {before after : List Token} (h : Balanced (before ++ after))
    (b : Bracket) : before.count b.closing ≤ before.count b.opening := by
  have h : run [] (before ++ after) = some [] := h
  rw [run_append] at h
  obtain ⟨opened, hbefore, -⟩ := Option.bind_eq_some_iff.mp h
  have hcount := count_run hbefore b
  rw [List.count_nil] at hcount
  omega

/-- As many are closed as are opened. -/
theorem Balanced.closed_eq_opened {ts : List Token} (h : Balanced ts) (b : Bracket) :
    ts.count b.closing = ts.count b.opening := by
  have hcount := count_run h b
  rw [List.count_nil] at hcount
  omega

-- the counts alone do not say that brackets are nested
example : ¬ Balanced [.lparen, .lbracket, .rparen, .rbracket] := by decide

end Bracket

/-! ## Drafts -/

namespace Draft

/-- Whatever is open before the draft is open behind it, however its holes are filled. -/
def Bracketed (d : Draft) : Prop :=
  d.stop = none → ∀ factory count opened,
    Bracket.run opened (Piece.number factory count d.pieces) = some opened

theorem Bracketed.append {a b : Draft} (ha : a.Bracketed) (hb : b.Bracketed) :
    (a ++ b).Bracketed := by
  intro h factory count opened
  obtain ⟨hsa, hsb⟩ := stop_append h
  rw [append_of_complete hsa, Piece.number_append, Bracket.run_append, ha hsa, Option.bind_some,
    hb hsb]

theorem Bracketed.token {t : Token} (h : t.isBracket = false) : (token t).Bracketed := by
  intro _ factory count opened
  show (Bracket.step opened t).bind some = some opened
  rw [Bracket.step_other h]
  rfl

/-- A placeholder is no bracket. -/
theorem Bracketed.hole (v : Value) (d : Dialect) : (hole v d).Bracketed :=
  fun _ _ _ _ => rfl

theorem Bracketed.fail (e : BuildError) : (fail e).Bracketed := nofun

/-- What is between a token that opens and one that closes the same. -/
theorem Bracketed.between (b : Bracket) {d : Draft} (hd : d.Bracketed) :
    (Draft.token b.opening ++ d ++ Draft.token b.closing).Bracketed := by
  intro h factory count opened
  have hstop : d.stop = none := (stop_append (stop_append h).1).2
  obtain ⟨pieces, _⟩ := d
  cases hstop
  -- the numbers of the holes are those of the holes between the brackets
  show Bracket.run opened
    (b.opening :: Piece.number factory count (pieces ++ [.token b.closing])) = _
  rw [Piece.number_append, ← List.singleton_append, ← List.append_assoc]
  exact Bracket.run_between b (hd rfl factory count) opened

theorem Bracketed.literal (v : Value) : v.literal.Bracketed := by
  cases v with
  | float x =>
    show (if x.isFinite then Draft.token (.float x) else Draft.fail (.notFinite x)).Bracketed
    split
    · exact .token rfl
    · exact .fail _
  | _ => exact .token rfl

theorem Bracketed.constant (ctx : Context) (v : Value) (mayBind : Bool) :
    (v.draft ctx mayBind).Bracketed := by
  simp only [Value.draft]
  split
  · exact .hole v ctx.dialect
  · exact .literal v

/-- A draft is the same as another one, and what is open before it is open behind it. -/
def SameBracketed (d d' : Draft) : Prop := d = d' ∧ d.Bracketed

/-- Composition respects it. -/
theorem SameBracketed.congruence : Congruence SameBracketed where
  empty := ⟨rfl, fun _ _ _ _ => rfl⟩
  token := fun _ ht => ⟨rfl, .token ht⟩
  fail := fun e => ⟨rfl, .fail e⟩
  append := by
    rintro a _ b _ ⟨rfl, ha⟩ ⟨rfl, hb⟩
    exact ⟨rfl, ha.append hb⟩
  parens := by
    rintro d _ ⟨rfl, hd⟩
    exact ⟨rfl, hd.between .round⟩
  brackets := by
    rintro d _ ⟨rfl, hd⟩
    exact ⟨rfl, hd.between .square⟩

end Draft

/-! ## Trees -/

/-- Writing a tree twice in one context. -/
def bracketing : Simulation where
  exchange := .id
  part := fun _ => True
  alike := Eq
  rel := SameBracketed
  congruence := SameBracketed.congruence
  flags := by
    rintro c _ rfl
    constructor <;> rfl
  nested := fun h b => congrArg (fun c : Context => { c with nested := b }) h
  declares := fun h b => congrArg (fun c : Context => { c with declares := b }) h
  qualified := fun h b => congrArg (fun c : Context => { c with qualified := b }) h
  bracketed := fun h b => congrArg (fun c : Context => { c with bracketed := b }) h
  grouping := fun h b => congrArg (fun c : Context => { c with groupByAlias := b }) h
  inDialect := fun h d =>
    congrArg (fun c : Context => { c with dialect := d, identQuote := d.identQuote }) h
  enter := fun h scope => congrArg (fun c : Context => { c with scope := c.scope.enter scope }) h
  names := by
    rintro c _ rfl p - slot -
    rfl
  value := by
    rintro c _ rfl v mayBind -
    rw [Exchange.constant_id]
    exact ⟨rfl, .constant c v mayBind⟩
  count := by
    rintro c _ rfl n
    exact ⟨rfl, .constant c (.int n) true⟩
  array := by
    rintro c _ rfl items -
    refine SameBracketed.congruence.arrays (by constructor <;> rfl) ?_
    rw [exchangeTerms_id]
    cases (if c.binding then constants? items else none) with
    | none => exact .none
    | some values => exact .some ⟨rfl, .hole _ _⟩
  document := by
    rintro c _ rfl d -
    rfl
  unequal := by
    rintro c _ rfl a _ b _ ⟨rfl, -⟩ ⟨rfl, -⟩
    exact ⟨rfl, fun h => absurd h (unequal_stop c a b)⟩

/-- Whatever is open before what is written is open behind it. -/
theorem Writing.draft_bracketed (w : Writing) (ctx : Context) : (w.draft ctx).Bracketed := by
  have heverywhere : w.Everywhere bracketing.part := w.everywhere_of_forall fun _ => trivial
  exact (w.draft_sim (S := bracketing) rfl heverywhere).2

theorem Node.draft_bracketed (node : Node) (ctx : Context) : (node.draft ctx).Bracketed :=
  (Writing.node node).draft_bracketed ctx

/-! ## The theorem -/

namespace Writing

/-- **Whatever is opened is closed.** If a term, a statement, a set operation or a definition can be
    written in a context, its tokens are well bracketed: a reader that keeps what is open on a stack
    always finds the innermost closed first and has nothing left at the end. Hence no beginning of
    the tokens closes more than it opened, and all of them close as much as they open. -/
theorem balanced {w : Writing} {ctx : Context} {p p' : Parameters} {ts : List Token}
    (h : (w.draft ctx).finish p = (.ok ts, p')) :
    Bracket.Balanced ts ∧
      (∀ before after : List Token, ts = before ++ after → ∀ b : Bracket,
        before.count b.closing ≤ before.count b.opening) ∧
      ∀ b : Bracket, ts.count b.closing = ts.count b.opening := by
  have hstop := complete_of_finish h
  rw [finish_of_complete hstop] at h
  obtain rfl := Except.ok.inj (Prod.mk.inj h).1
  have hbalanced : Bracket.Balanced (Piece.number p.factory p.values.length (w.draft ctx).pieces) :=
    w.draft_bracketed ctx hstop p.factory p.values.length []
  refine ⟨hbalanced, ?_, hbalanced.closed_eq_opened⟩
  rintro before after hts b
  rw [hts] at hbalanced
  exact hbalanced.closed_le_opened b

/-- A table with a default that is a call on an array, a period and a key, written where one value
    has been bound before. -/
theorem balanced_periods :
    let column : ColumnDefinition :=
      { name := "x"
        default := some { expr := .call { name := "F", arguments := [{ expr := .array [] }] } } }
    let table : CreateTable :=
      { dialect := .generic
        table := some (.named 1 "t")
        columns := [column]
        periods := [⟨"p", column, column⟩]
        primaryKey := [column] }
    let ctx := Context.ofDialect .generic
    let p : Parameters := { values := [.int 1] }
    ∃ (ts : List Token) (p' : Parameters),
      ((create table).draft ctx).finish p = (.ok ts, p') ∧ Bracket.Balanced ts ∧
        ts.count .rparen = ts.count .lparen ∧ ts.count .rbracket = ts.count .lbracket := by
  intro column table ctx p
  have hstop : ((create table).draft ctx).stop = none :=
    Option.isNone_iff_eq_none.mp (by decide +kernel)
  have hfinish := finish_of_complete hstop p
  obtain ⟨hbalanced, -, hcount⟩ := balanced hfinish
  exact ⟨_, _, hfinish, hbalanced, hcount .round, hcount .square⟩

end Writing

end SqlCompose
