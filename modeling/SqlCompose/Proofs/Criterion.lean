import SqlCompose.Proofs.Numbering
import SqlCompose.Render

/-! # Criteria — what AND, OR, XOR and NOT mean, and how they are written

    A criterion is put together from comparisons by combinators and by NOT. Where the combinator at
    the top of an operand is another one than the one around it, the operand stands in parentheses,
    and so does whatever combinator NOT stands before.

    * `Criterion` — the tree, over comparisons of any kind.
    * `Criterion.value` — its value where comparisons are true, false or unknown.
    * `Criterion.Reassociation` — trees that differ in how the chains of one combinator are nested.
      They have one value (`Reassociation.value_eq`) and one draft (`Reassociation.draft_eq`).
    * `Criterion.nest` — the tree whose chains are nested to the left, as they are read.
    * `Criterion.bare` — the tree without the aliases of its NOTs, which are written but say
      nothing.
    * `Criterion.Shapes` — the terms that a tree of comparisons stands for. -/

namespace SqlCompose

open Draft

/-! ## Columns and aliases -/

/-- The tokens of a column and of what qualifies it. -/
def Token.reference : Option String → String → List Token
  | none, name => [.ident name]
  | some qualifier, name => [.ident qualifier, .dot, .ident name]

/-- The name of a column and of its source are tokens. -/
theorem Source.qualifier_eq_tokens (ctx : Context) (source : Option Source) (name : String) :
    Source.qualifier ctx source ++ Draft.token (.ident name) =
      Draft.tokens (Token.reference (Source.qualifier? ctx source) name) := by
  rw [Source.qualifier]
  cases Source.qualifier? ctx source <;> rfl

/-- The tokens of an alias. -/
def Context.aliasTokens (ctx : Context) : Option String → List Token
  | none => []
  | some aliasName =>
    if aliasName.isEmpty then []
    else if ctx.asKeyword then [.space, .keyword .as, .space, .aliasName aliasName]
    else [.space, .aliasName aliasName]

/-- An alias is tokens. -/
theorem Context.aliasDraft_eq_tokens (ctx : Context) (aliasName : Option String) :
    ctx.aliasDraft aliasName = Draft.tokens (ctx.aliasTokens aliasName) := by
  cases aliasName with
  | none => rfl
  | some aliasName =>
    simp only [Context.aliasDraft, Context.aliasTokens]
    split
    · rfl
    · cases ctx.asKeyword <;> rfl

/-- The tokens of an alias, if the context asks for its declaration. -/
def Context.declaredTokens (ctx : Context) (aliasName : Option String) : List Token :=
  if ctx.declares then ctx.aliasTokens aliasName else []

/-- And so is an alias where it is declared. -/
theorem Context.declaration_eq_tokens (ctx : Context) (aliasName : Option String) :
    ctx.declaration aliasName = Draft.tokens (ctx.declaredTokens aliasName) := by
  rw [Context.declaration, Context.declaredTokens, Context.aliasDraft_eq_tokens]
  split <;> rfl

/-- Who takes one token after the other and passes over the parts of an alias passes over it. -/
theorem Context.foldlM_aliasTokens {σ : Type} {step : σ → Token → Option σ}
    (hspace : ∀ s, step s .space = some s) (has : ∀ s, step s (.keyword .as) = some s)
    (hname : ∀ s name, step s (.aliasName name) = some s) (ctx : Context)
    (aliasName : Option String) (s : σ) :
    (ctx.aliasTokens aliasName).foldlM step s = some s := by
  cases aliasName with
  | none => rfl
  | some aliasName =>
    simp only [Context.aliasTokens]
    split
    · rfl
    · split
      · simp [hspace, has, hname]
      · simp [hspace, hname]

/-- An alias opens no parenthesis. -/
theorem Context.lparen_not_mem_aliasTokens (ctx : Context) (aliasName : Option String) :
    Token.lparen ∉ ctx.aliasTokens aliasName := by
  cases aliasName with
  | none => exact List.not_mem_nil
  | some aliasName =>
    simp only [Context.aliasTokens]
    split
    · exact List.not_mem_nil
    · split <;> simp

/-! ## Truth values -/

/-- The value of a combination; without a value it is unknown. -/
def Combinator.value : Combinator → Option Bool → Option Bool → Option Bool
  | and, some false, _ | and, _, some false => some false
  | and, some true, some true => some true
  | or, some true, _ | or, _, some true => some true
  | or, some false, some false => some false
  | xor, some a, some b => some (a != b)
  | _, _, _ => none

/-- Each operator is associative, on unknown values too. -/
theorem Combinator.value_assoc (op : Combinator) (a b c : Option Bool) :
    op.value (op.value a b) c = op.value a (op.value b c) := by
  rcases a with _ | (_ | _) <;> rcases b with _ | (_ | _) <;> rcases c with _ | (_ | _) <;>
    cases op <;> rfl

/-! ## Trees -/

/-- A criterion over comparisons of some kind. The alias of a NOT is a part of it, as it is written
    wherever the NOT stands. -/
inductive Criterion (α : Type)
  | comparison (x : α)
  | not (operand : Criterion α) (aliasName : Option String)
  | combination (op : Combinator) (left right : Criterion α)

namespace Criterion

variable {α β : Type}

/-- The tree with its comparisons replaced. -/
def map (f : α → β) : Criterion α → Criterion β
  | comparison x => comparison (f x)
  | not operand aliasName => not (operand.map f) aliasName
  | combination op left right => combination op (left.map f) (right.map f)

/-- The tree without aliases. -/
def bare : Criterion α → Criterion α
  | comparison x => comparison x
  | not operand _ => not operand.bare none
  | combination op left right => combination op left.bare right.bare

/-- The value of a criterion where comparisons have these values. -/
def value (truth : α → Option Bool) : Criterion α → Option Bool
  | comparison x => truth x
  | not operand _ => (operand.value truth).map (!·)
  | combination op left right => op.value (left.value truth) (right.value truth)

/-- Whether there is another combinator at the top. -/
def differsFrom (op : Combinator) : Criterion α → Bool
  | combination other _ _ => other != op
  | _ => false

/-- What holds of every comparison. -/
def All (P : α → Prop) : Criterion α → Prop
  | comparison x => P x
  | not operand _ => operand.All P
  | combination _ left right => left.All P ∧ right.All P

/-- What holds of all operands may be said more weakly. -/
theorem All.imp {P Q : α → Prop} (h : ∀ x, P x → Q x) {c : Criterion α} (hc : c.All P) :
    c.All Q := by
  induction c with
  | comparison x => exact h x hc
  | not operand aliasName ih => exact ih hc
  | combination op left right ihl ihr => exact ⟨ihl hc.1, ihr hc.2⟩

/-- It may be said of the operands before they are mapped. -/
theorem All.map {P : β → Prop} {f : α → β} {c : Criterion α} (hc : c.All fun x => P (f x)) :
    (c.map f).All P := by
  induction c with
  | comparison x => exact hc
  | not operand aliasName ih => exact ih hc
  | combination op left right ihl ihr => exact ⟨ihl hc.1, ihr hc.2⟩

/-- Comparisons under any number of NOTs. -/
def IsLiteral : Criterion α → Prop
  | comparison _ => True
  | not operand _ => operand.IsLiteral
  | combination _ _ _ => False

/-- A chain of one combinator, nested in any way. -/
def IsChain (op : Combinator) : Criterion α → Prop
  | comparison _ => True
  | not operand _ => operand.IsLiteral
  | combination other left right => other = op ∧ left.IsChain op ∧ right.IsChain op

/-! ## Re-association -/

/-- The trees differ in how chains of one combinator are nested. -/
inductive Reassociation : Criterion α → Criterion α → Prop
  | assoc (op : Combinator) (a b c : Criterion α) :
      Reassociation (combination op (combination op a b) c) (combination op a (combination op b c))
  | refl (a : Criterion α) : Reassociation a a
  | symm {a b : Criterion α} : Reassociation a b → Reassociation b a
  | trans {a b c : Criterion α} : Reassociation a b → Reassociation b c → Reassociation a c
  | not {a b : Criterion α} (aliasName : Option String) :
      Reassociation a b → Reassociation (not a aliasName) (not b aliasName)
  | combination (op : Combinator) {a a' b b' : Criterion α} :
      Reassociation a a' → Reassociation b b' →
        Reassociation (combination op a b) (combination op a' b')

namespace Reassociation

/-- Combinators are associative where values may be unknown, so nesting does not matter. -/
theorem value_eq {c c' : Criterion α} (h : Reassociation c c') (truth : α → Option Bool) :
    c.value truth = c'.value truth := by
  induction h with
  | assoc op a b c => exact op.value_assoc _ _ _
  | refl a => rfl
  | symm _ ih => exact ih.symm
  | trans _ _ ih ih' => exact ih.trans ih'
  | not _ _ ih =>
    show Option.map _ _ = Option.map _ _
    rw [ih]
  | combination op _ _ ih ih' =>
    show op.value _ _ = op.value _ _
    rw [ih, ih']

/-- Reassociation changes no operator at the top. -/
theorem differsFrom_eq {c c' : Criterion α} (h : Reassociation c c') (op : Combinator) :
    c.differsFrom op = c'.differsFrom op := by
  induction h with
  | assoc => rfl
  | refl => rfl
  | symm _ ih => exact ih.symm
  | trans _ _ ih ih' => exact ih.trans ih'
  | not => rfl
  | combination => rfl

end Reassociation

/-! ## Nested to the left -/

/-- A tree behind a chain that has been read, with the combinator between them. -/
def behind : Option (Criterion α × Combinator) → Criterion α → Criterion α
  | none, c => c
  | some (before, op), c => combination op before c

/-- The tree with its chains nested to the left. The operands of a chain go behind what has been
    read of it; operands that stand in parentheses are trees of their own. -/
def nest (before : Option (Criterion α × Combinator)) : Criterion α → Criterion α
  | comparison x => behind before (comparison x)
  | not operand aliasName => behind before (not (operand.nest none) aliasName)
  | combination op left right =>
    let left :=
      if left.differsFrom op then behind before (left.nest none) else left.nest before
    if right.differsFrom op then combination op left (right.nest none)
    else right.nest (some (left, op))

/-- Nesting to the left is re-association: a tree by itself, and a tree behind a chain that goes on
    in it. -/
theorem nest_reassociation (c : Criterion α) :
    Reassociation c (c.nest none) ∧
      ∀ (before : Criterion α) (op : Combinator), c.differsFrom op = false →
        Reassociation (combination op before c) (c.nest (some (before, op))) := by
  induction c with
  | comparison x => exact ⟨.refl _, fun before op _ => .refl _⟩
  | not operand aliasName ih =>
    have hnot := Reassociation.not aliasName ih.1
    exact ⟨hnot, fun before op _ => .combination op (.refl before) hnot⟩
  | combination op left right ihl ihr =>
    -- the right operand joins whatever has become of the left one
    have hright : ∀ {l l' : Criterion α}, Reassociation l l' →
        Reassociation (combination op l right)
          (if right.differsFrom op then combination op l' (right.nest none)
          else right.nest (some (l', op))) := by
      intro l l' hl
      split
      · exact .combination op hl ihr.1
      · next hsame =>
        exact (Reassociation.combination op hl (.refl right)).trans
          (ihr.2 l' op (by simpa using hsame))
    constructor
    · have hleft : Reassociation left
          (if left.differsFrom op then behind none (left.nest none) else left.nest none) := by
        split
        · exact ihl.1
        · exact ihl.1
      exact hright hleft
    · intro before other hother
      obtain rfl : op = other := by simpa [differsFrom] using hother
      have hleft : Reassociation (combination op before left)
          (if left.differsFrom op then behind (some (before, op)) (left.nest none)
          else left.nest (some (before, op))) := by
        split
        · exact .combination op (.refl before) ihl.1
        · next hsame => exact ihl.2 before op (by simpa using hsame)
      -- the chain in front takes the left operand in before the right one
      exact (Reassociation.assoc op before left right).symm.trans (hright hleft)

/-! ## Without aliases -/

/-- Neither does taking an alias off. -/
theorem differsFrom_bare (op : Combinator) (c : Criterion α) :
    c.bare.differsFrom op = c.differsFrom op := by
  cases c <;> rfl

/-- An alias does not change what a criterion says. -/
theorem value_bare (truth : α → Option Bool) (c : Criterion α) :
    c.bare.value truth = c.value truth := by
  induction c with
  | comparison x => rfl
  | not operand aliasName ih =>
    show Option.map _ _ = Option.map _ _
    rw [ih]
  | combination op left right ihl ihr =>
    show op.value _ _ = op.value _ _
    rw [ihl, ihr]

/-- Taking aliases off commutes with mapping the operands. -/
theorem bare_map (f : α → β) (c : Criterion α) : (c.map f).bare = c.bare.map f := by
  induction c with
  | comparison x => rfl
  | not operand aliasName ih => exact congrArg (not · none) ih
  | combination op left right ihl ihr =>
    show combination op _ _ = combination op _ _
    rw [ihl, ihr]

/-! ## Replaced comparisons -/

/-- Mapping the operands changes no operator. -/
theorem differsFrom_map (f : α → β) (op : Combinator) (c : Criterion α) :
    (c.map f).differsFrom op = c.differsFrom op := by
  cases c <;> rfl

/-- What stands behind a criterion is mapped with it. -/
theorem behind_map (f : α → β) (before : Option (Criterion α × Combinator)) (c : Criterion α) :
    behind (before.map fun (b, op) => (b.map f, op)) (c.map f) = (behind before c).map f := by
  rcases before with _ | ⟨b, op⟩ <;> rfl

/-- Nesting does not look into comparisons. -/
theorem nest_map (f : α → β) (c : Criterion α) (before : Option (Criterion α × Combinator)) :
    (c.map f).nest (before.map fun (b, op) => (b.map f, op)) = (c.nest before).map f := by
  -- what stands before is part of the statement, since nesting to the right adds to it
  induction c generalizing before with
  | comparison x => exact behind_map f before (comparison x)
  | not operand aliasName ih =>
    have hnone : (operand.map f).nest none = (operand.nest none).map f := ih none
    show behind _ (not ((operand.map f).nest none) aliasName) = _
    rw [hnone]
    exact behind_map f before (not (operand.nest none) aliasName)
  | combination op left right ihl ihr =>
    have hleft :
        (if (left.map f).differsFrom op then
          behind (before.map fun (b, op) => (b.map f, op)) ((left.map f).nest none)
        else (left.map f).nest (before.map fun (b, op) => (b.map f, op))) =
          (if left.differsFrom op then behind before (left.nest none)
          else left.nest before).map f := by
      have hnone : (left.map f).nest none = (left.nest none).map f := ihl none
      rw [differsFrom_map, hnone, behind_map, ihl before]
      split <;> rfl
    have hnone : (right.map f).nest none = (right.nest none).map f := ihr none
    have hright : ∀ l : Criterion α,
        (if (right.map f).differsFrom op then combination op (l.map f) ((right.map f).nest none)
        else (right.map f).nest (some (l.map f, op))) =
          (if right.differsFrom op then combination op l (right.nest none)
          else right.nest (some (l, op))).map f := by
      intro l
      have hsome : (right.map f).nest (some (l.map f, op)) = (right.nest (some (l, op))).map f :=
        ihr (some (l, op))
      rw [differsFrom_map, hnone, hsome]
      split <;> rfl
    show (if (right.map f).differsFrom op then combination op (if _ then _ else _) _
      else (right.map f).nest (some (if _ then _ else _, op))) = _
    rw [hleft]
    exact hright _

/-! ## Writing -/

variable (ctx : Context)

/-- The tokens of a criterion, in parentheses if they are asked for and there is a combinator. -/
def tokens (written : α → List Token) (bracketed : Bool) : Criterion α → List Token
  | comparison x => written x
  | not operand aliasName =>
    .keyword .not :: .space :: (operand.tokens written true ++ ctx.aliasTokens aliasName)
  | combination op left right =>
    let inside := left.tokens written (left.differsFrom op) ++
      .space :: .keyword op.keyword :: .space :: right.tokens written (right.differsFrom op)
    if bracketed then .lparen :: (inside ++ [.rparen]) else inside

/-- The draft of a criterion over drafts of comparisons. -/
def draft (leaf : α → Draft) (bracketed : Bool) : Criterion α → Draft
  | comparison x => leaf x
  | not operand aliasName =>
    word .not ++ space ++ operand.draft leaf true ++ ctx.aliasDraft aliasName
  | combination op left right =>
    Draft.parensIf bracketed
      (left.draft leaf (left.differsFrom op) ++ space ++ word op.keyword ++ space ++
        right.draft leaf (right.differsFrom op))

/-- Trees that differ in the nesting of chains are written alike. -/
theorem Reassociation.draft_eq {c c' : Criterion α} (h : Reassociation c c') (leaf : α → Draft)
    (bracketed : Bool) : c.draft ctx leaf bracketed = c'.draft ctx leaf bracketed := by
  induction h generalizing bracketed with
  | assoc op a b c =>
    -- an operand with the same combinator has no parentheses on either side
    have hsame : (op != op) = false := by simp
    show Draft.parensIf bracketed
        (Draft.parensIf (op != op)
          (a.draft ctx leaf (a.differsFrom op) ++ space ++ word op.keyword ++ space ++
            b.draft ctx leaf (b.differsFrom op)) ++ space ++ word op.keyword ++ space ++
              c.draft ctx leaf (c.differsFrom op)) =
      Draft.parensIf bracketed
        (a.draft ctx leaf (a.differsFrom op) ++ space ++ word op.keyword ++ space ++
          Draft.parensIf (op != op)
            (b.draft ctx leaf (b.differsFrom op) ++ space ++ word op.keyword ++ space ++
              c.draft ctx leaf (c.differsFrom op)))
    rw [hsame]
    simp only [Draft.parensIf, Bool.false_eq_true, if_false, Draft.append_assoc]
  | refl a => rfl
  | symm _ ih => exact (ih bracketed).symm
  | trans _ _ ih ih' => exact (ih bracketed).trans (ih' bracketed)
  | not aliasName _ ih =>
    exact congrArg (word .not ++ space ++ · ++ ctx.aliasDraft aliasName) (ih true)
  | @combination op a a' b b' ha hb ih ih' =>
    show Draft.parensIf bracketed
      (a.draft ctx leaf (a.differsFrom op) ++ space ++ word op.keyword ++ space ++
        b.draft ctx leaf (b.differsFrom op)) = Draft.parensIf bracketed _
    rw [ih, ih', ha.differsFrom_eq, hb.differsFrom_eq]

/-- Only a criterion whose comparisons are written to their ends is. -/
theorem all_of_complete {leaf : α → Draft} {c : Criterion α} {bracketed : Bool}
    (h : (c.draft ctx leaf bracketed).stop = none) : c.All fun x => (leaf x).stop = none := by
  induction c generalizing bracketed with
  | comparison x => exact h
  | not operand aliasName ih => exact ih (stop_append (stop_append h).1).2
  | combination op left right ihl ihr =>
    have hinside :
        (left.draft ctx leaf (left.differsFrom op) ++ space ++ word op.keyword ++ space ++
          right.draft ctx leaf (right.differsFrom op)).stop = none := by
      cases bracketed with
      | false => exact h
      | true => exact (stop_append (stop_append h).1).2
    have hleft := stop_append (stop_append (stop_append (stop_append hinside).1).1).1
    exact ⟨ihl hleft.1, ihr (stop_append hinside).2⟩

/-- Where comparisons are lists of tokens, so are criteria. -/
theorem draft_eq_tokens {leaf : α → Draft} {written : α → List Token} {c : Criterion α}
    (hc : c.All fun x => leaf x = Draft.tokens (written x)) (bracketed : Bool) :
    c.draft ctx leaf bracketed = Draft.tokens (c.tokens ctx written bracketed) := by
  induction c generalizing bracketed with
  | comparison x => exact hc
  | not operand aliasName ih =>
    show word .not ++ space ++ operand.draft ctx leaf true ++ ctx.aliasDraft aliasName = _
    rw [ih hc true, ctx.aliasDraft_eq_tokens, Draft.append_assoc, tokens_append]
    rfl
  | combination op left right ihl ihr =>
    have hinside : ∀ ts us : List Token,
        Draft.tokens ts ++ space ++ word op.keyword ++ space ++ Draft.tokens us =
          Draft.tokens (ts ++ .space :: .keyword op.keyword :: .space :: us) := by
      intro ts us
      rw [Draft.append_assoc, Draft.append_assoc, Draft.append_assoc, ← tokens_append]
      rfl
    show Draft.parensIf bracketed (left.draft ctx leaf (left.differsFrom op) ++ space ++
      word op.keyword ++ space ++ right.draft ctx leaf (right.differsFrom op)) = _
    rw [ihl hc.1, ihr hc.2, hinside]
    cases bracketed with
    | false => rfl
    | true =>
      show Draft.token .lparen ++ Draft.tokens _ ++ Draft.tokens [.rparen] = _
      rw [Draft.append_assoc, tokens_append]
      rfl

/-- It does not matter whether comparisons are replaced by their tokens first. -/
theorem tokens_map (written : α → List Token) (c : Criterion α) (bracketed : Bool) :
    (c.map written).tokens ctx id bracketed = c.tokens ctx written bracketed := by
  induction c generalizing bracketed with
  | comparison x => rfl
  | not operand aliasName ih =>
    exact congrArg (fun ts => .keyword .not :: .space :: (ts ++ ctx.aliasTokens aliasName))
      (ih true)
  | combination op left right ihl ihr =>
    show (combination op (left.map written) (right.map written)).tokens ctx id bracketed = _
    simp only [tokens]
    rw [differsFrom_map, differsFrom_map, ihl, ihr]

/-- Literals alone open no parenthesis. -/
theorem lparen_not_mem_of_isLiteral {written : α → List Token} {c : Criterion α}
    (hwritten : c.All fun x => Token.lparen ∉ written x) (hc : c.IsLiteral) (bracketed : Bool) :
    Token.lparen ∉ c.tokens ctx written bracketed := by
  induction c generalizing bracketed with
  | comparison x => exact hwritten
  | not operand aliasName ih =>
    have hoperand := ih hwritten hc true
    simp [tokens, hoperand, ctx.lparen_not_mem_aliasTokens]
  | combination op left right => exact hc.elim

/-- A chain of one operator has that operator at its top. -/
theorem IsChain.differsFrom_eq {op : Combinator} {c : Criterion α} (hc : c.IsChain op) :
    c.differsFrom op = false := by
  cases c with
  | combination other left right => simp [differsFrom, hc.1]
  | _ => rfl

/-- A chain of one combinator is written without parentheses. -/
theorem lparen_not_mem_of_isChain {written : α → List Token} {op : Combinator} {c : Criterion α}
    (hwritten : c.All fun x => Token.lparen ∉ written x) (hc : c.IsChain op) :
    Token.lparen ∉ c.tokens ctx written false := by
  induction c with
  | comparison x => exact hwritten
  | not operand => exact lparen_not_mem_of_isLiteral ctx hwritten hc false
  | combination other left right ihl ihr =>
    obtain ⟨rfl, hl, hr⟩ := hc
    have hleft := ihl hwritten.1 hl
    have hright := ihr hwritten.2 hr
    simp [tokens, hl.differsFrom_eq, hr.differsFrom_eq, hleft, hright]

end Criterion

/-! ## Terms -/

/-- One side of a comparison. -/
inductive Comparand
  | column (name : String) (source : Option Source)
  | constant (v : Value) (mayBind : Bool)

/-- A comparison of columns and constants. -/
structure Comparison where
  op    : Comparator
  left  : Comparand
  right : Comparand

/-- The term of one side. -/
def Comparand.term : Comparand → Term
  | column name source => ⟨.field name source, none⟩
  | constant v mayBind => ⟨.value v mayBind, none⟩

namespace Comparison

/-- The term of a comparison. -/
def term (x : Comparison) : Term := ⟨.comparison x.op x.left.term x.right.term, none⟩

/-- The tokens of a comparison. -/
def written (ctx : Context) (x : Comparison) : List Token :=
  Piece.number none 0 (x.term.draft ctx).pieces

/-- A comparison is never in parentheses. -/
theorem draft_bracketed (ctx : Context) (bracketed : Bool) (x : Comparison) :
    x.term.draft { ctx with bracketed := bracketed } = x.term.draft ctx := by
  obtain ⟨op, left, right⟩ := x
  cases left <;> cases right <;> rfl

end Comparison

/-- Whether the token is one that comparisons are written in: neither a blank nor a keyword nor a
    parenthesis nor an alias. -/
def Token.isWord : Token → Bool
  | .space | .keyword _ | .lparen | .rparen | .aliasName _ => false
  | _ => true

/-- Tokens that a comparison can be. -/
structure IsPhrase (ts : List Token) : Prop where
  ne_nil : ts ≠ []
  words  : ∀ t ∈ ts, t.isWord = true

/-- Phrases may follow each other. -/
theorem IsPhrase.append {ts us : List Token} (hts : IsPhrase ts) (hus : IsPhrase us) :
    IsPhrase (ts ++ us) where
  ne_nil := fun h => hts.ne_nil (List.append_eq_nil_iff.mp h).1
  words := by
    intro t ht
    rcases List.mem_append.mp ht with h | h
    · exact hts.words t h
    · exact hus.words t h

theorem IsPhrase.singleton {t : Token} (ht : t.isWord = true) : IsPhrase [t] where
  ne_nil := List.cons_ne_nil _ _
  words := by
    intro u hu
    obtain rfl := List.mem_singleton.mp hu
    exact ht

/-- The literal of a constant is a word. -/
theorem Value.literal_isWord {v : Value} {t : Token} (h : v.literal = Draft.token t) :
    t.isWord = true := by
  cases v with
  | float x =>
    have hfloat : (if x.isFinite then Draft.token (.float x) else Draft.fail (.notFinite x))
        = Draft.token t := h
    split at hfloat
    · cases hfloat; rfl
    · cases hfloat
  | _ => cases h; rfl

/-- One side of a comparison is a phrase, if it can be written. -/
theorem Comparand.draft_eq_tokens {ctx : Context} (hb : ctx.binding = false) (x : Comparand)
    (h : (x.term.draft ctx).stop = none) :
    ∃ ts, x.term.draft ctx = Draft.tokens ts ∧ IsPhrase ts := by
  cases x with
  | column name source =>
    have hdraft : (Comparand.column name source).term.draft ctx =
        Source.qualifier ctx source ++ Draft.token (.ident name) := by
      show _ ++ Draft.token (.ident name) ++ ctx.declaration none = _
      simp only [Context.declaration]
      split <;> exact Draft.append_empty _
    rw [hdraft]
    simp only [Source.qualifier]
    cases Source.qualifier? ctx source with
    | none => exact ⟨[.ident name], rfl, .singleton rfl⟩
    | some qualifier =>
      exact ⟨[.ident qualifier, .dot, .ident name], rfl,
        ((IsPhrase.singleton rfl).append (.singleton rfl)).append (.singleton rfl)⟩
  | constant v mayBind =>
    have hdraft : (Comparand.constant v mayBind).term.draft ctx = v.literal := by
      show (if ctx.binding && mayBind && v.isBindable then _ else v.literal) ++ Draft.empty = _
      rw [hb, Draft.append_empty]
      rfl
    rw [hdraft] at h ⊢
    obtain ⟨t, ht⟩ := v.literal_eq_token h
    exact ⟨[t], ht, .singleton (Value.literal_isWord ht)⟩

/-- A comparison is a phrase, if it can be written. -/
theorem Comparison.draft_eq_tokens {ctx : Context} (hb : ctx.binding = false) (x : Comparison)
    (h : (x.term.draft ctx).stop = none) :
    x.term.draft ctx = Draft.tokens (x.written ctx) ∧ IsPhrase (x.written ctx) := by
  have hdraft : x.term.draft ctx =
      x.left.term.draft ctx ++ Draft.token (.operator x.op.text) ++ x.right.term.draft ctx := by
    show _ ++ x.right.term.draft ctx ++ ctx.declaration none = _
    simp only [Context.declaration]
    split <;> exact Draft.append_empty _
  rw [hdraft] at h
  obtain ⟨ls, hl, hls⟩ := x.left.draft_eq_tokens hb (stop_append (stop_append h).1).1
  obtain ⟨rs, hr, hrs⟩ := x.right.draft_eq_tokens hb (stop_append h).2
  have htokens : x.term.draft ctx = Draft.tokens (ls ++ [.operator x.op.text] ++ rs) := by
    rw [hdraft, hl, hr, ← tokens_append, ← tokens_append]
    rfl
  have hwritten : x.written ctx = ls ++ [.operator x.op.text] ++ rs := by
    simp only [Comparison.written]
    rw [htokens]
    exact Piece.number_map_token none 0 _
  rw [hwritten]
  exact ⟨htokens, (hls.append (.singleton rfl)).append hrs⟩

namespace Criterion

/-- The terms that a criterion stands for. The alias of a combination is never written, so it may
    have one. -/
def Shapes : Criterion Comparison → Term → Prop
  | comparison x, t => t = x.term
  | not operand aliasName, t => ∃ u : Term, operand.Shapes u ∧ t = ⟨.not u, aliasName⟩
  | combination op left right, t =>
    ∃ (l r : Term) (aliasName : Option String),
      left.Shapes l ∧ right.Shapes r ∧ t = ⟨.combination op l r, aliasName⟩

/-- A criterion and its term have the same operator at the top. -/
theorem Shapes.differsFrom_eq {c : Criterion Comparison} {t : Term} (h : c.Shapes t)
    (op : Combinator) : t.differsFrom op = c.differsFrom op := by
  cases c with
  | comparison x =>
    obtain rfl := h
    rfl
  | not operand aliasName =>
    obtain ⟨u, -, rfl⟩ := h
    rfl
  | combination other left right =>
    obtain ⟨l, r, aliasName, -, -, rfl⟩ := h
    rfl

/-- A term is written as the criterion is that it stands for. -/
theorem Shapes.draft_eq {c : Criterion Comparison} {t : Term} (h : c.Shapes t) (ctx : Context)
    (bracketed : Bool) :
    t.draft { ctx with bracketed := bracketed } =
      c.draft ctx (fun x => x.term.draft ctx) bracketed := by
  induction c generalizing t bracketed with
  | comparison x =>
    obtain rfl := h
    exact x.draft_bracketed ctx bracketed
  | not operand aliasName ih =>
    obtain ⟨u, hu, rfl⟩ := h
    show word .not ++ space ++ u.draft { ctx with bracketed := true } ++
      ctx.aliasDraft aliasName = _
    rw [ih hu true]
    rfl
  | combination op left right ihl ihr =>
    obtain ⟨l, r, aliasName, hl, hr, rfl⟩ := h
    show Draft.parensIf bracketed (l.draft { ctx with bracketed := l.differsFrom op } ++ space ++
      word op.keyword ++ space ++ r.draft { ctx with bracketed := r.differsFrom op }) = _
    rw [ihl hl, ihr hr, hl.differsFrom_eq, hr.differsFrom_eq]
    rfl

end Criterion

end SqlCompose
