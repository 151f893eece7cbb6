import SqlCompose.Proofs.ShownAliases

/-! # Written aliases — which aliases a term writes although it is not asked to

    Whether a term declares its alias is up to the context, but not for every kind of term:
    constants, tuples and arrays, tests of membership and of null, ranges and the like write theirs
    behind themselves wherever they stand. So a term that is not asked for its alias may still have
    aliases in it, its own or those of its operands.

    * `Expr.insists`, `Term.unasked` — the kinds that write their alias unasked, and the aliases
      that are written in a term unasked, outside of nested statements.
    * `Draft.Wraps` — a draft is written around drafts, with these aliases in what is between them.
    * `Draft.Weaves`, `Wraps.finish` — what that says about the tokens.
    * `Leaf.WrittenUnasked` — how leaves are written in a term that is not asked for its alias.
    * `Term.draft_wraps` — how the term itself is written, by recursion over the term.
    * `Term.draft_eq_unnamed` — it is written as without its alias, with the alias behind it if its
      kind insists on that. -/

namespace SqlCompose

open Draft

/-! ## The aliases that are written unasked -/

/-- Whether the expression writes its alias unasked. The items of an array that is bound as one
    value are not written, nor is its alias. -/
def Expr.insists (binding : Bool) : Expr → Bool
  | .literal _ | .value _ _ | .tuple _ | .document _ | .membership _ _ _ | .between _ _ _
  | .period _ _ _ | .bitAnd _ _ | .isNull _ | .not _ | .all _ | .atTimeZone _ _ _ => true
  | .array items => !(binding && (constants? items).isSome)
  | _ => false

section

variable (binding : Bool)

mutual

/-- The aliases that are written in a term unasked. -/
def Term.unasked : Term → List String
  | { expr, aliasName } =>
    expr.unaskedInside ++ if expr.insists binding then declaredNames aliasName else []

/-- Those of the operands of an expression. -/
def Expr.unaskedInside : Expr → List String
  | .tuple items => termsUnasked items
  | .array items => if binding && (constants? items).isSome then [] else termsUnasked items
  | .call c => c.unaskedInside
  | .case branches otherwise => branchesUnasked branches ++ optionUnasked otherwise
  | .arithmetic _ left right => left.unasked ++ right.unasked
  | .negative operand => operand.unasked
  | .comparison _ left right => left.unasked ++ right.unasked
  | .combination _ left right => left.unasked ++ right.unasked
  | .chain _ _ left middle right => left.unasked ++ middle.unasked ++ right.unasked
  | .membership operand container _ => operand.unasked ++ container.unasked
  | .between operand lower upper => operand.unasked ++ lower.unasked ++ upper.unasked
  | .period operand start stop => operand.unasked ++ start.unasked ++ stop.unasked
  | .bitAnd operand _ => operand.unasked
  | .isNull operand => operand.unasked
  | .not operand => operand.unasked
  | .all operand => operand.unasked
  | .jsonPath column _ => column.unasked
  | .insertedValue field => field.unasked
  | .atTimeZone operand _ _ => operand.unasked
  | _ => []

/-- Those of terms. -/
def termsUnasked : List Term → List String
  | [] => []
  | t :: rest => t.unasked ++ termsUnasked rest

/-- Those of a term that may be missing. -/
def optionUnasked : Option Term → List String
  | none => []
  | some t => t.unasked

/-- Those of the branches of a CASE expression. -/
def branchesUnasked : List Branch → List String
  | [] => []
  | { condition, result } :: rest => condition.unasked ++ result.unasked ++ branchesUnasked rest

/-- Those of a call; one whose name stands alone has none. -/
def Call.unaskedInside : Call → List String
  | { arguments, suffix, bare, filter, window, .. } =>
    if bare then []
    else
      termsUnasked arguments ++ suffixUnasked suffix ++ optionUnasked filter ++
        windowUnasked window

/-- Those behind the arguments of a call. -/
def suffixUnasked : Option CallSuffix → List String
  | some (.source t) => t.unasked
  | _ => []

/-- Those of an OVER clause. -/
def windowUnasked : Option Window → List String
  | none => []
  | some { partition, orderings } => termsUnasked partition ++ orderingsUnasked orderings

/-- Those of terms to sort by. -/
def orderingsUnasked : List Ordering → List String
  | [] => []
  | { term, .. } :: rest => term.unasked ++ orderingsUnasked rest

end

end

/-- Names that terms declare unasked are those of one term after the other. -/
theorem termsUnasked_eq_flatMap (binding : Bool) (ts : List Term) :
    termsUnasked binding ts = ts.flatMap (Term.unasked binding) := by
  induction ts with
  | nil => rfl
  | cons t rest ih => exact congrArg (t.unasked binding ++ ·) ih

/-! ## Drafts without aliases -/

/-- No constant is written with an alias. -/
theorem Value.aliases_draft (ctx : Context) (v : Value) (mayBind : Bool) :
    (v.draft ctx mayBind).aliases = [] := by
  simp only [Value.draft]
  split
  · rfl
  · cases v with
    | float x =>
      show (if x.isFinite then Draft.token (.float x) else Draft.fail (.notFinite x)).aliases = []
      split <;> rfl
    | _ => rfl

/-- The name in front of a column is no declaration. -/
theorem Source.aliases_qualifier (ctx : Context) (source : Option Source) :
    (Source.qualifier ctx source).aliases = [] := by
  simp only [Source.qualifier]
  split <;> rfl

/-- Where aliases are not asked for, none is declared. -/
theorem Context.aliases_declaration {ctx : Context} (h : ctx.declares = false)
    (aliasName : Option String) : (ctx.declaration aliasName).aliases = [] := by
  simp only [Context.declaration, h]
  rfl

theorem Draft.aliases_when {condition : Bool} {d : Draft} (h : d.aliases = []) :
    (when condition d).aliases = [] := by
  cases condition with
  | true => exact h
  | false => rfl

theorem Draft.aliases_tokens (ts : List Token) :
    (Draft.tokens ts).aliases = ts.filterMap Token.alias? := List.filterMap_map

/-- The schema of a table is no alias. -/
theorem Schema.aliases_qualifier (schema : Option Schema) :
    (Schema.qualifier schema).aliases = [] := by
  cases schema with
  | none => rfl
  | some s =>
    show ((s.tokens.map Piece.token) ++ [Piece.token .dot]).filterMap Piece.alias? = []
    rw [List.filterMap_append, List.filterMap_map]
    refine List.append_eq_nil_iff.mpr ⟨?_, rfl⟩
    rw [List.filterMap_eq_nil_iff]
    intro t ht
    rcases Token.mem_joined ht with rfl | ⟨name, hname, hmem⟩
    · rfl
    · obtain ⟨_, -, rfl⟩ := List.mem_map.mp hname
      obtain rfl := List.mem_singleton.mp hmem
      rfl

/-- The edge of a frame has no alias in it. -/
theorem Edge.alias?_tokens (e : Edge) : e.tokens.filterMap Token.alias? = [] := by
  cases e with
  | preceding distance => cases distance with
    | none => rfl
    | some n => cases n <;> rfl
  | following distance => cases distance with
    | none => rfl
    | some n => cases n <;> rfl
  | currentRow => rfl

/-- A frame has none. -/
theorem Frame.alias?_tokens (f : Frame) : f.tokens.filterMap Token.alias? = [] := by
  obtain ⟨kind, lower, upper⟩ := f
  cases upper with
  | none => exact lower.alias?_tokens
  | some upper =>
    show (_ ++ lower.tokens ++ _ ++ upper.tokens).filterMap Token.alias? = []
    simp only [List.filterMap_append, lower.alias?_tokens, upper.alias?_tokens]
    rfl

/-- A path has none. -/
theorem PathStep.aliases_arrows (path : List PathStep) :
    (tokens (PathStep.arrows path)).aliases = [] := by
  induction path with
  | nil => rfl
  | cons step rest ih =>
    cases rest with
    | nil => rfl
    | cons second rest => exact ih

/-! ## Drafts around drafts, with aliases between them -/

namespace Draft

variable {ι : Type}

/-- The draft has parts, one behind the other, that stand in the relation to the items of the list,
    and what stands between the parts has these aliases. Of a draft that stops nothing is said. -/
inductive Wraps (rel : ι → Draft → Prop) : Draft → List ι → List String → Prop
  | text (d : Draft) : Wraps rel d [] d.aliases
  | leaf {x : ι} {d : Draft} : rel x d → Wraps rel d [x] []
  | append {a b : Draft} {xs ys : List ι} {names names' : List String} :
      Wraps rel a xs names → Wraps rel b ys names' → Wraps rel (a ++ b) (xs ++ ys) (names ++ names')
  | stopped {d : Draft} {xs : List ι} {names : List String} : d.stop ≠ none → Wraps rel d xs names

/-- The tokens are a text with gaps, the gaps are filled by what is written of drafts that stand in
    the relation to the items of the list, and the aliases in the text are those that are named. -/
def Weaves (rel : ι → Draft → Prop) (xs : List ι) (names : List String) (ts : List Token) : Prop :=
  ∃ segments fillings : List (List Token), segments.length = xs.length + 1 ∧
    List.Forall₂ (Around.Gives rel) xs fillings ∧ ts = weave segments fillings ∧
    segments.flatten.filterMap Token.alias? = names

/-- Drafts, one after another, around the items of a list, with aliases in them. -/
inductive WrapsAll (rel : ι → Draft → Prop) : List Draft → List ι → List String → Prop
  | nil : WrapsAll rel [] [] []
  | cons {d : Draft} {ds : List Draft} {xs ys : List ι} {names names' : List String} :
      Wraps rel d xs names → WrapsAll rel ds ys names' →
        WrapsAll rel (d :: ds) (xs ++ ys) (names ++ names')

namespace Wraps

variable {rel : ι → Draft → Prop} {a b d : Draft} {xs ys : List ι} {names names' : List String}

/-- Text without aliases. -/
theorem plain (h : d.aliases = []) : Wraps rel d [] [] := h ▸ text d

/-- Text without aliases may follow. -/
theorem before (ha : Wraps rel a xs names) (h : b.aliases = []) : Wraps rel (a ++ b) xs names := by
  have hb : Wraps rel b [] [] := plain h
  have happend := ha.append hb
  rwa [List.append_nil, List.append_nil] at happend

/-- Text without aliases may come first. -/
theorem behind (h : a.aliases = []) (hb : Wraps rel b xs names) : Wraps rel (a ++ b) xs names :=
  (plain h).append hb

/-- Where writing fails, it need have no leaves and no aliases. -/
theorem fail (e : BuildError) : Wraps rel (fail e) xs names := stopped nofun

/-- Parentheses add neither leaves nor aliases. -/
theorem parens (hd : Wraps rel d xs names) : Wraps rel (parens d) xs names :=
  (hd.behind rfl).before rfl

theorem brackets (hd : Wraps rel d xs names) : Wraps rel (brackets d) xs names :=
  (hd.behind rfl).before rfl

theorem parensIf (condition : Bool) (hd : Wraps rel d xs names) :
    Wraps rel (parensIf condition d) xs names := by
  cases condition with
  | false => exact hd
  | true => exact hd.parens

/-- A clause of one word. -/
theorem clause (k : Keyword) (hd : Wraps rel d xs names) : Wraps rel (clause [k] d) xs names :=
  hd.behind rfl

/-- An alias may be behind a draft. -/
theorem aliased (ctx : Context) (aliasName : Option String) (hd : Wraps rel d xs names) :
    Wraps rel (d ++ ctx.aliasDraft aliasName) xs (names ++ declaredNames aliasName) := by
  have halias : Wraps rel (ctx.aliasDraft aliasName) [] (declaredNames aliasName) := by
    rw [← ctx.aliases_aliasDraft aliasName]
    exact text _
  have happend := hd.append halias
  rwa [List.append_nil] at happend

/-- An alias that is not asked for is not there. -/
theorem undeclared {ctx : Context} (h : ctx.declares = false) (aliasName : Option String)
    (hd : Wraps rel d xs names) :
    Wraps rel (d ++ ctx.declaration aliasName) xs (names ++ []) := by
  rw [List.append_nil]
  exact hd.before (Context.aliases_declaration h aliasName)

/-- Nothing has to be written behind a draft. -/
theorem only (hd : Wraps rel d xs names) : Wraps rel d xs (names ++ []) :=
  (List.append_nil names).symm ▸ hd

/-- A path into a document adds none. -/
theorem jsonPath (dialect : Dialect) (hd : Wraps rel d xs names) (path : List PathStep) :
    Wraps rel (dialect.jsonPath d path) xs names := by
  cases dialect with
  | mssql => exact (((hd.before rfl).before rfl).before rfl).parens.behind rfl
  | mysql | sqlite => exact hd.before rfl
  | _ => exact hd.before (PathStep.aliases_arrows path)

/-- Items may be left out by a test, if there are no aliases in what stands in the relation to
    them. -/
theorem filter (test : ι → Bool)
    (h : ∀ x d, rel x d → test x = false → d.aliases = []) (hd : Wraps rel d xs names) :
    Wraps rel d (xs.filter test) names := by
  induction hd with
  | text d => exact text d
  | @leaf x d hx =>
    cases htest : test x with
    | true =>
      rw [List.filter_cons_of_pos htest]
      exact leaf hx
    | false =>
      -- what is left out becomes text, so it must not have aliases of its own
      rw [List.filter_cons_of_neg (Bool.not_eq_true _ ▸ htest)]
      exact plain (h x d hx htest)
  | append _ _ iha ihb =>
    rw [List.filter_append]
    exact iha.append ihb
  | stopped hstop => exact stopped hstop

/-- What is written of a draft are the aliases that are named, outside of the parts that it is
    written around. -/
theorem finish (hd : Wraps rel d xs names) {p p' : Parameters} {ts : List Token}
    (h : d.finish p = (.ok ts, p')) : Weaves rel xs names ts := by
  induction hd generalizing p p' ts with
  | text d =>
    rw [finish_of_complete (complete_of_finish h)] at h
    obtain rfl := Except.ok.inj (Prod.mk.inj h).1
    refine ⟨[_], [], rfl, .nil, rfl, ?_⟩
    rw [List.flatten_cons, List.flatten_nil, List.append_nil, Piece.number_alias?]
    rfl
  | @leaf x d hx =>
    refine ⟨[[], []], [ts], rfl, .cons ⟨d, p, p', hx, h⟩ .nil, ?_, rfl⟩
    exact (List.append_nil ts).symm
  | append _ _ iha ihb =>
    obtain ⟨us, vs, p₁, ha, hb, rfl⟩ := finish_append_ok h
    obtain ⟨segments, fillings, hlength, hgives, rfl, hnames⟩ := iha ha
    obtain ⟨segments', fillings', hlength', hgives', rfl, hnames'⟩ := ihb hb
    rw [hgives.length_eq] at hlength
    rw [hgives'.length_eq] at hlength'
    obtain ⟨joined, hjoined, hweave, hflatten⟩ := weave_append hlength hlength'
    refine ⟨joined, fillings ++ fillings', ?_, List.rel_append hgives hgives', hweave, ?_⟩
    · rw [hjoined, List.length_append, List.length_append, hgives.length_eq, hgives'.length_eq]
    · rw [hflatten, List.filterMap_append, hnames, hnames']
  | stopped hstop => exact absurd (complete_of_finish h) hstop

end Wraps

namespace WrapsAll

variable {rel : ι → Draft → Prop} {separator : Draft} {ds es : List Draft} {xs ys : List ι}
  {names names' : List String}

/-- Drafts one after the other, with separators that declare nothing. -/
theorem join (hseparator : separator.aliases = []) (h : WrapsAll rel ds xs names) :
    Wraps rel (join separator ds) xs names := by
  induction h with
  | nil => exact .plain rfl
  | cons hd hrest ih =>
    cases hrest with
    | nil => rw [List.append_nil, List.append_nil]; exact hd
    | cons _ _ => exact (hd.before hseparator).append ih

theorem commas (h : WrapsAll rel ds xs names) : Wraps rel (commas ds) xs names := h.join rfl

/-- The drafts of two lists, one behind the other. -/
theorem append (h : WrapsAll rel ds xs names) (h' : WrapsAll rel es ys names') :
    WrapsAll rel (ds ++ es) (xs ++ ys) (names ++ names') := by
  induction h with
  | nil => exact h'
  | cons hd _ ih => rw [List.append_assoc, List.append_assoc]; exact .cons hd ih

/-- No drafts are written around nothing and have no aliases in them. -/
theorem eq_nil (h : WrapsAll rel ds xs names) (hds : ds.isEmpty = true) : xs = [] ∧ names = [] := by
  cases h with
  | nil => exact ⟨rfl, rfl⟩
  | cons _ _ => exact nomatch hds

/-- An array has the leaves and the aliases of its items. -/
theorem array (dialect : Dialect) (h : WrapsAll rel ds xs names) :
    Wraps rel (dialect.array ds) xs names := by
  cases dialect with
  | postgres =>
    show Wraps rel (if ds.isEmpty then _ else _) xs names
    split
    · next hnone =>
      obtain ⟨rfl, rfl⟩ := h.eq_nil hnone
      exact .plain rfl
    · exact h.commas.brackets.behind rfl
  | _ => exact h.commas.brackets

/-- A window has those of what it is split by, and then those of its orders. -/
theorem window {partition orderings : List Draft} (hpartition : WrapsAll rel partition xs names)
    (horderings : WrapsAll rel orderings ys names') (frame : Option Frame) :
    Wraps rel (Clause.window partition orderings frame) (xs ++ ys) (names ++ names') := by
  have hpart (k : Keyword) {ds : List Draft} {zs : List ι} {found : List String}
      (h : WrapsAll rel ds zs found) :
      WrapsAll rel (if ds.isEmpty then [] else [word k ++ space ++ Draft.commas ds]) zs found := by
    split
    · next hnone =>
      obtain ⟨rfl, rfl⟩ := h.eq_nil hnone
      exact .nil
    · have hone := WrapsAll.cons (h.commas.behind (a := word k ++ space) rfl) .nil
      rwa [List.append_nil, List.append_nil] at hone
  have hparts := (hpart .partitionBy hpartition).append (hpart .orderBy horderings)
  rw [← List.append_nil (xs ++ ys), ← List.append_nil (names ++ names')]
  refine ((hparts.append ?_).join rfl).parens.behind rfl
  cases frame with
  | none => exact .nil
  | some f => exact .cons (.plain ((aliases_tokens f.tokens).trans f.alias?_tokens)) .nil

end WrapsAll

end Draft

/-! ## Terms that are not asked for their alias -/

/-- How a leaf is written in a part that is not asked for its alias: a statement is not asked for
    its own. -/
def Leaf.WrittenUnasked (base : Context) : Leaf → Draft → Prop
  | column name source, d => d = Source.qualifier base source ++ token (.ident name)
  | star source, d => d = Source.qualifier base source ++ token .star
  | statement nested q, d =>
    ∃ ctx : Context, ctx.Within base ∧ ctx.nested = nested ∧ ctx.declares = false ∧ d = q.draft ctx
  | setOperation nested s, d =>
    ∃ ctx : Context, ctx.Within base ∧ ctx.nested = nested ∧ ctx.declares = false ∧ d = s.draft ctx

/-! One theorem for each function that drafts a part of a term, by recursion over the part. -/

mutual

/-- A term that is asked for no alias writes its leaves and declares what is declared unasked. -/
theorem Term.draft_wraps {base ctx : Context} (hc : ctx.Within base) (hd : ctx.declares = false) :
    (t : Term) → Wraps (Leaf.WrittenUnasked base) (t.draft ctx) (t.leaves ctx.nested)
      (t.unasked ctx.binding)
  | ⟨expr, aliasName⟩ => Expr.draft_wraps hc hd aliasName expr

/-- So does an expression; its alias is declared if it insists on it. -/
theorem Expr.draft_wraps {base ctx : Context} (hc : ctx.Within base) (hd : ctx.declares = false)
    (aliasName : Option String) :
    (e : Expr) → Wraps (Leaf.WrittenUnasked base) (e.draft ctx aliasName) (e.leaves ctx.nested)
      (e.unaskedInside ctx.binding ++
        if e.insists ctx.binding then declaredNames aliasName else [])
  | .literal sql => (Wraps.plain rfl).aliased ctx aliasName
  | .value v mayBind => (Wraps.plain (v.aliases_draft ctx mayBind)).aliased ctx aliasName
  | .field name source => by
    have hcolumn : Leaf.WrittenUnasked base (.column name source)
        (Source.qualifier ctx source ++ token (.ident name)) :=
      congrArg (· ++ token (.ident name)) (hc.qualifier source)
    exact (Wraps.leaf hcolumn).undeclared hd aliasName
  | .star source => by
    have hstar : Leaf.WrittenUnasked base (.star source)
        (Source.qualifier ctx source ++ token .star) :=
      congrArg (· ++ token .star) (hc.qualifier source)
    exact .leaf hstar
  | .tuple items => (termDrafts_wraps hc hd items).commas.parens.aliased ctx aliasName
  | .array items => by
    have hlist := (termDrafts_wraps hc hd items).array ctx.dialect
    show Wraps _ (match if ctx.binding then constants? items else none with
      | some values => hole (.list values) ctx.dialect
      | none => ctx.dialect.array (termDrafts ctx items) ++ ctx.aliasDraft aliasName)
      (termLeaves ctx.nested items)
      ((if ctx.binding && (constants? items).isSome then [] else termsUnasked ctx.binding items) ++
        if !(ctx.binding && (constants? items).isSome) then declaredNames aliasName else [])
    cases hbinding : ctx.binding with
    | false =>
      rw [hbinding] at hlist
      exact hlist.aliased ctx aliasName
    | true =>
      cases hconstants : constants? items with
      | some values =>
        -- one hole for all of them, and constants have no leaves
        rw [termLeaves_of_constants hconstants]
        exact .plain rfl
      | none =>
        rw [hbinding] at hlist
        exact hlist.aliased ctx aliasName
  | .call c => (Call.draft_wraps hc hd c).undeclared hd aliasName
  | .case branches otherwise => by
    have hinner : Context.Within { ctx with declares := false } base := hc
    have hbranches := branchesDraft_wraps hinner rfl branches
    have helse := elseDraft_wraps hinner rfl otherwise
    show Wraps _ (if _ then _ else _) _ _
    split
    · exact .fail _
    · exact ((((hbranches.behind rfl).append helse).before rfl).before rfl).undeclared hd aliasName
  | .interval i => .plain rfl
  | .document d => (Wraps.plain rfl).aliased ctx aliasName
  | .arithmetic op left right => by
    have hleft := (Term.draft_wraps hc hd left).parensIf (op.bracketsLeft left.arithmeticOp?)
    have hright := (Term.draft_wraps hc hd right).parensIf (op.bracketsRight right.arithmeticOp?)
    exact ((hleft.before rfl).append hright).undeclared hd aliasName
  | .negative operand => ((Term.draft_wraps hc hd operand).behind rfl).only
  | .parameter p => .plain rfl
  | .comparison op left right =>
    (((Term.draft_wraps hc hd left).before rfl).append (Term.draft_wraps hc hd right)).undeclared
      hd aliasName
  | .combination op left right => by
    have hleft : Context.Within { ctx with bracketed := left.differsFrom op } base := hc
    have hright : Context.Within { ctx with bracketed := right.differsFrom op } base := hc
    have hfirst := ((((Term.draft_wraps hleft hd left).before (b := space) rfl).before
      (b := word op.keyword) rfl).before (b := space) rfl)
    exact ((hfirst.append (Term.draft_wraps hright hd right)).parensIf ctx.bracketed).only
  | .chain first second left middle right => by
    have hleft := (Term.draft_wraps hc hd left).before (b := token (.operator first.text)) rfl
    have hmiddle := (hleft.append (Term.draft_wraps hc hd middle)).before
      (b := token (.operator second.text)) rfl
    exact (hmiddle.append (Term.draft_wraps hc hd right)).undeclared hd aliasName
  | .membership operand container negated => by
    have hnested : Context.Within { ctx with nested := true } base := hc
    have hnot : (when negated (word .not ++ space)).aliases = [] := aliases_when rfl
    have hoperand := ((((Term.draft_wraps hc hd operand).before (b := space) rfl).before
      hnot).before (b := word .in_) rfl).before (b := space) rfl
    exact (hoperand.append (Term.draft_wraps hnested hd container)).aliased ctx aliasName
  | .between operand lower upper => by
    have hlower := (Term.draft_wraps hc hd lower).clause .between
    have hupper := (Term.draft_wraps hc hd upper).clause .and
    exact (((Term.draft_wraps hc hd operand).append hlower).append hupper).aliased ctx aliasName
  | .period operand start stop => by
    have hstart := (Term.draft_wraps hc hd start).clause .from_
    have hto := ((((Term.draft_wraps hc hd operand).append hstart).before (b := space) rfl).before
      (b := raw "TO") rfl).before (b := space) rfl
    exact (hto.append (Term.draft_wraps hc hd stop)).aliased ctx aliasName
  | .bitAnd operand mask =>
    (((Term.draft_wraps hc hd operand).before rfl).before rfl).parens.aliased ctx aliasName
  | .isNull operand =>
    (((Term.draft_wraps hc hd operand).before rfl).before rfl).aliased ctx aliasName
  | .not operand => by
    have hbracketed : Context.Within { ctx with bracketed := true } base := hc
    exact ((Term.draft_wraps hbracketed hd operand).behind rfl).aliased ctx aliasName
  | .all operand =>
    (((Term.draft_wraps hc hd operand).before rfl).before rfl).aliased ctx aliasName
  | .jsonPath column path =>
    ((Term.draft_wraps hc hd column).jsonPath ctx.dialect path).undeclared hd aliasName
  | .subquery q => .leaf ⟨ctx, hc, rfl, hd, rfl⟩
  | .setOperation s => .leaf ⟨ctx, hc, rfl, hd, rfl⟩
  | .insertedValue field => ((Term.draft_wraps hc hd field).parens.behind rfl).only
  | .index name => .plain rfl
  | .pseudoColumn name => .plain rfl
  | .atTimeZone operand zone isInterval => by
    have hinterval : (when isInterval (word .interval ++ space)).aliases = [] := aliases_when rfl
    have hzone := ((((Term.draft_wraps hc hd operand).before (b := space) rfl).before
      (b := word .atTimeZone) rfl).before (b := space) rfl).before hinterval
    exact (hzone.before rfl).aliased ctx aliasName
  | .empty => .plain rfl

/-- Terms do, one by one. -/
theorem termDrafts_wraps {base ctx : Context} (hc : ctx.Within base) (hd : ctx.declares = false) :
    (ts : List Term) → WrapsAll (Leaf.WrittenUnasked base) (termDrafts ctx ts)
      (termLeaves ctx.nested ts) (termsUnasked ctx.binding ts)
  | [] => .nil
  | t :: rest => .cons (Term.draft_wraps hc hd t) (termDrafts_wraps hc hd rest)

theorem branchesDraft_wraps {base ctx : Context} (hc : ctx.Within base)
    (hd : ctx.declares = false) :
    (bs : List Branch) → Wraps (Leaf.WrittenUnasked base) (branchesDraft ctx bs)
      (branchLeaves ctx.nested bs) (branchesUnasked ctx.binding bs)
  | [] => .plain rfl
  | ⟨condition, result⟩ :: rest => by
    have hwhen := (Term.draft_wraps hc hd condition).clause .when
    have hthen := (Term.draft_wraps hc hd result).clause .then_
    exact (hwhen.append hthen).append (branchesDraft_wraps hc hd rest)

theorem elseDraft_wraps {base ctx : Context} (hc : ctx.Within base) (hd : ctx.declares = false) :
    (t : Option Term) → Wraps (Leaf.WrittenUnasked base) (elseDraft ctx t)
      (optionLeaves ctx.nested t) (optionUnasked ctx.binding t)
  | none => .plain rfl
  | some t => (Term.draft_wraps hc hd t).clause .else_

/-- A call does, with what stands behind it. -/
theorem Call.draft_wraps {base ctx : Context} (hc : ctx.Within base) (hd : ctx.declares = false) :
    (c : Call) → Wraps (Leaf.WrittenUnasked base) (c.draft ctx) (c.leaves ctx.nested)
      (c.unaskedInside ctx.binding)
  | ⟨name, arguments, schema, suffix, bare, aggregate, distinct, filter, window, frame⟩ => by
    have hinner : Context.Within { ctx with declares := false } base := hc
    have hhead : (Schema.qualifier schema ++ token (.function name)).aliases = [] := by
      rw [aliases_append (Draft.complete.schemaQualifier schema), Schema.aliases_qualifier]
      rfl
    have hdistinct : (when distinct (word .distinct ++ space)).aliases = [] := aliases_when rfl
    have harguments := (termDrafts_wraps hinner rfl arguments).commas
    have hsuffix := suffixDraft_wraps hc hd suffix
    have hfilter := filterDraft_wraps hc hd filter
    have hwindow := windowDraft_wraps hc hd frame window
    have hinside := ((harguments.behind hdistinct).append hsuffix).parens
    show Wraps _ (if _ then _ else _) (if _ then _ else _) (if _ then _ else _)
    split
    · exact .plain hhead
    · exact ((hinside.behind hhead).append hfilter).append hwindow

theorem suffixDraft_wraps {base ctx : Context} (hc : ctx.Within base) (hd : ctx.declares = false) :
    (s : Option CallSuffix) → Wraps (Leaf.WrittenUnasked base) (suffixDraft ctx s)
      (suffixLeaves ctx.nested s) (suffixUnasked ctx.binding s)
  | none => .plain rfl
  | some (.words _) => .plain rfl
  | some .ignoreNulls => .plain rfl
  | some (.source t) => (Term.draft_wraps hc hd t).clause .from_

theorem filterDraft_wraps {base ctx : Context} (hc : ctx.Within base) (hd : ctx.declares = false) :
    (t : Option Term) → Wraps (Leaf.WrittenUnasked base) (filterDraft ctx t)
      (optionLeaves ctx.nested t) (optionUnasked ctx.binding t)
  | none => .plain rfl
  | some t => by
    have hwhere := (Term.draft_wraps hc hd t).behind (a := word .where_ ++ space) rfl
    exact hwhere.parens.behind rfl

/-- A window does, whatever its frame. -/
theorem windowDraft_wraps {base ctx : Context} (hc : ctx.Within base) (hd : ctx.declares = false)
    (frame : Option Frame) :
    (w : Option Window) → Wraps (Leaf.WrittenUnasked base) (windowDraft ctx frame w)
      (windowLeaves ctx.nested w) (windowUnasked ctx.binding w)
  | none => .plain rfl
  | some ⟨partition, orderings⟩ =>
    (termDrafts_wraps hc hd partition).window (orderingDrafts_wraps hc hd orderings) frame

/-- Orders do, if none is written short. -/
theorem orderingDrafts_wraps {base ctx : Context} (hc : ctx.Within base)
    (hd : ctx.declares = false) :
    (os : List Ordering) → WrapsAll (Leaf.WrittenUnasked base)
      (orderingDrafts ctx (fun _ => none) os) (orderingLeaves ctx.nested (fun _ => none) os)
      (orderingsUnasked ctx.binding os)
  | [] => .nil
  | ⟨term, direction⟩ :: rest => by
    -- in a window no term is written by its name
    have hshort {α : Type} (x : α) : (term.knownAs.bind fun _ => (none : Option α)).getD x = x := by
      rw [Option.bind_fun_none]
      rfl
    have hdirection : (Direction.suffix direction).aliases = [] := by
      cases direction <;> rfl
    show WrapsAll _ (_ :: _) (_ ++ _) _
    rw [hshort, hshort]
    exact .cons ((Term.draft_wraps hc hd term).before hdirection) (orderingDrafts_wraps hc hd rest)

end

/-! ## The alias of the term itself -/

/-- An expression that is not asked for its alias is written as without it, with the alias behind it
    if it insists on that. -/
theorem Expr.draft_eq_unnamed {ctx : Context} (hd : ctx.declares = false) (e : Expr)
    (aliasName : Option String) :
    e.draft ctx aliasName =
      e.draft ctx none ++ when (e.insists ctx.binding) (ctx.aliasDraft aliasName) := by
  have hunasked (name : Option String) : ctx.declaration name = Draft.empty := by
    simp only [Context.declaration, hd]
    rfl
  have hdeclared (body : Draft) :
      body ++ ctx.declaration aliasName = body ++ ctx.declaration none ++ Draft.empty := by
    rw [hunasked, hunasked, append_empty, append_empty]
  have hinsisted (body : Draft) :
      body ++ ctx.aliasDraft aliasName = body ++ Draft.empty ++ ctx.aliasDraft aliasName := by
    rw [append_empty]
  cases e with
  | array items =>
    show (match if ctx.binding then constants? items else none with
      | some values => hole (.list values) ctx.dialect
      | none => ctx.dialect.array (termDrafts ctx items) ++ ctx.aliasDraft aliasName) =
      (match if ctx.binding then constants? items else none with
      | some values => hole (.list values) ctx.dialect
      | none => ctx.dialect.array (termDrafts ctx items) ++ Draft.empty) ++
        when (!(ctx.binding && (constants? items).isSome)) (ctx.aliasDraft aliasName)
    cases ctx.binding with
    | false => exact hinsisted _
    | true =>
      cases constants? items with
      | some values => exact (append_empty _).symm
      | none => exact hinsisted _
  | case branches otherwise =>
    show (if _ then _ else _) = (if _ then _ else _) ++ _
    split
    · rfl
    · exact hdeclared _
  | _ => first | exact hinsisted _ | exact hdeclared _ | exact (append_empty _).symm

/-- A term that is not asked for its alias is written as without it, with the alias behind it if its
    kind insists on that. -/
theorem Term.draft_eq_unnamed {ctx : Context} (hd : ctx.declares = false) (t : Term) :
    t.draft ctx =
      Term.draft ctx ⟨t.expr, none⟩ ++
        when (t.expr.insists ctx.binding) (ctx.aliasDraft t.aliasName) := by
  obtain ⟨expr, aliasName⟩ := t
  exact expr.draft_eq_unnamed hd aliasName

end SqlCompose
