import Mathlib.Data.List.Forall2
import SqlCompose.Proofs.Numbering
import SqlCompose.Render

/-! # Leaves — the columns and nested statements of a term, and where they are written

    A term is written around its leaves: its columns, its stars and the statements that are nested
    in it. Each is written in a context that differs from that of the term in what is asked of the
    part alone, and the leaves stand in the order in which the term has them.

    * `Leaf`, `Term.leaves` — the leaves of a term, outside of nested statements, by a walk over the
      term beside the one that writes it.
    * `Draft.Around` — a draft is written around drafts that stand in a relation to the items of a
      list.
    * `Around.finish` — what that says about the tokens.
    * `Leaf.Written` — how leaves are written.
    * `Term.draft_around` — a term is written around its leaves, by recursion over the term. -/

namespace SqlCompose

open Draft

/-! ## Leaves -/

/-- What a term is written around. -/
inductive Leaf
  | column (name : String) (source : Option Source)
  | star (source : Option Source)
  /-- A nested statement, and whether it is drafted as a nested one. -/
  | statement (nested : Bool) (q : Query)
  | setOperation (nested : Bool) (s : SetOperation)

mutual

/-- The leaves of a term that is drafted as a nested part or not. -/
def Term.leaves (nested : Bool) : Term → List Leaf
  | { expr, .. } => expr.leaves nested

/-- The leaves of an expression. The container of a test of membership is always nested. -/
def Expr.leaves (nested : Bool) : Expr → List Leaf
  | .field name source => [.column name source]
  | .star source => [.star source]
  | .tuple items => termLeaves nested items
  | .array items => termLeaves nested items
  | .call c => c.leaves nested
  | .case branches otherwise => branchLeaves nested branches ++ optionLeaves nested otherwise
  | .arithmetic _ left right => left.leaves nested ++ right.leaves nested
  | .negative operand => operand.leaves nested
  | .comparison _ left right => left.leaves nested ++ right.leaves nested
  | .combination _ left right => left.leaves nested ++ right.leaves nested
  | .chain _ _ left middle right =>
    left.leaves nested ++ middle.leaves nested ++ right.leaves nested
  | .membership operand container _ => operand.leaves nested ++ container.leaves true
  | .between operand lower upper =>
    operand.leaves nested ++ lower.leaves nested ++ upper.leaves nested
  | .period operand start stop =>
    operand.leaves nested ++ start.leaves nested ++ stop.leaves nested
  | .bitAnd operand _ => operand.leaves nested
  | .isNull operand => operand.leaves nested
  | .not operand => operand.leaves nested
  | .all operand => operand.leaves nested
  | .jsonPath column _ => column.leaves nested
  | .subquery q => [.statement nested q]
  | .setOperation s => [.setOperation nested s]
  | .insertedValue field => field.leaves nested
  | .atTimeZone operand _ _ => operand.leaves nested
  | _ => []

/-- The leaves of terms. -/
def termLeaves (nested : Bool) : List Term → List Leaf
  | [] => []
  | t :: rest => t.leaves nested ++ termLeaves nested rest

/-- The leaves of a term that may be missing. -/
def optionLeaves (nested : Bool) : Option Term → List Leaf
  | none => []
  | some t => t.leaves nested

/-- The leaves of the branches of a CASE expression. -/
def branchLeaves (nested : Bool) : List Branch → List Leaf
  | [] => []
  | { condition, result } :: rest =>
    condition.leaves nested ++ result.leaves nested ++ branchLeaves nested rest

/-- The leaves of a call; one whose name stands alone has none. -/
def Call.leaves (nested : Bool) : Call → List Leaf
  | { arguments, suffix, bare, filter, window, .. } =>
    if bare then []
    else
      termLeaves nested arguments ++ suffixLeaves nested suffix ++ optionLeaves nested filter ++
        windowLeaves nested window

/-- The leaves behind the arguments of a call. -/
def suffixLeaves (nested : Bool) : Option CallSuffix → List Leaf
  | some (.source t) => t.leaves nested
  | _ => []

/-- The leaves of an OVER clause. -/
def windowLeaves (nested : Bool) : Option Window → List Leaf
  | none => []
  | some { partition, orderings } =>
    termLeaves nested partition ++ orderingLeaves nested (fun _ => none) orderings

/-- The leaves of terms to sort by, those that are written in a shorter way excepted. -/
def orderingLeaves (nested : Bool) (short : String → Option (List Leaf)) :
    List Ordering → List Leaf
  | [] => []
  | { term, .. } :: rest =>
    (term.knownAs.bind short).getD (term.leaves nested) ++ orderingLeaves nested short rest

end

/-- The criterion that asks for nothing has no leaves. -/
theorem Term.leaves_of_isEmpty {t : Term} (h : t.isEmpty = true) (nested : Bool) :
    t.leaves nested = [] := by
  obtain ⟨expr, aliasName⟩ := t
  cases expr <;> first | rfl | exact nomatch h

/-- If all of the terms are constants, so are the first one and the others. -/
theorem constants?_cons {t : Term} {rest : List Term} {values : List Value}
    (h : constants? (t :: rest) = some values) :
    ∃ (v : Value) (vs : List Value), t.constant? = some v ∧ constants? rest = some vs := by
  have h : (t.constant?.bind fun v => (constants? rest).bind fun vs => some (v :: vs)) =
      some values := by
    simpa [constants?, List.mapM_cons] using h
  obtain ⟨v, hv, hrest⟩ := Option.bind_eq_some_iff.mp h
  obtain ⟨vs, hvs, -⟩ := Option.bind_eq_some_iff.mp hrest
  exact ⟨v, vs, hv, hvs⟩

/-- Constants have no leaves. -/
theorem termLeaves_of_constants {items : List Term} {values : List Value}
    (h : constants? items = some values) (nested : Bool) : termLeaves nested items = [] := by
  induction items generalizing values with
  | nil => rfl
  | cons t rest ih =>
    obtain ⟨v, vs, hv, hvs⟩ := constants?_cons h
    have hleaf : t.leaves nested = [] := by
      obtain ⟨expr, aliasName⟩ := t
      cases expr <;> first | rfl | exact nomatch hv
    show t.leaves nested ++ termLeaves nested rest = []
    rw [hleaf, ih hvs]
    rfl

/-! ## Drafts around drafts -/

namespace Draft

variable {ι κ : Type}

/-- The draft has parts, one behind the other, that stand in the relation to the items of the list;
    what stands between the parts may be anything. Of a draft that stops nothing is said. -/
inductive Around (rel : ι → Draft → Prop) : Draft → List ι → Prop
  | gap (d : Draft) : Around rel d []
  | leaf {x : ι} {d : Draft} : rel x d → Around rel d [x]
  | append {a b : Draft} {xs ys : List ι} :
      Around rel a xs → Around rel b ys → Around rel (a ++ b) (xs ++ ys)
  | stopped {d : Draft} {xs : List ι} : d.stop ≠ none → Around rel d xs

/-- Drafts, one after another, around the items of a list. -/
inductive AroundAll (rel : ι → Draft → Prop) : List Draft → List ι → Prop
  | nil : AroundAll rel [] []
  | cons {d : Draft} {ds : List Draft} {xs ys : List ι} :
      Around rel d xs → AroundAll rel ds ys → AroundAll rel (d :: ds) (xs ++ ys)

/-! ## Composition -/

namespace Around

variable {rel : ι → Draft → Prop} {a b d : Draft} {xs ys : List ι}

/-- Anything may follow. -/
theorem before (ha : Around rel a xs) (b : Draft) : Around rel (a ++ b) xs :=
  List.append_nil xs ▸ ha.append (.gap b)

/-- Anything may come first. -/
theorem behind (a : Draft) (hb : Around rel b xs) : Around rel (a ++ b) xs := (gap a).append hb

/-- Where writing fails, no leaf need have been written. -/
theorem fail (e : BuildError) : Around rel (fail e) xs := stopped nofun

/-- Parentheses are no leaves. -/
theorem parens (hd : Around rel d xs) : Around rel (parens d) xs := (hd.behind _).before _

theorem brackets (hd : Around rel d xs) : Around rel (brackets d) xs := (hd.behind _).before _

theorem parensIf (condition : Bool) (hd : Around rel d xs) :
    Around rel (parensIf condition d) xs := by
  cases condition with
  | false => exact hd
  | true => exact hd.parens

/-- The words of a clause are no leaves. -/
theorem clause (ks : List Keyword) (hd : Around rel d xs) : Around rel (clause ks d) xs :=
  hd.behind _

/-- A draft under a condition, where there is nothing to be written around unless it holds. -/
theorem whenever {condition : Bool} (hd : Around rel d xs) (hnone : condition = false → xs = []) :
    Around rel (when condition d) xs := by
  cases condition with
  | false => rw [hnone rfl]; exact gap _
  | true => exact hd

/-- A shorter draft or else the full one. -/
theorem getD {short : Option Draft} {short' : Option (List ι)}
    (hs : Option.Rel (Around rel) short short') (hd : Around rel d xs) :
    Around rel (short.getD d) (short'.getD xs) := by
  cases hs with
  | none => exact hd
  | some hshort => exact hshort

/-- Items may be left out, and others taken in their place. -/
theorem filterMap {rel' : κ → Draft → Prop} {f : ι → Option κ}
    (h : ∀ x d y, rel x d → f x = some y → rel' y d) (hd : Around rel d xs) :
    Around rel' d (xs.filterMap f) := by
  induction hd with
  | gap d => exact gap d
  | @leaf x d hx =>
    cases hf : f x with
    | none =>
      rw [List.filterMap_cons_none hf]
      exact gap d
    | some y =>
      rw [List.filterMap_cons_some hf]
      exact leaf (h x d y hx hf)
  | append _ _ iha ihb =>
    rw [List.filterMap_append]
    exact iha.append ihb
  | stopped hstop => exact stopped hstop

/-- Items may be left out by a test. -/
theorem filter (test : ι → Bool) (hd : Around rel d xs) :
    Around (fun x d => test x = true ∧ rel x d) d (xs.filter test) := by
  rw [← List.filterMap_eq_filter]
  refine hd.filterMap ?_
  intro x d y hx hy
  obtain ⟨rfl, htest⟩ := Option.guard_eq_some_iff.mp hy
  exact ⟨htest, hx⟩

/-- What is written of the leaves may be said more weakly. -/
theorem mono {rel' : ι → Draft → Prop} (h : ∀ x d, rel x d → rel' x d) (hd : Around rel d xs) :
    Around rel' d xs := by
  induction hd with
  | gap d => exact gap d
  | leaf hx => exact leaf (h _ _ hx)
  | append _ _ iha ihb => exact iha.append ihb
  | stopped hstop => exact stopped hstop

/-- An array has the leaves of its items. -/
theorem array (dialect : Dialect) {ds : List Draft} (h : Around rel (commas ds) xs)
    (hnone : ds.isEmpty = true → xs = []) : Around rel (dialect.array ds) xs := by
  cases dialect with
  | postgres =>
    show Around rel (if ds.isEmpty then _ else _) xs
    split
    · next hds => rw [hnone hds]; exact gap _
    · exact h.brackets.behind _
  | _ => exact h.brackets

/-- A path into a document has the leaves of the document. -/
theorem jsonPath (dialect : Dialect) (hd : Around rel d xs) (path : List PathStep) :
    Around rel (dialect.jsonPath d path) xs := by
  cases dialect with
  | mssql => exact (((hd.before _).before _).before _).parens.behind _
  | _ => exact hd.before _

/-- The tokens are those of a draft that stands in the relation. -/
def Gives (rel : ι → Draft → Prop) (x : ι) (ts : List Token) : Prop :=
  ∃ (part : Draft) (p p' : Parameters), rel x part ∧ part.finish p = (.ok ts, p')

/-- The tokens of a draft are a text with gaps, and the gaps are filled by the tokens of the parts
    that it is written around. -/
theorem finish (hd : Around rel d xs) {p p' : Parameters} {ts : List Token}
    (h : d.finish p = (.ok ts, p')) :
    ∃ segments fillings : List (List Token), segments.length = xs.length + 1 ∧
      List.Forall₂ (Gives rel) xs fillings ∧ ts = weave segments fillings := by
  induction hd generalizing p p' ts with
  | gap d => exact ⟨[ts], [], rfl, .nil, rfl⟩
  | @leaf x d hx =>
    refine ⟨[[], []], [ts], rfl, .cons ⟨d, p, p', hx, h⟩ .nil, ?_⟩
    exact (List.append_nil ts).symm
  | append _ _ iha ihb =>
    obtain ⟨us, vs, p₁, ha, hb, rfl⟩ := finish_append_ok h
    obtain ⟨segments, fillings, hlength, hgives, rfl⟩ := iha ha
    obtain ⟨segments', fillings', hlength', hgives', rfl⟩ := ihb hb
    rw [hgives.length_eq] at hlength
    rw [hgives'.length_eq] at hlength'
    obtain ⟨joined, hjoined, hweave, -⟩ := weave_append hlength hlength'
    refine ⟨joined, fillings ++ fillings', ?_, List.rel_append hgives hgives', hweave⟩
    rw [hjoined, List.length_append, List.length_append, hgives.length_eq, hgives'.length_eq]
  | stopped hstop => exact absurd (complete_of_finish h) hstop

end Around

namespace AroundAll

variable {rel : ι → Draft → Prop} {d separator : Draft} {ds es : List Draft} {xs ys : List ι}

/-- Drafts one after the other have their leaves in order. -/
theorem join (h : AroundAll rel ds xs) : Around rel (join separator ds) xs := by
  induction h with
  | nil => exact .gap _
  | cons hd hrest ih =>
    cases hrest with
    | nil => rw [List.append_nil]; exact hd
    | cons _ _ => exact (hd.before separator).append ih

theorem commas (h : AroundAll rel ds xs) : Around rel (commas ds) xs := h.join

/-- The drafts of two lists, one behind the other. -/
theorem append (h : AroundAll rel ds xs) (h' : AroundAll rel es ys) :
    AroundAll rel (ds ++ es) (xs ++ ys) := by
  induction h with
  | nil => exact h'
  | cons hd _ ih => rw [List.append_assoc]; exact .cons hd ih

/-- The same of all drafts of a list. -/
theorem mono {rel' : ι → Draft → Prop} (h : ∀ x d, rel x d → rel' x d)
    (hds : AroundAll rel ds xs) : AroundAll rel' ds xs := by
  induction hds with
  | nil => exact .nil
  | cons hd _ ih => exact .cons (hd.mono h) ih

/-- No drafts are written around nothing. -/
theorem eq_nil (h : AroundAll rel ds xs) (hds : ds.isEmpty = true) : xs = [] := by
  cases h with
  | nil => rfl
  | cons _ _ => exact nomatch hds

/-- A draft that is there only if others are has their leaves. -/
theorem ifAny (h : AroundAll rel ds xs) (hd : Around rel d xs) :
    Around rel (if ds.isEmpty then empty else d) xs := by
  split
  · next hnone => rw [h.eq_nil hnone]; exact .gap _
  · exact hd

theorem whenAny (h : AroundAll rel ds xs) (hd : Around rel d xs) :
    Around rel (when (!ds.isEmpty) d) xs := by
  refine hd.whenever ?_
  intro hnone
  exact h.eq_nil (by simpa using hnone)

/-- A clause that is there only if it has parts has their leaves. -/
theorem unlessNone (ks : List Keyword) (h : AroundAll rel ds xs) :
    Around rel (Clause.unlessNone ks ds) xs := h.ifAny (h.commas.clause ks)

end AroundAll

end Draft

/-- A window has the leaves it is split by, and then those it is ordered by. -/
theorem Clause.window_around {ι : Type} {rel : ι → Draft → Prop} {partition orderings : List Draft}
    {xs ys : List ι} (hpartition : AroundAll rel partition xs)
    (horderings : AroundAll rel orderings ys) (frame : Option Frame) :
    Around rel (window partition orderings frame) (xs ++ ys) := by
  have hpart : ∀ (k : Keyword) {ds : List Draft} {zs : List ι}, AroundAll rel ds zs →
      AroundAll rel (if ds.isEmpty then [] else [word k ++ space ++ commas ds]) zs := by
    intro k ds zs h
    split
    · next hnone => rw [h.eq_nil hnone]; exact .nil
    · exact List.append_nil zs ▸ .cons (h.commas.behind _) .nil
  have hparts := (hpart .partitionBy hpartition).append (hpart .orderBy horderings)
  rw [← List.append_nil (xs ++ ys)]
  refine (hparts.append ?_).join.parens.behind _
  cases frame with
  | none => exact .nil
  | some f => exact .cons (.gap _) .nil

/-! ## How leaves are written -/

/-- The context is that of a part: it differs from the other one at most in whether the part is
    nested, declares its alias and is an operand to be bracketed. -/
def Context.Within (ctx base : Context) : Prop :=
  { ctx with nested := false, declares := false, bracketed := false } =
    { base with nested := false, declares := false, bracketed := false }

/-- A context is within itself. -/
theorem Context.Within.refl (ctx : Context) : ctx.Within ctx := rfl

/-- Parts agree in how columns are qualified. -/
theorem Context.Within.qualifier {ctx base : Context} (h : ctx.Within base)
    (source : Option Source) : Source.qualifier ctx source = Source.qualifier base source := by
  -- a qualifier does not look at what parts differ in
  have hplain : ∀ c : Context, Source.qualifier c source = Source.qualifier
      { c with nested := false, declares := false, bracketed := false } source := by
    intro c
    cases source with
    | none => rfl
    | some s => cases s <;> rfl
  rw [hplain ctx, h, ← hplain base]

/-- How a leaf is written in a part. -/
def Leaf.Written (base : Context) : Leaf → Draft → Prop
  | column name source, d => d = Source.qualifier base source ++ token (.ident name)
  | star source, d => d = Source.qualifier base source ++ token .star
  | statement nested q, d =>
    ∃ ctx : Context, ctx.Within base ∧ ctx.nested = nested ∧ d = q.draft ctx
  | setOperation nested s, d =>
    ∃ ctx : Context, ctx.Within base ∧ ctx.nested = nested ∧ d = s.draft ctx

/-- What may be written in place of terms that go by a name is written around what is said. -/
def ShortAround (base : Context) (short : String → Option Draft)
    (short' : String → Option (List Leaf)) : Prop :=
  ∀ name, Option.Rel (Around (Leaf.Written base)) (short name) (short' name)

namespace ShortAround

variable {base : Context} {short : String → Option Draft} {short' : String → Option (List Leaf)}

/-- No shorter drafts at all. -/
theorem none : ShortAround base (fun _ => .none) (fun _ => .none) := fun _ => .none

/-- A term that may have a shorter draft or not. -/
theorem getD (hs : ShortAround base short short') {d : Draft} {xs : List Leaf}
    (hd : Around (Leaf.Written base) d xs) (name? : Option String) :
    Around (Leaf.Written base) ((name?.bind short).getD d) ((name?.bind short').getD xs) := by
  refine Around.getD ?_ hd
  cases name? with
  | none => exact .none
  | some name => exact hs name

end ShortAround

/-! ## Terms are written around their leaves

One theorem for each function that drafts a part of a term, by recursion over the part. -/

mutual

/-- A term is written around its leaves. -/
theorem Term.draft_around {base ctx : Context} (hc : ctx.Within base) :
    (t : Term) → Around (Leaf.Written base) (t.draft ctx) (t.leaves ctx.nested)
  | ⟨expr, aliasName⟩ => Expr.draft_around hc aliasName expr

/-- So is an expression, under any alias. -/
theorem Expr.draft_around {base ctx : Context} (hc : ctx.Within base) (aliasName : Option String) :
    (e : Expr) → Around (Leaf.Written base) (e.draft ctx aliasName) (e.leaves ctx.nested)
  | .literal sql => .gap _
  | .value v mayBind => .gap _
  | .field name source => by
    have hcolumn : Leaf.Written base (.column name source)
        (Source.qualifier ctx source ++ token (.ident name)) :=
      congrArg (· ++ token (.ident name)) (hc.qualifier source)
    exact (Around.leaf hcolumn).before _
  | .star source => by
    have hstar : Leaf.Written base (.star source) (Source.qualifier ctx source ++ token .star) :=
      congrArg (· ++ token .star) (hc.qualifier source)
    exact .leaf hstar
  | .tuple items => (termDrafts_around hc items).commas.parens.before _
  | .array items => by
    have hitems := termDrafts_around hc items
    have hlist := Around.array ctx.dialect hitems.commas hitems.eq_nil
    show Around _ (match if ctx.binding then constants? items else none with
      | some values => hole (.list values) ctx.dialect
      | none => ctx.dialect.array (termDrafts ctx items) ++ ctx.aliasDraft aliasName) _
    split
    · next values hvalues =>
      -- constants that are bound as a list are no leaves
      have hconstants : constants? items = some values := by
        split at hvalues
        · exact hvalues
        · exact nomatch hvalues
      show Around _ _ (termLeaves ctx.nested items)
      rw [termLeaves_of_constants hconstants]
      exact .gap _
    · exact hlist.before _
  | .call c => (Call.draft_around hc c).before _
  | .case branches otherwise => by
    have hinner : Context.Within { ctx with declares := false } base := hc
    have hbranches := branchesDraft_around hinner branches
    have helse := elseDraft_around hinner otherwise
    show Around _ (if _ then _ else _) _
    split
    · exact .fail _
    · exact ((((hbranches.behind _).append helse).before _).before _).before _
  | .interval i => .gap _
  | .document d => .gap _
  | .arithmetic op left right => by
    have hleft := (Term.draft_around hc left).parensIf (op.bracketsLeft left.arithmeticOp?)
    have hright := (Term.draft_around hc right).parensIf (op.bracketsRight right.arithmeticOp?)
    exact ((hleft.before _).append hright).before _
  | .negative operand => (Term.draft_around hc operand).behind _
  | .parameter p => .gap _
  | .comparison op left right =>
    (((Term.draft_around hc left).before _).append (Term.draft_around hc right)).before _
  | .combination op left right => by
    have hleft : Context.Within { ctx with bracketed := left.differsFrom op } base := hc
    have hright : Context.Within { ctx with bracketed := right.differsFrom op } base := hc
    have hfirst := (((Term.draft_around hleft left).before space).before (word op.keyword)).before
      space
    exact (hfirst.append (Term.draft_around hright right)).parensIf ctx.bracketed
  | .chain first second left middle right => by
    have hleft := (Term.draft_around hc left).before (token (.operator first.text))
    have hmiddle := (hleft.append (Term.draft_around hc middle)).before
      (token (.operator second.text))
    exact (hmiddle.append (Term.draft_around hc right)).before _
  | .membership operand container negated => by
    have hnested : Context.Within { ctx with nested := true } base := hc
    have hoperand := ((((Term.draft_around hc operand).before space).before
      (when negated (word .not ++ space))).before (word .in_)).before space
    exact (hoperand.append (Term.draft_around hnested container)).before _
  | .between operand lower upper => by
    have hlower := (Term.draft_around hc lower).clause [.between]
    have hupper := (Term.draft_around hc upper).clause [.and]
    exact (((Term.draft_around hc operand).append hlower).append hupper).before _
  | .period operand start stop => by
    have hstart := (Term.draft_around hc start).clause [.from_]
    have hto := ((((Term.draft_around hc operand).append hstart).before space).before
      (raw "TO")).before space
    exact (hto.append (Term.draft_around hc stop)).before _
  | .bitAnd operand mask =>
    (((Term.draft_around hc operand).before _).before _).parens.before _
  | .isNull operand => (((Term.draft_around hc operand).before _).before _).before _
  | .not operand => by
    have hbracketed : Context.Within { ctx with bracketed := true } base := hc
    exact ((Term.draft_around hbracketed operand).behind _).before _
  | .all operand => (((Term.draft_around hc operand).before _).before _).before _
  | .jsonPath column path =>
    (Around.jsonPath ctx.dialect (Term.draft_around hc column) path).before _
  | .subquery q => .leaf ⟨ctx, hc, rfl, rfl⟩
  | .setOperation s => .leaf ⟨ctx, hc, rfl, rfl⟩
  | .insertedValue field => (Term.draft_around hc field).parens.behind _
  | .index name => .gap _
  | .pseudoColumn name => .gap _
  | .atTimeZone operand zone isInterval =>
    ((((((Term.draft_around hc operand).before _).before _).before _).before _).before _).before _
  | .empty => .gap _

/-- Terms are, one by one. -/
theorem termDrafts_around {base ctx : Context} (hc : ctx.Within base) :
    (ts : List Term) → AroundAll (Leaf.Written base) (termDrafts ctx ts) (termLeaves ctx.nested ts)
  | [] => .nil
  | t :: rest => .cons (Term.draft_around hc t) (termDrafts_around hc rest)

/-- The branches of a CASE are, condition before result. -/
theorem branchesDraft_around {base ctx : Context} (hc : ctx.Within base) :
    (bs : List Branch) →
      Around (Leaf.Written base) (branchesDraft ctx bs) (branchLeaves ctx.nested bs)
  | [] => .gap _
  | ⟨condition, result⟩ :: rest => by
    have hwhen := (Term.draft_around hc condition).clause [.when]
    have hthen := (Term.draft_around hc result).clause [.then_]
    exact (hwhen.append hthen).append (branchesDraft_around hc rest)

theorem elseDraft_around {base ctx : Context} (hc : ctx.Within base) :
    (t : Option Term) → Around (Leaf.Written base) (elseDraft ctx t) (optionLeaves ctx.nested t)
  | none => .gap _
  | some t => (Term.draft_around hc t).clause _

/-- A call is, its arguments before what stands behind it. -/
theorem Call.draft_around {base ctx : Context} (hc : ctx.Within base) :
    (c : Call) → Around (Leaf.Written base) (c.draft ctx) (c.leaves ctx.nested)
  | ⟨name, arguments, schema, suffix, bare, aggregate, distinct, filter, window, frame⟩ => by
    have hinner : Context.Within { ctx with declares := false } base := hc
    have harguments := (termDrafts_around hinner arguments).commas
    have hsuffix := suffixDraft_around hc suffix
    have hfilter := filterDraft_around hc filter
    have hwindow := windowDraft_around hc frame window
    have hinside := ((harguments.behind (when distinct (word .distinct ++ space))).append
      hsuffix).parens
    show Around _ (if _ then _ else _) (if _ then _ else _)
    split
    · exact .gap _
    · exact ((hinside.behind _).append hfilter).append hwindow

theorem suffixDraft_around {base ctx : Context} (hc : ctx.Within base) :
    (s : Option CallSuffix) →
      Around (Leaf.Written base) (suffixDraft ctx s) (suffixLeaves ctx.nested s)
  | none => .gap _
  | some (.words _) => .gap _
  | some .ignoreNulls => .gap _
  | some (.source t) => (Term.draft_around hc t).clause _

theorem filterDraft_around {base ctx : Context} (hc : ctx.Within base) :
    (t : Option Term) → Around (Leaf.Written base) (filterDraft ctx t) (optionLeaves ctx.nested t)
  | none => .gap _
  | some t => ((Term.draft_around hc t).behind _).parens.behind _

/-- A window is, whatever its frame. -/
theorem windowDraft_around {base ctx : Context} (hc : ctx.Within base) (frame : Option Frame) :
    (w : Option Window) →
      Around (Leaf.Written base) (windowDraft ctx frame w) (windowLeaves ctx.nested w)
  | none => .gap _
  | some ⟨partition, orderings⟩ =>
    Clause.window_around (termDrafts_around hc partition)
      (orderingDrafts_around hc ShortAround.none orderings) frame

/-- Orders are, if what they may be short for is. -/
theorem orderingDrafts_around {base ctx : Context} (hc : ctx.Within base)
    {short : String → Option Draft} {short' : String → Option (List Leaf)}
    (hs : ShortAround base short short') :
    (os : List Ordering) → AroundAll (Leaf.Written base) (orderingDrafts ctx short os)
      (orderingLeaves ctx.nested short' os)
  | [] => .nil
  | ⟨term, _⟩ :: rest =>
    .cons ((hs.getD (Term.draft_around hc term) term.knownAs).before _)
      (orderingDrafts_around hc hs rest)

end

/-- A term that is known to be drafted as a nested part, or not to be. -/
theorem Term.draft_around_of_nested {base ctx : Context} (hc : ctx.Within base) {nested : Bool}
    (hnested : ctx.nested = nested) (t : Term) :
    Around (Leaf.Written base) (t.draft ctx) (t.leaves nested) := by
  rw [← hnested]
  exact Term.draft_around hc t

end SqlCompose
