import SqlCompose.Proofs.Bindings
import SqlCompose.Proofs.Congruence
import SqlCompose.Proofs.Numbering

/-! # Capturing — a draft binds what its tree binds

    `Draft.Binds` says what the holes of a draft hold, from left to right, if it is written to its
    end, and that a draft that stops has bound some of that. Composition joins the lists; brackets,
    keywords and names add nothing. So each clause binds what its parts bind, and by recursion every
    tree binds its `bindings`.

    What a draft that stops has bound is the first of what it would have, except for operands that
    do not fit together: they are written out once more to be shown. `Draft.Binds` is given a
    condition that rules this out; with `False` for it, the order of what a draft that stops has
    bound is open.

    * `Draft.Binds`, `Draft.BindsAll` — one draft, a list of drafts.
    * `Parts.Bind` — what each part of a statement binds.
    * `Clause.statement_binds` — a statement binds the constants of its parts, in the order of its
      clauses. -/

namespace SqlCompose

namespace Draft

/-- The values of the draft's holes, from left to right, if it is written to its end. If it is not,
    it has bound some of them, and where operands fit together, the first of them. -/
structure Binds (fits : Prop) (d : Draft) (vs : List Value) : Prop where
  whole : d.stop = none → Piece.values d.pieces = vs
  among : d.bound ⊆ vs
  first : fits → d.bound <+: vs

/-- The values of the holes of drafts, one draft after another. -/
inductive BindsAll (fits : Prop) : List Draft → List Value → Prop
  | nil : BindsAll fits [] []
  | cons {d : Draft} {ds : List Draft} {vs ws : List Value} :
      d.Binds fits vs → BindsAll fits ds ws → BindsAll fits (d :: ds) (vs ++ ws)

variable {fits : Prop}

/-! ## What drafts bind that stop -/

/-- Behind a draft that is written to its end, what the next one captures follows. -/
theorem bound_append_of_complete {a : Draft} (h : a.stop = none) (b : Draft) :
    (a ++ b).bound = Piece.values a.pieces ++ b.bound := by
  rw [append_of_complete h, bound, bound, Piece.values_append, List.append_assoc]

/-- One draft after another binds no more than both. -/
theorem bound_append_subset (a b : Draft) : (a ++ b).bound ⊆ a.bound ++ b.bound := by
  obtain ⟨as, _ | stop⟩ := a
  · rw [bound_append_of_complete rfl]
    exact List.append_subset.mpr
      ⟨List.subset_append_of_subset_left _ (List.subset_append_left _ _),
        List.subset_append_right _ _⟩
  · exact List.subset_append_left _ _

/-- Two operands that are shown bind no more than both. -/
theorem bound_unequal_subset (ctx : Context) (main other : Draft) :
    (unequal ctx main other).bound ⊆ main.bound ++ other.bound := by
  obtain ⟨ms, _ | stop⟩ := main
  · obtain ⟨os, _ | stop⟩ := other
    · simp [unequal, bound]
    · exact bound_append_subset _ _
  · exact bound_append_subset _ _

/-- Operands that do not fit together are never written to the end. -/
theorem unequal_stop (ctx : Context) (main other : Draft) :
    (unequal ctx main other).stop ≠ none := by
  obtain ⟨ms, _ | stop⟩ := main
  · obtain ⟨os, _ | stop⟩ := other <;> exact nofun
  · exact nofun

/-! ## Composition -/

namespace Binds

variable {a b d : Draft} {vs ws : List Value}

/-- What two drafts capture, one behind the other. -/
theorem append (ha : a.Binds fits vs) (hb : b.Binds fits ws) : (a ++ b).Binds fits (vs ++ ws) := by
  have hamong : (a ++ b).bound ⊆ vs ++ ws :=
    List.Subset.trans (bound_append_subset a b)
      (List.append_subset.mpr ⟨List.subset_append_of_subset_left ws ha.among,
        List.subset_append_of_subset_right vs hb.among⟩)
  obtain ⟨as, _ | stop⟩ := a
  · have has : Piece.values as = vs := ha.whole rfl
    refine ⟨fun hstop => ?_, hamong, fun hfits => ?_⟩
    · show Piece.values (as ++ b.pieces) = vs ++ ws
      rw [Piece.values_append, has, hb.whole hstop]
    · rw [bound_append_of_complete rfl, has]
      exact (List.prefix_append_right_inj vs).mpr (hb.first hfits)
  · exact ⟨nofun, hamong, fun hfits => (ha.first hfits).trans (List.prefix_append vs ws)⟩

/-- A draft that binds nothing, written to its end or not. -/
theorem of_bound_eq_nil (hwhole : d.stop = none → Piece.values d.pieces = vs)
    (hbound : d.bound = []) : d.Binds fits vs := by
  refine ⟨hwhole, ?_, fun _ => ?_⟩
  · rw [hbound]
    exact List.nil_subset vs
  · rw [hbound]
    exact List.nil_prefix

/-- A draft that stops at once binds nothing. -/
theorem fail (e : BuildError) : (fail e).Binds fits vs := of_bound_eq_nil nofun rfl

theorem empty : Draft.empty.Binds fits [] := of_bound_eq_nil (fun _ => rfl) rfl

theorem token (t : Token) : (token t).Binds fits [] := of_bound_eq_nil (fun _ => rfl) rfl

/-- A gap captures its value. -/
theorem hole (v : Value) (dialect : Dialect) : (hole v dialect).Binds fits [v] :=
  ⟨fun _ => rfl, List.Subset.refl [v], fun _ => List.prefix_rfl⟩

/-- What binds nothing may follow. -/
theorem append_quiet (ha : a.Binds fits vs) (hb : b.Binds fits []) : (a ++ b).Binds fits vs :=
  List.append_nil vs ▸ ha.append hb

/-- What binds nothing may come first. -/
theorem quiet_append (ha : a.Binds fits []) (hb : b.Binds fits vs) : (a ++ b).Binds fits vs :=
  ha.append hb

/-- A token may follow. -/
theorem before (hd : d.Binds fits vs) (t : Token) : (d ++ Draft.token t).Binds fits vs :=
  hd.append_quiet (token t)

/-- A token may come first. -/
theorem behind (t : Token) (hd : d.Binds fits vs) : (Draft.token t ++ d).Binds fits vs :=
  (token t).quiet_append hd

/-- A keyword may follow, with a blank before it. -/
theorem beforeWord (hd : d.Binds fits vs) (k : Keyword) : (d ++ space ++ word k).Binds fits vs :=
  (hd.before .space).before (.keyword k)

/-- Parentheses capture nothing. -/
theorem parens (hd : d.Binds fits vs) : (parens d).Binds fits vs :=
  (behind .lparen hd).before .rparen

theorem brackets (hd : d.Binds fits vs) : (brackets d).Binds fits vs :=
  (behind .lbracket hd).before .rbracket

/-- Binding nothing is a matter of composition. -/
theorem quiet : Congruence fun d _ => d.Binds fits [] where
  empty := empty
  token := fun t _ => token t
  fail := fun e => fail e
  append := fun ha hb => ha.quiet_append hb
  parens := parens
  brackets := brackets

theorem parensIf (c : Bool) (hd : d.Binds fits vs) : (parensIf c d).Binds fits vs := by
  cases c with
  | false => exact hd
  | true => exact hd.parens

/-- An alias may follow. -/
theorem aliased (hd : d.Binds fits vs) (ctx : Context) (aliasName : Option String) :
    (d ++ ctx.aliasDraft aliasName).Binds fits vs :=
  hd.append_quiet (quiet.aliasDraft rfl aliasName)

/-- An alias may be declared behind. -/
theorem declared (hd : d.Binds fits vs) (ctx : Context) (aliasName : Option String) :
    (d ++ ctx.declaration aliasName).Binds fits vs :=
  hd.append_quiet (quiet.declaration rfl rfl aliasName)

/-- The words of a clause capture nothing. -/
theorem clause (ks : List Keyword) (hd : d.Binds fits vs) : (clause ks d).Binds fits vs :=
  ((quiet.space.append_quiet (quiet.words ks)).append_quiet quiet.space).quiet_append hd

/-- A draft under a condition, where nothing is to be bound unless it holds. -/
theorem whenever {c : Bool} (hd : d.Binds fits vs) (hnone : c = false → vs = []) :
    (when c d).Binds fits vs := by
  cases c with
  | false => rw [hnone rfl]; exact empty
  | true => exact hd

/-- What binds nothing binds nothing under a condition. -/
theorem when_quiet (c : Bool) (hd : d.Binds fits []) : (when c d).Binds fits [] :=
  hd.whenever fun _ => rfl

/-- Operands that do not fit together are never written to the end, whatever is bound behind them;
    the first of them is bound once more. -/
theorem unequal (hfits : ¬fits) (ctx : Context) {front main other : Draft}
    (hfront : front.Binds fits vs) (hmain : main.bound ⊆ vs) (hother : other.Binds fits ws)
    (us : List Value) : (front ++ Draft.unequal ctx main other).Binds fits (vs ++ ws ++ us) := by
  refine ⟨fun hstop => absurd (stop_append hstop).2 (unequal_stop ctx main other), ?_,
    fun h => absurd h hfits⟩
  have hleft : vs ⊆ vs ++ ws := List.subset_append_left vs ws
  have hright : ws ⊆ vs ++ ws := List.subset_append_right vs ws
  have hshown : (Draft.unequal ctx main other).bound ⊆ vs ++ ws :=
    List.Subset.trans (bound_unequal_subset ctx main other)
      (List.append_subset.mpr
        ⟨List.Subset.trans hmain hleft, List.Subset.trans hother.among hright⟩)
  have hall : (front ++ Draft.unequal ctx main other).bound ⊆ vs ++ ws :=
    List.Subset.trans (bound_append_subset front _)
      (List.append_subset.mpr ⟨List.Subset.trans hfront.among hleft, hshown⟩)
  exact List.subset_append_of_subset_left us hall

/-- A shorter draft or else the full one. -/
theorem getD {short : Option Draft} {short' : Option (List Value)}
    (hs : Option.Rel (Binds fits) short short') (hd : d.Binds fits vs) :
    (short.getD d).Binds fits (short'.getD vs) := by
  cases hs with
  | none => exact hd
  | some hshort => exact hshort

end Binds

namespace BindsAll

variable {d : Draft} {ds es : List Draft} {vs ws : List Value}

/-- Separators that capture nothing leave what the drafts between them capture. -/
theorem join {separator : Draft} (hs : separator.Binds fits []) (h : BindsAll fits ds vs) :
    (join separator ds).Binds fits vs := by
  induction h with
  | nil => exact .empty
  | cons hd hrest ih =>
    cases hrest with
    | nil => rw [List.append_nil]; exact hd
    | cons _ _ => exact (hd.append_quiet hs).append ih

theorem commas (h : BindsAll fits ds vs) : (commas ds).Binds fits vs := h.join (.token .comma)

/-- The drafts of two lists, one behind the other. -/
theorem append (h : BindsAll fits ds vs) (h' : BindsAll fits es ws) :
    BindsAll fits (ds ++ es) (vs ++ ws) := by
  induction h with
  | nil => exact h'
  | cons hd _ ih => rw [List.append_assoc]; exact .cons hd ih

/-- No drafts bind nothing. -/
theorem eq_nil (h : BindsAll fits ds vs) (hds : ds.isEmpty = true) : vs = [] := by
  cases h with
  | nil => rfl
  | cons _ _ => exact nomatch hds

/-- What is written of drafts where there are any. -/
theorem whenAny (h : BindsAll fits ds vs) (hd : d.Binds fits vs) :
    (when (!ds.isEmpty) d).Binds fits vs := by
  refine hd.whenever ?_
  intro hnone
  exact h.eq_nil (by simpa using hnone)

/-- A draft that is there only if others are captures what they do. -/
theorem ifAny (h : BindsAll fits ds vs) (hd : d.Binds fits vs) :
    (if ds.isEmpty then empty else d).Binds fits vs := by
  split
  · next hnone => rw [h.eq_nil hnone]; exact .empty
  · exact hd

/-- A clause that is there only if it has parts captures what they do. -/
theorem unlessNone (ks : List Keyword) (h : BindsAll fits ds vs) :
    (Clause.unlessNone ks ds).Binds fits vs := h.ifAny (h.commas.clause ks)

end BindsAll

end Draft

open Draft

/-! ## Constants, arrays and pages -/

/-- Constants are bound here, and aliases may be named as `n` says. -/
def Context.Captures (ctx : Context) (n : Naming) : Prop :=
  ctx.binding = true ∧ ctx.naming = n

variable {fits : Prop}

namespace Draft.Binds

variable {ctx : Context} {d : Draft} {ds : List Draft} {vs : List Value}

/-- A literal captures nothing. -/
theorem literal (v : Value) : v.literal.Binds fits [] := by
  cases v with
  | float x =>
    show (if x.isFinite then Draft.token (.float x) else Draft.fail (.notFinite x)).Binds fits []
    split
    · exact token _
    · exact fail _
  | _ => exact token _

/-- Where values are bound, a constant that may be bound is captured, and otherwise it is a
    literal. -/
theorem value (hb : ctx.binding = true) (v : Value) (mayBind : Bool) :
    (v.draft ctx mayBind).Binds fits (if mayBind && v.isBindable then [v] else []) := by
  simp only [Value.draft]
  rw [hb, Bool.true_and]
  split
  · exact hole v ctx.dialect
  · exact literal v

/-- An array captures what its items do. -/
theorem array (dialect : Dialect) (h : BindsAll fits ds vs) : (dialect.array ds).Binds fits vs := by
  have hplain := h.commas.brackets
  cases dialect with
  | postgres =>
    cases h with
    | nil => exact token _
    | cons _ _ => exact (token (.keyword .array)).quiet_append hplain
  | _ => exact hplain

/-- A list of nothing but constants is bound as a whole. -/
theorem listOr (hb : ctx.binding = true) (values? : Option (List Value)) (hd : d.Binds fits vs) :
    (match if ctx.binding then values? else none with
      | some values => Draft.hole (.list values) ctx.dialect
      | none => d).Binds fits
    (match values? with
      | some values => [.list values]
      | none => vs) := by
  rw [hb]
  cases values? with
  | none => exact hd
  | some values => exact hole _ _

/-- A path into a document captures what the document does. -/
theorem jsonPath (dialect : Dialect) (h : d.Binds fits vs) (path : List PathStep) :
    (dialect.jsonPath d path).Binds fits vs := by
  have harrows : (tokens (PathStep.arrows path)).Binds fits [] := by
    fun_induction PathStep.arrows path with
    | case1 => exact empty
    | case2 step => exact token _
    | case3 step rest _ ih => exact (token (.raw ("->" ++ step.arrowText))).quiet_append ih
  cases dialect with
  | mysql => exact h.append_quiet (token _)
  | sqlite => exact h.append_quiet (token _)
  | mssql =>
    exact (token (.function "JSON_VALUE")).quiet_append
      (((h.append_quiet (token .comma)).append_quiet (token .space)).append_quiet (token _)).parens
  | _ => exact h.append_quiet harrows

/-- A limit or an offset with its words around it. -/
theorem counted (hb : ctx.binding = true) {f : Draft → Draft}
    (hf : ∀ {d : Draft} {vs : List Value}, d.Binds fits vs → (f d).Binds fits vs)
    (count : Option Int64) :
    (match count.map fun n => Value.draft ctx (.int n) true with
      | some d => f d
      | none => Draft.empty).Binds fits (countBindings count) := by
  cases count with
  | none => exact empty
  | some n => exact hf (value hb (.int n) true)

/-- Rows that are skipped capture their number. -/
theorem offsetRows (h : d.Binds fits vs) : (Dialect.offsetRows d).Binds fits vs :=
  ((h.clause [.offset]).append_quiet quiet.space).append_quiet (token _)

/-- Rows that are taken capture their number. -/
theorem fetchRows (h : d.Binds fits vs) : (Dialect.fetchRows d).Binds fits vs :=
  ((h.clause [.fetch, .next]).append_quiet quiet.space).append_quiet (quiet.words _)

/-- A page binds its two counts in the order of the dialect. -/
theorem page (hb : ctx.binding = true) (q : Query) :
    (Clause.pagination ctx q).Binds fits (PartBindings.page q) := by
  have hlimit := counted hb (fun (h : Binds fits _ _) => h.clause [.limit]) q.limit
  have hoffset := counted hb (fun (h : Binds fits _ _) => h.clause [.offset]) q.offset
  have hskip := counted hb (fun (h : Binds fits _ _) => offsetRows h) q.offset
  have hfetch := counted hb (fun (h : Binds fits _ _) => fetchRows h) q.limit
  have horder : (when (!!q.orderings.isEmpty) Dialect.anyOrder).Binds fits [] :=
    whenever quiet.anyOrder fun _ => rfl
  simp only [Clause.pagination, PartBindings.page]
  -- MSSQL writes no page without OFFSET, so a limit alone brings one along
  cases q.dialect with
  | oracle => exact hskip.append hfetch
  | mssql =>
    cases hoff : q.offset with
    | some m =>
      rw [hoff] at hskip
      have hordered := horder.quiet_append hskip
      cases hlim : q.limit with
      | some n => rw [hlim] at hfetch; exact hordered.append hfetch
      | none => exact hordered.append empty
    | none =>
      have hzero := horder.quiet_append (offsetRows (token (.int 0)))
      cases hlim : q.limit with
      | some n => rw [hlim] at hfetch; exact hzero.append hfetch
      | none => exact empty
  | _ => exact hlimit.append hoffset

end Draft.Binds

/-! ## Clauses -/

/-- The criterion that asks for nothing binds nothing, so leaving it out changes nothing. -/
def EmptyBinds (t : Term) (vs : List Value) : Prop := t.isEmpty = true → vs = []

/-- The parts of a conflict clause bind these lists. -/
structure ConflictParts.Bind (fits : Prop) (p : ConflictParts) (n : Naming) (c : Conflict)
    (b : ConflictBindings) : Prop where
  fields       : ∀ {ctx}, ctx.Captures n → BindsAll fits (p.fields ctx) b.fields
  resolutions  : ∀ {c c'}, c.Captures n → c'.Captures n → ∀ {inserted : Draft → Draft},
    (∀ {d vs}, Binds fits d vs → (inserted d).Binds fits vs) →
      BindsAll fits (p.resolutions c c' inserted) b.resolutions
  targetFilter : ∀ {ctx}, ctx.Captures n → (p.targetFilter ctx).Binds fits b.targetFilter
  updateFilter : ∀ {ctx}, ctx.Captures n → (p.updateFilter ctx).Binds fits b.updateFilter
  anyTarget    : EmptyBinds c.targetFilter b.targetFilter
  anyUpdate    : EmptyBinds c.updateFilter b.updateFilter

/-- What may be written in place of terms that go by a name binds what is said. -/
def ShortBinds (fits : Prop) (short : String → Option Draft)
    (short' : String → Option (List Value)) : Prop :=
  ∀ name, Option.Rel (Binds fits) (short name) (short' name)

/-- What is bound in place of a term to group by: nothing if an alias may be named, and otherwise
    what the selected term binds. -/
def Query.groupNames (n : Naming) (q : Query) (selected : String → Option (List Value)) :
    String → Option (List Value) :=
  fun name => if n.groups then q.aliasBindings? name else selected name

/-- What is bound in place of a term to sort by. -/
def Query.orderNames (n : Naming) (q : Query) : String → Option (List Value) :=
  fun name => if n.orders then q.aliasBindings? name else none

/-- The parts of a statement bind these lists, and the selected terms that go by a name bind what
    `named` says. -/
structure Parts.Bind (fits : Prop) (p : Parts) (n : Naming) (q : Query)
    (named : String → Option (List Value)) (b : PartBindings) : Prop where
  ctes        : ∀ {ctx}, ctx.Captures n → BindsAll fits (p.ctes ctx) b.ctes
  sources     : ∀ {ctx}, ctx.Captures n → BindsAll fits (p.sources ctx) b.sources
  joins       : ∀ {ctx}, ctx.Captures n → BindsAll fits (p.joins ctx) b.joins
  distinctOn  : ∀ {ctx}, ctx.Captures n → BindsAll fits (p.distinctOn ctx) b.distinctOn
  selects     : ∀ {ctx}, ctx.Captures n → BindsAll fits (p.selects ctx) b.selects
  selected    : ∀ {ctx}, ctx.Captures n → ShortBinds fits (p.selected ctx) named
  insertTable : ∀ {ctx}, ctx.Captures n → ∀ {aliasName},
    (p.insertTable ctx aliasName).Binds fits b.insertTable
  updateTable : ∀ {ctx}, ctx.Captures n → ∀ {aliasName},
    (p.updateTable ctx aliasName).Binds fits b.updateTable
  columns     : ∀ {ctx}, ctx.Captures n → BindsAll fits (p.columns ctx) b.columns
  rows        : ∀ {ctx}, ctx.Captures n → BindsAll fits (p.rows ctx) b.rows
  assignments : ∀ {ctx}, ctx.Captures n → BindsAll fits (p.assignments ctx) b.assignments
  prefilter   : ∀ {ctx}, ctx.Captures n → (p.prefilter ctx).Binds fits b.prefilter
  filter      : ∀ {ctx}, ctx.Captures n → (p.filter ctx).Binds fits b.filter
  groups      : ∀ {ctx}, ctx.Captures n → ∀ {short}, ShortBinds fits short (q.groupNames n named) →
    BindsAll fits (p.groups ctx short) b.groups
  groupFilter : ∀ {ctx}, ctx.Captures n → (p.groupFilter ctx).Binds fits b.groupFilter
  orderings   : ∀ {ctx}, ctx.Captures n → ∀ {short}, ShortBinds fits short (q.orderNames n) →
    BindsAll fits (p.orderings ctx short) b.orderings
  conflict    : p.conflict.Bind fits n q.conflict b.conflict
  returns     : ∀ {ctx}, ctx.Captures n → BindsAll fits (p.returns ctx) b.returns
  anyRow      : EmptyBinds q.filter b.filter
  anyPrior    : EmptyBinds q.prefilter b.prefilter
  anyGroup    : EmptyBinds q.groupFilter b.groupFilter
  noTarget    : q.insertTable = none → b.insertTable = []

namespace Clause

/-- A criterion that is written captures its constants; one that is not has none. -/
theorem criterion_binds {n : Naming} {ctx : Context} (hc : ctx.Captures n) (k : Keyword) {t : Term}
    {part : Context → Draft} {vs : List Value} (hempty : EmptyBinds t vs)
    (hpart : ∀ {ctx : Context}, ctx.Captures n → (part ctx).Binds fits vs) :
    (criterion ctx k t part).Binds fits vs := by
  have hnested : Context.Captures { ctx with nested := true } n := hc
  have hwritten := (hpart hnested).clause [k]
  refine hwritten.whenever ?_
  intro hskip
  exact hempty (by simpa using hskip)

/-- An alias that is named binds nothing. -/
theorem aliasOf_binds (q : Query) (name : String) :
    Option.Rel (Binds fits) (aliasOf? q name) (q.aliasBindings? name) := by
  simp only [aliasOf?, Query.aliasBindings?]
  split
  · exact .some (Binds.token _)
  · exact .none

/-- A selected term that is named in an order of a set operation binds nothing. -/
theorem identOf_binds (q : Query) :
    ShortBinds fits (fun name => if q.selectedAliases.contains name then some (token (.ident name))
      else none) q.aliasBindings? := by
  intro name
  show Option.Rel (Binds fits) (if _ then _ else _) (if _ then _ else _)
  split
  · exact .some (Binds.token _)
  · exact .none

/-- A window captures the constants it is split by, and then those it is ordered by. -/
theorem window_binds {partition orderings : List Draft} {vs ws : List Value}
    (hpartition : BindsAll fits partition vs) (horderings : BindsAll fits orderings ws)
    (frame : Option Frame) : (window partition orderings frame).Binds fits (vs ++ ws) := by
  have hpart : ∀ (k : Keyword) {ds : List Draft} {us : List Value}, BindsAll fits ds us →
      BindsAll fits (if ds.isEmpty then [] else [word k ++ space ++ commas ds]) us := by
    intro k ds us h
    split
    · next hnone => rw [h.eq_nil hnone]; exact .nil
    · have hhead : (word k ++ space).Binds fits [] := (Binds.token (.keyword k)).before .space
      exact List.append_nil us ▸ .cons (hhead.quiet_append h.commas) .nil
  have hparts := (hpart .partitionBy hpartition).append (hpart .orderBy horderings)
  have hover : (space ++ word .over).Binds fits [] := (Binds.token .space).before (.keyword .over)
  rw [← List.append_nil (vs ++ ws)]
  refine hover.quiet_append ((hparts.append ?_).join (Binds.token .space)).parens
  cases frame with
  | none => exact .nil
  | some f => exact .cons (Binds.quiet.frame f) .nil

/-- The limit of a statement that is not a page. -/
theorem limit_binds {n : Naming} {ctx : Context} (hc : ctx.Captures n) (count : Option Int64) :
    (limit ctx count).Binds fits (countBindings count) := by
  cases count with
  | none => exact .empty
  | some m => exact (Binds.value hc.1 (.int m) true).clause [.limit]

variable {n : Naming} {q : Query} {named : String → Option (List Value)} {p : Parts}
  {b : PartBindings} (hp : p.Bind fits n q named b) {ctx : Context} (hc : ctx.Captures n)
include hp hc

/-- WITH captures the constants of the definitions. -/
theorem withs_binds : (withs ctx q p).Binds fits b.ctes := by
  have hctes := hp.ctes hc
  have hhead : (word .with_ ++ space).Binds fits [] :=
    (Binds.token (.keyword .with_)).before .space
  have hrec : (when (q.ctes.any Cte.isRecursive) (word .recursive ++ space)).Binds fits [] :=
    ((Binds.token _).before _).when_quiet _
  exact hctes.ifAny ((hhead.append_quiet hrec).quiet_append hctes.commas)

/-- FROM captures the constants of its items, and of those that are added. -/
theorem from_binds {further : List Draft} {vs : List Value} (hf : BindsAll fits further vs) :
    (from_ ctx p further).Binds fits (b.sources ++ vs) := by
  have hinner : Context.Captures { ctx with nested := true, declares := true } n := hc
  exact ((hp.sources hinner).append hf).unlessNone [.from_]

/-- The joins capture theirs. -/
theorem joined_binds : (joined ctx p).Binds fits b.joins := by
  have hjoins := hp.joins hc
  have hwritten : (space ++ join space (p.joins ctx)).Binds fits b.joins :=
    Binds.behind .space (hjoins.join (.token .space))
  exact hjoins.whenAny hwritten

/-- WHERE captures the constants of its criterion. -/
theorem filtered_binds : (filtered ctx q p).Binds fits b.filter :=
  criterion_binds hc .where_ hp.anyRow hp.filter

/-- GROUP BY captures the constants of its terms. -/
theorem grouped_binds : (grouped ctx q p).Binds fits b.groups := by
  have hshort : ShortBinds fits
      (fun name => if ctx.groupByAlias then aliasOf? q name else p.selected ctx name)
      (q.groupNames n named) := by
    intro name
    have hsame : ctx.groupByAlias = n.groups := congrArg Naming.groups hc.2
    show Option.Rel (Binds fits) _ (if n.groups then _ else _)
    rw [← hsame]
    split
    · exact aliasOf_binds q name
    · exact hp.selected hc name
  have hgroups := hp.groups hc hshort
  have htotals : (when q.withTotals (space ++ words [.with_, .totals])).Binds fits [] :=
    ((Binds.token .space).append_quiet (Binds.quiet.words _)).when_quiet _
  have hrollup : (when q.withRollup (space ++ words [.with_, .rollup])).Binds fits [] :=
    ((Binds.token .space).append_quiet (Binds.quiet.words _)).when_quiet _
  exact hgroups.ifAny
    (((hgroups.commas.clause [.groupBy]).append_quiet htotals).append_quiet hrollup)

/-- ORDER BY captures the constants of its terms. -/
theorem ordered_binds : (ordered ctx q p).Binds fits b.orderings := by
  refine (hp.orderings hc ?_).unlessNone [.orderBy]
  intro name
  -- whether an alias may be named is what the bindings were read off with
  have hsame : ctx.orderByAlias = n.orders := congrArg Naming.orders hc.2
  show Option.Rel (Binds fits) _ (if n.orders then _ else _)
  rw [← hsame]
  split
  · exact aliasOf_binds q name
  · exact .none

/-- A conflict clause captures the constants of the parts that are written of it. -/
theorem onConflict_binds : (onConflict ctx q.conflict p.conflict).Binds fits
    (if !q.conflict.doNothing && q.conflict.resolutions.isEmpty then []
    else
      b.conflict.fields ++ b.conflict.targetFilter ++
        if q.conflict.doNothing then []
        else b.conflict.resolutions ++ b.conflict.updateFilter) := by
  have htargetCtx : Context.Captures { ctx with declares := true } n := hc
  have hvalueCtx : Context.Captures { ctx with qualified := true } n := hc
  have hcolumnCtx : Context.Captures { ctx with qualified := false } n := hc
  have htarget := hp.conflict.fields htargetCtx
  have hwhere := criterion_binds hc .where_ hp.conflict.anyTarget hp.conflict.targetFilter
  have hupdate := criterion_binds hvalueCtx .where_ hp.conflict.anyUpdate hp.conflict.updateFilter
  -- a column without a new value is written twice and binds what it binds twice
  have hexcluded : ∀ {d : Draft} {vs : List Value}, d.Binds fits vs →
      (word .excluded ++ token .dot ++ d).Binds fits vs := by
    intro d vs hd
    exact ((Binds.token _).before _).quiet_append hd
  have hset := (hp.conflict.resolutions hcolumnCtx hvalueCtx hexcluded).commas.clause
    [.do_, .update, .set]
  have hhead : (space ++ words [.on, .conflict]).Binds fits [] :=
    (Binds.token .space).append_quiet (Binds.quiet.words _)
  have hseparator : (tokens [.comma, .space]).Binds fits [] :=
    .of_bound_eq_nil (fun _ => rfl) rfl
  have hfields := htarget.whenAny
    (Binds.behind .space (htarget.join hseparator).parens)
  simp only [onConflict]
  split
  · split
    · exact .empty
    · exact .fail _
  · split
    · exact .fail _
    · refine ((hhead.quiet_append hfields).append hwhere).append ?_
      split
      · exact (Binds.token .space).append_quiet (Binds.quiet.words _)
      · exact hset.append hupdate

/-- So does ON DUPLICATE KEY UPDATE, which writes nothing but the updates. -/
theorem onDuplicateKey_binds (row : Option String) :
    (onDuplicateKey ctx row p.conflict).Binds fits b.conflict.resolutions := by
  have hcolumnCtx : Context.Captures { ctx with qualified := false } n := hc
  refine (Binds.quiet.aliasDraft rfl row).quiet_append
    ((hp.conflict.resolutions hcolumnCtx hcolumnCtx ?_).unlessNone _)
  intro d vs hd
  cases row with
  | some name => exact ((Binds.token _).before _).quiet_append hd
  | none => exact Binds.behind _ hd.parens

/-- What is done about conflicting rows captures its constants in either style. -/
theorem resolved_binds : (resolved ctx q p).Binds fits (b.resolved q) := by
  simp only [resolved, PartBindings.resolved]
  split
  · exact .empty
  · split
    · exact onDuplicateKey_binds hp hc _
    · exact onConflict_binds hp hc

/-- RETURNING captures the constants of its terms. -/
theorem returned_binds : (returned ctx q p).Binds fits b.returns := by
  have hinner : Context.Captures
      { ctx with declares := true, qualified := q.updateTable.isSome } n := hc
  exact (hp.returns hinner).unlessNone [.returning]

/-! ## Statements -/

/-- An UPDATE captures the constants of its clauses in their order. -/
theorem update_binds {table : Table} : (update ctx q table p).Binds fits (b.update q) := by
  have hnested : Context.Captures { ctx with nested := true, declares := true } n := hc
  have hjoined := joined_binds hp hc
  have hset := (hp.assignments hc).commas.clause [.set]
  have hfrom := from_binds hp hc .nil
  have hfiltered := filtered_binds hp hc
  have hordered := ordered_binds hp hc
  rw [List.append_nil] at hfrom
  -- the table is written once more where others are joined to it
  have hagain : BindsAll fits
      (if q.joins.isEmpty then []
      else [p.updateTable { ctx with nested := true, declares := true }
        (some (table.nameIn ctx ++ "_"))])
      (if q.joins.isEmpty then [] else b.updateTable) := by
    split
    · exact .nil
    · exact List.append_nil b.updateTable ▸ .cons (hp.updateTable hnested) .nil
  have hhead := ((withs_binds hp hc).before (.keyword .update)).before .space
  refine ((hhead.append (hp.updateTable hc)).append ?_).append (returned_binds hp hc)
  cases q.dialect.updateLayout with
  | standard => exact ((hjoined.append hset).append hfrom).append hfiltered
  | trailingOrderLimit =>
    exact ((((hjoined.append hset).append hfrom).append hfiltered).append hordered).append
      (limit_binds hc q.limit)
  | fromAfterSet =>
    exact ((((hset.append (from_binds hp hc hagain)).append hjoined).append hfiltered).append
      hordered).append (limit_binds hc q.limit)

theorem target_binds : (target ctx q p).Binds fits b.insertTable := hp.insertTable hc

/-- INSERT INTO captures the constants of its table and its columns. -/
theorem inserting_binds : (inserting ctx q p).Binds fits (b.insertTable ++ b.columns) := by
  have hinner : Context.Captures { ctx with qualified := false } n := hc
  have hcolumns := hp.columns hinner
  have hverb : (if q.replaces then word .replace
      else word .insert ++
        when (q.usesDuplicateKey && q.conflict.doNothing)
          (space ++ word .ignore)).Binds fits [] := by
    split
    · exact Binds.token _
    · exact (Binds.token _).append_quiet
        (((Binds.token _).before _).when_quiet _)
  have hhead := ((hverb.before .space).before (.keyword .into)).before .space
  have hlist := hcolumns.whenAny (Binds.behind .space hcolumns.commas.parens)
  exact (hhead.quiet_append (target_binds hp hc)).append hlist

/-- An INSERT captures the constants of its clauses in their order. -/
theorem insertion_binds : (insertion ctx q p).Binds fits (b.insertion q) := by
  have hinner : Context.Captures { ctx with nested := true, declares := true } n := hc
  have hrows := (hp.rows hinner).commas.clause [.values]
  exact ((((withs_binds hp hc).append (inserting_binds hp hc)).append hrows).append
    (resolved_binds hp hc)).append (returned_binds hp hc)

/-- DISTINCT ON captures the constants of its terms. -/
theorem selectHead_binds : (selectHead ctx q p).Binds fits b.distinctOn := by
  have hinner : Context.Captures { ctx with declares := true } n := hc
  have hterms := hp.distinctOn hinner
  have hdistinct :
      (if !(p.distinctOn { ctx with declares := true }).isEmpty then
        words [.distinct, .on] ++ parens (commas (p.distinctOn { ctx with declares := true })) ++
          space
      else when q.distinct (word .distinct ++ space)).Binds fits b.distinctOn := by
    split
    · exact ((Binds.quiet.words _).quiet_append hterms.commas.parens).before _
    · next hnone =>
      -- DISTINCT without terms binds nothing, and there are no terms
      rw [hterms.eq_nil (by simpa using hnone)]
      exact ((Binds.token _).before _).when_quiet _
  have hmodifiers :
      (when (!q.modifiers.isEmpty) (raw (" ".intercalate q.modifiers) ++ space)).Binds fits [] :=
    ((Binds.token _).before _).when_quiet _
  simp only [selectHead]
  refine (hdistinct.append_quiet ?_).append_quiet hmodifiers
  cases q.top with
  | none => exact .empty
  | some n =>
    exact ((((Binds.token _).before _).quiet_append
      (Binds.token (.int n)).parens).before _).when_quiet _

/-- SELECT captures the constants of its list, and of the table that it goes into. -/
theorem selecting_binds : (selecting ctx q p).Binds fits
    (b.distinctOn ++ b.selects ++ if q.selectsInto then b.insertTable else []) := by
  have hinner : Context.Captures { ctx with nested := true, declares := true } n := hc
  have hhead := ((Binds.token (.keyword .select)).before .space).quiet_append
    (selectHead_binds hp hc)
  refine (hhead.append (hp.selects hinner).commas).append ?_
  cases hinto : q.selectsInto with
  | false => exact .empty
  | true =>
    refine ((target_binds hp hc).clause [.into]).whenever ?_
    intro hmissing
    exact hp.noTarget (by simpa using hmissing)

/-- A SELECT captures the constants of its clauses in their order. -/
theorem selection_binds : (selection ctx q p).Binds fits (b.selection q) := by
  have hverb :
      (if q.deletes then word .delete
      else when q.inserts (inserting ctx q p ++ space) ++ selecting ctx q p).Binds fits
        (if q.deletes then []
        else
          (if q.inserts then b.insertTable ++ b.columns else []) ++
            (b.distinctOn ++ b.selects ++ if q.selectsInto then b.insertTable else [])) := by
    split
    · exact Binds.token _
    · refine Binds.append ?_ (selecting_binds hp hc)
      cases q.inserts with
      | false => exact .empty
      | true => exact (inserting_binds hp hc).before _
  have hsources := from_binds hp hc .nil
  rw [List.append_nil] at hsources
  have hread := ((((withs_binds hp hc).append hverb).append hsources).append_quiet
    (Binds.quiet.indexHint .force q.forcedIndexes)).append_quiet
      (Binds.quiet.indexHint .use q.usedIndexes)
  have hprior := criterion_binds hc .prewhere hp.anyPrior hp.prefilter
  have hgroup := criterion_binds hc .having hp.anyGroup hp.groupFilter
  have hkept := ((hread.append (joined_binds hp hc)).append hprior).append (filtered_binds hp hc)
  exact ((((hkept.append (grouped_binds hp hc)).append hgroup).append (ordered_binds hp hc)).append
    (Binds.page hc.1 q)).append_quiet (Binds.quiet.locking q.lock)

end Clause

/-- A statement binds the constants of its parts, clause by clause. -/
theorem Clause.statement_binds {n : Naming} {q : Query} {named : String → Option (List Value)}
    {p : Parts} {b : PartBindings} (hp : p.Bind fits (n.inside q.dialect) q named b)
    {outer : Context} (hc : outer.Captures n) : (statement outer q p).Binds fits (b.inOrder q) := by
  have hctx : (q.clauseContext { outer with scope := outer.scope.enter q.scope }).Captures
      (n.inside q.dialect) := ⟨hc.1, congrArg (Naming.inside · q.dialect) hc.2⟩
  simp only [statement, PartBindings.inOrder]
  split
  · exact .empty
  · cases q.updateTable with
    | some table => exact update_binds hp hctx
    | none =>
      show Binds fits (if _ then _ else _) (if _ then _ else _)
      split
      · exact insertion_binds hp hctx
      · exact ((((selection_binds hp hctx).parensIf _).append
          (resolved_binds hp hctx)).declared _ _).append
            (returned_binds hp hctx)

end SqlCompose
