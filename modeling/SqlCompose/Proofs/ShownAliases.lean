import SqlCompose.Proofs.Filling
import SqlCompose.Proofs.NestedStatements

/-! # Shown aliases — what a request to declare an alias adds to what is written

    A term that is asked to declare its alias hands the request on to its operands, but for the
    arguments of a call and the parts of a CASE expression. So it may show aliases that are not its
    own.

    * `Term.shown` — the aliases that are written in a term only if it is asked to declare its own,
      by a walk over the term beside the one that writes it.
    * `Draft.Shows` — one draft shows some aliases more than another one and is the same otherwise.
    * `Draft.Shows.finish_iff` — drafts are finished alike exactly if no alias is shown.
    * `Query.draft_shows`, `operandsDraft_shows` — statements and the operands of set operations.
    * `Term.draft_shows` — a term that is asked to declare its alias against one that is not, by
      recursion over the term. -/

namespace SqlCompose

open Draft

/-! ## The aliases that are shown on request -/

/-- The name that is declared for an alias; an empty one is not declared. -/
def declaredNames : Option String → List String
  | none => []
  | some name => if name.isEmpty then [] else [name]

/-- An alias that is not blank is declared by its name. -/
theorem declaredNames_some {name : String} (h : name ≠ "") :
    declaredNames (some name) = [name] := by
  refine if_neg ?_
  rwa [String.isEmpty_iff]

/-- The alias that a statement declares on request: a SELECT or the like does, as it is known in the
    scope around it; an UPDATE and an INSERT of rows do not. -/
def Query.declared (scope : Scope) (q : Query) : List String :=
  if q.isSelection then declaredNames ((scope.enter q.scope).resolve q.slot) else []

/-- The alias that an expression declares only on request. -/
def Expr.declared (scope : Scope) (aliasName : Option String) : Expr → List String
  | .field _ _ | .call _ | .case _ _ | .arithmetic _ _ _ | .comparison _ _ _ | .chain _ _ _ _ _
  | .jsonPath _ _ => declaredNames aliasName
  | .subquery q => q.declared scope
  | .setOperation s => declaredNames (scope.resolve s.slot)
  | _ => []

mutual

/-- The aliases that are written in a term only if it is asked to declare its own. -/
def Term.shown (scope : Scope) : Term → List String
  | { expr, aliasName } => expr.shownInside scope ++ expr.declared scope aliasName

/-- Those of the operands of an expression. The arguments of a call and the parts of a CASE
    expression are never asked. -/
def Expr.shownInside (scope : Scope) : Expr → List String
  | .tuple items => termsShown scope items
  | .array items => termsShown scope items
  | .call c => c.shownInside scope
  | .arithmetic _ left right => left.shown scope ++ right.shown scope
  | .negative operand => operand.shown scope
  | .comparison _ left right => left.shown scope ++ right.shown scope
  | .combination _ left right => left.shown scope ++ right.shown scope
  | .chain _ _ left middle right => left.shown scope ++ middle.shown scope ++ right.shown scope
  | .membership operand container _ => operand.shown scope ++ container.shown scope
  | .between operand lower upper =>
    operand.shown scope ++ lower.shown scope ++ upper.shown scope
  | .period operand start stop => operand.shown scope ++ start.shown scope ++ stop.shown scope
  | .bitAnd operand _ => operand.shown scope
  | .isNull operand => operand.shown scope
  | .not operand => operand.shown scope
  | .all operand => operand.shown scope
  | .jsonPath column _ => column.shown scope
  | .setOperation s => s.shownInside scope
  | .insertedValue field => field.shown scope
  | .atTimeZone operand _ _ => operand.shown scope
  | _ => []

/-- Those of terms. -/
def termsShown (scope : Scope) : List Term → List String
  | [] => []
  | t :: rest => t.shown scope ++ termsShown scope rest

/-- Those of a term that may be missing. -/
def optionShown (scope : Scope) : Option Term → List String
  | none => []
  | some t => t.shown scope

/-- Those of a call; one whose name stands alone has none. -/
def Call.shownInside (scope : Scope) : Call → List String
  | { suffix, bare, filter, window, .. } =>
    if bare then []
    else suffixShown scope suffix ++ optionShown scope filter ++ windowShown scope window

/-- Those behind the arguments of a call. -/
def suffixShown (scope : Scope) : Option CallSuffix → List String
  | some (.source t) => t.shown scope
  | _ => []

/-- Those of an OVER clause. -/
def windowShown (scope : Scope) : Option Window → List String
  | none => []
  | some { partition, orderings } =>
    termsShown scope partition ++ orderingsShown scope [] orderings

/-- Those of terms to sort by, except terms that go by a selected name. -/
def orderingsShown (scope : Scope) (selected : List String) : List Ordering → List String
  | [] => []
  | { term, .. } :: rest =>
    (if term.knownAs.any selected.contains then [] else term.shown scope) ++
      orderingsShown scope selected rest

/-- Those of a set operation: of its statements and of its terms to sort by. -/
def SetOperation.shownInside (scope : Scope) : SetOperation → List String
  | { base, operands, orderings, .. } =>
    base.declared scope ++ operands.flatMap (fun o => o.query.declared scope) ++
      orderingsShown scope base.selectedAliases orderings

end

/-- Constants show no alias on request: they always write theirs. -/
theorem termsShown_of_constants {items : List Term} {values : List Value}
    (h : constants? items = some values) (scope : Scope) : termsShown scope items = [] := by
  induction items generalizing values with
  | nil => rfl
  | cons t rest ih =>
    obtain ⟨v, vs, hv, hvs⟩ := constants?_cons h
    have hshown : t.shown scope = [] := by
      obtain ⟨expr, aliasName⟩ := t
      cases expr <;> first | rfl | exact nomatch hv
    show t.shown scope ++ termsShown scope rest = []
    rw [hshown, ih hvs]
    rfl

/-! ## The aliases in a draft -/

/-- The alias that a token is. -/
def Token.alias? : Token → Option String
  | .aliasName name => some name
  | _ => none

/-- The alias that a piece is; what a hole is filled with is none. -/
def Piece.alias? : Piece → Option String
  | .token t => t.alias?
  | .hole _ _ => none

/-- Numbering the holes leaves the aliases as they are. -/
theorem Piece.number_alias? (factory : Option (Nat → String)) (count : Nat) (ps : List Piece) :
    (number factory count ps).filterMap Token.alias? = ps.filterMap Piece.alias? := by
  induction ps generalizing count with
  | nil => rfl
  | cons p rest ih =>
    cases p with
    | token t =>
      show (t :: number factory count rest).filterMap Token.alias? = _
      rw [List.filterMap_cons, List.filterMap_cons, ih count]
      rfl
    | hole v d =>
      show (_ :: number factory (count + 1) rest).filterMap Token.alias? = _
      rw [List.filterMap_cons_none rfl, List.filterMap_cons_none rfl, ih (count + 1)]

namespace Draft

/-- The aliases that are written in the draft, from left to right. -/
def aliases (d : Draft) : List String := d.pieces.filterMap Piece.alias?

/-- Behind a draft that is written to its end, the aliases of the next one follow. -/
theorem aliases_append {a b : Draft} (h : a.stop = none) :
    (a ++ b).aliases = a.aliases ++ b.aliases := by
  rw [append_of_complete h]
  exact List.filterMap_append

/-- Drafts that are finished alike have the same aliases. -/
theorem aliases_eq_of_finish {d d' : Draft} (hd : d.stop = none) (hd' : d'.stop = none)
    {p : Parameters} (h : d.finish p = d'.finish p) : d.aliases = d'.aliases := by
  rw [finish_of_complete hd, finish_of_complete hd'] at h
  have htokens := Except.ok.inj (Prod.mk.inj h).1
  have haliases := congrArg (List.filterMap Token.alias?) htokens
  rwa [Piece.number_alias?, Piece.number_alias?] at haliases

/-- The draft without the request that the operands it shows were written out under. -/
def plain (d : Draft) : Draft := d.mapContext fun ctx => { ctx with declares := false }

/-- The request is taken off two drafts one by one. -/
theorem plain_append (a b : Draft) : (a ++ b).plain = a.plain ++ b.plain :=
  mapContext_append (f := fun ctx => { ctx with declares := false }) a b

/-- Operands that do not fit together are shown alike whether they are asked for their aliases. -/
theorem plain_unequal (ctx : Context) {main main' other other' : Draft}
    (hmain : main.plain = main'.plain) (hother : other.plain = other'.plain) :
    (unequal { ctx with declares := true } main other).plain =
      (unequal { ctx with declares := false } main' other').plain := by
  let f : Context → Context := fun ctx => { ctx with declares := false }
  have hctx : f { ctx with declares := true } = f { ctx with declares := false } := rfl
  exact mapContext_unequal hctx hmain hother

/-- Taking the request off changes nothing that is written or captured. -/
theorem finish_plain (d : Draft) (p : Parameters) : d.plain.finish p = d.finish p := by
  refine finish_mapContext (f := fun ctx => { ctx with declares := false }) (fun ctx => ?_) d p
  funext t
  cases t <;> rfl

end Draft

/-- An alias is written if it is not blank. -/
theorem Context.aliases_aliasDraft (ctx : Context) (aliasName : Option String) :
    (ctx.aliasDraft aliasName).aliases = declaredNames aliasName := by
  cases aliasName with
  | none => rfl
  | some name =>
    simp only [Context.aliasDraft, declaredNames]
    split
    · rfl
    · cases ctx.asKeyword <;> rfl

/-! ## Drafts that show more aliases -/

namespace Draft

/-- The first draft shows these aliases and is otherwise the second one. -/
structure Shows (names : List String) (d d' : Draft) : Prop where
  /-- Without an alias to show they are the same. -/
  same : names = [] → d.plain = d'.plain
  stops : d.stop = none ↔ d'.stop = none
  aliases : d'.stop = none → d.aliases.Perm (d'.aliases ++ names)

namespace Shows

variable {a a' b b' d d' : Draft} {xs ys : List String}

/-- A draft shows no more aliases than it does itself. -/
theorem refl (d : Draft) : Shows [] d d := by
  refine ⟨fun _ => rfl, Iff.rfl, fun _ => ?_⟩
  rw [List.append_nil]

/-- Drafts that stop show no aliases. -/
theorem stopped (hd : d.stop ≠ none) (hd' : d'.stop ≠ none) (same : xs = [] → d.plain = d'.plain) :
    Shows xs d d' :=
  ⟨same, iff_of_false hd hd', fun h => absurd h hd'⟩

theorem fail (e : BuildError) : Shows xs (fail e) (fail e) := stopped nofun nofun fun _ => rfl

/-- Aliases that two drafts show, one behind the other. -/
theorem append (ha : Shows xs a a') (hb : Shows ys b b') :
    Shows (xs ++ ys) (a ++ b) (a' ++ b') where
  same := by
    intro hnames
    obtain ⟨hxs, hys⟩ := List.append_eq_nil_iff.mp hnames
    rw [plain_append, plain_append, ha.same hxs, hb.same hys]
  stops := by rw [complete_append_iff, complete_append_iff, ha.stops, hb.stops]
  aliases := by
    intro hstop
    obtain ⟨ha', hb'⟩ := stop_append hstop
    rw [aliases_append (ha.stops.mpr ha'), aliases_append ha']
    -- the names of the first part come before those that both drafts have in the second one
    have hshift : (a'.aliases ++ xs ++ (b'.aliases ++ ys)).Perm
        (a'.aliases ++ b'.aliases ++ (xs ++ ys)) := by
      rw [List.append_assoc, List.append_assoc]
      exact (List.perm_append_comm_assoc xs b'.aliases ys).append_left a'.aliases
    exact ((ha.aliases ha').append (hb.aliases hb')).trans hshift

/-- The same may follow. -/
theorem before (ha : Shows xs a a') (b : Draft) : Shows xs (a ++ b) (a' ++ b) :=
  List.append_nil xs ▸ ha.append (refl b)

/-- The same may come first. -/
theorem behind (a : Draft) (hb : Shows xs b b') : Shows xs (a ++ b) (a ++ b') := (refl a).append hb

/-- Parentheses show no alias of their own. -/
theorem parens (hd : Shows xs d d') : Shows xs (parens d) (parens d') := (hd.behind _).before _

theorem brackets (hd : Shows xs d d') : Shows xs (brackets d) (brackets d') :=
  (hd.behind _).before _

theorem parensIf (condition : Bool) (hd : Shows xs d d') :
    Shows xs (parensIf condition d) (parensIf condition d') := by
  cases condition with
  | false => exact hd
  | true => exact hd.parens

theorem clause (ks : List Keyword) (hd : Shows xs d d') :
    Shows xs (clause ks d) (clause ks d') := hd.behind _

/-- Nothing has to be written behind a draft. -/
theorem only (hd : Shows xs d d') : Shows (xs ++ []) d d' := (List.append_nil xs).symm ▸ hd

/-- A draft, or a shorter one for a name. -/
theorem getD {short : String → Option Draft} {selected : List String}
    (hs : ∀ name, (short name).isSome = selected.contains name) (hd : Shows xs d d')
    (name? : Option String) :
    Shows (if name?.any selected.contains then [] else xs) ((name?.bind short).getD d)
      ((name?.bind short).getD d') := by
  cases name? with
  | none => exact hd
  | some name =>
    show Shows (if selected.contains name then [] else xs) ((short name).getD d)
      ((short name).getD d')
    rw [← hs name]
    cases short name with
    | none => exact hd
    | some shorter => exact refl shorter

/-- A path into a document shows none of its own. -/
theorem jsonPath (dialect : Dialect) (hd : Shows xs d d') (path : List PathStep) :
    Shows xs (dialect.jsonPath d path) (dialect.jsonPath d' path) := by
  cases dialect with
  | mssql => exact (((hd.before _).before _).before _).parens.behind _
  | _ => exact hd.before _

/-- An alias behind nothing. -/
theorem aliasDraft (ctx : Context) (aliasName : Option String) :
    Shows (declaredNames aliasName) (ctx.aliasDraft aliasName) empty := by
  have haliases := ctx.aliases_aliasDraft aliasName
  refine ⟨?_, iff_of_true (ctx.complete_aliasDraft aliasName) rfl, fun _ => ?_⟩
  · intro hnone
    cases aliasName with
    | none => rfl
    | some name =>
      simp only [declaredNames, ite_eq_left_iff] at hnone
      have hempty : name.isEmpty = true := by
        by_contra hname
        exact nomatch hnone hname
      simp only [Context.aliasDraft, hempty, if_true]
  · rw [haliases]
    exact .refl _

/-- An alias that is declared on request. -/
theorem declaration (ctx : Context) (aliasName : Option String) :
    Shows (declaredNames aliasName) (Context.declaration { ctx with declares := true } aliasName)
      (Context.declaration { ctx with declares := false } aliasName) :=
  aliasDraft ctx aliasName

/-- Without an alias to show, drafts are finished alike. -/
theorem finish_eq (h : Shows xs d d') (hnone : xs = []) (p : Parameters) :
    d.finish p = d'.finish p := by
  rw [← finish_plain, h.same hnone, finish_plain]

/-- Drafts that do not stop are finished alike only then. -/
theorem finish_iff (h : Shows xs d d') (hstop : d'.stop = none) (p : Parameters) :
    d.finish p = d'.finish p ↔ xs = [] := by
  constructor
  · intro hfinish
    have hperm := h.aliases hstop
    rw [aliases_eq_of_finish (h.stops.mpr hstop) hstop hfinish] at hperm
    have hlength := hperm.length_eq
    rw [List.length_append] at hlength
    exact List.eq_nil_of_length_eq_zero (by omega)
  · intro hnone
    exact h.finish_eq hnone p

end Shows

/-- Drafts, one after another, that show aliases. -/
inductive ShowsAll : List String → List Draft → List Draft → Prop
  | nil : ShowsAll [] [] []
  | cons {xs ys : List String} {d d' : Draft} {ds ds' : List Draft} :
      Shows xs d d' → ShowsAll ys ds ds' → ShowsAll (xs ++ ys) (d :: ds) (d' :: ds')

namespace ShowsAll

variable {separator : Draft} {ds ds' es es' : List Draft} {xs ys : List String}

/-- Asking for aliases adds no draft to a list. -/
theorem isEmpty_eq (h : ShowsAll xs ds ds') : ds.isEmpty = ds'.isEmpty := by
  cases h <;> rfl

/-- No drafts show nothing. -/
theorem eq_nil (h : ShowsAll xs ds ds') (hds : ds'.isEmpty = true) : xs = [] := by
  cases h with
  | nil => rfl
  | cons _ _ => exact nomatch hds

/-- The drafts of two lists, one behind the other. -/
theorem append (h : ShowsAll xs ds ds') (h' : ShowsAll ys es es') :
    ShowsAll (xs ++ ys) (ds ++ es) (ds' ++ es') := by
  induction h with
  | nil => exact h'
  | cons hd _ ih => rw [List.append_assoc]; exact .cons hd ih

/-- Drafts one after the other show what each of them shows. -/
theorem join (h : ShowsAll xs ds ds') : Shows xs (join separator ds) (join separator ds') := by
  induction h with
  | nil => exact .refl _
  | cons hd hrest ih =>
    cases hrest with
    | nil => rw [List.append_nil]; exact hd
    | cons _ _ => exact (hd.before separator).append ih

theorem commas (h : ShowsAll xs ds ds') : Shows xs (commas ds) (commas ds') := h.join

/-- A clause that is there only if it has parts shows what they do. -/
theorem unlessNone (ks : List Keyword) (h : ShowsAll xs ds ds') :
    Shows xs (Clause.unlessNone ks ds) (Clause.unlessNone ks ds') := by
  simp only [Clause.unlessNone, h.isEmpty_eq]
  split
  · next hnone => rw [h.eq_nil hnone]; exact .refl _
  · exact h.commas.clause ks

/-- An array shows what its items do. -/
theorem array (dialect : Dialect) (h : ShowsAll xs ds ds') :
    Shows xs (dialect.array ds) (dialect.array ds') := by
  cases dialect with
  | postgres =>
    simp only [Dialect.array, h.isEmpty_eq]
    split
    · next hnone => rw [h.eq_nil hnone]; exact .refl _
    · exact h.commas.brackets.behind _
  | _ => exact h.commas.brackets

/-- A window shows what it is split by shows, and then what its orders show. -/
theorem window {partition partition' orderings orderings' : List Draft}
    (hpartition : ShowsAll xs partition partition') (horderings : ShowsAll ys orderings orderings')
    (frame : Option Frame) :
    Shows (xs ++ ys) (Clause.window partition orderings frame)
      (Clause.window partition' orderings' frame) := by
  have hpart : ∀ (k : Keyword) {ds ds' : List Draft} {zs : List String}, ShowsAll zs ds ds' →
      ShowsAll zs (if ds.isEmpty then [] else [word k ++ space ++ Draft.commas ds])
        (if ds'.isEmpty then [] else [word k ++ space ++ Draft.commas ds']) := by
    intro k ds ds' zs h
    rw [h.isEmpty_eq]
    split
    · next hnone => rw [h.eq_nil hnone]; exact .nil
    · exact List.append_nil zs ▸ .cons (h.commas.behind _) .nil
  have hparts := (hpart .partitionBy hpartition).append (hpart .orderBy horderings)
  rw [← List.append_nil (xs ++ ys)]
  refine (hparts.append ?_).join.parens.behind _
  cases frame with
  | none => exact .nil
  | some f => exact .cons (.refl _) .nil

end ShowsAll

end Draft

/-! ## Statements show their alias -/

/-- The name in front of a column does not depend on what is asked of the column. -/
theorem Source.qualifier_declares (ctx : Context) (source : Option Source) :
    qualifier { ctx with declares := true } source =
      qualifier { ctx with declares := false } source := by
  have hwithin : Context.Within { ctx with declares := true } { ctx with declares := false } := rfl
  exact hwithin.qualifier source

namespace Query

/-- A statement that is no SELECT or the like is an UPDATE or an INSERT of rows, if it is
    written. -/
theorem draft_of_not_isSelection {q : Query} (h : q.isSelection = false) (ctx : Context) :
    q.draft ctx =
      if q.isBlank then empty
      else
        match q.updateTable with
        | some table => Clause.update (q.innerContext ctx) q table q.parts
        | none => Clause.insertion (q.innerContext ctx) q q.parts := by
  show Clause.statement ctx q q.parts = _
  simp only [Clause.statement]
  split
  · rfl
  · next hblank =>
    cases hupdate : q.updateTable with
    | some table => rfl
    | none =>
      have hrows : (q.inserts && !q.rows.isEmpty) = true := by
        simpa [isSelection, hblank, hupdate] using h
      exact if_pos hrows

/-- A statement that is asked to declare its alias shows it. -/
theorem draft_shows (ctx : Context) (q : Query) :
    Shows (q.declared ctx.scope) (q.draft { ctx with declares := true })
      (q.draft { ctx with declares := false }) := by
  rw [declared]
  split
  · next h =>
    rw [draft_of_isSelection h, draft_of_isSelection h]
    have hdeclared := Shows.declaration ctx ((ctx.scope.enter q.scope).resolve q.slot)
    exact ((hdeclared.before _).behind _).behind _
  · next h =>
    -- nothing of it is asked for an alias
    have hdraft := draft_of_not_isSelection (by simpa using h : q.isSelection = false)
    rw [hdraft, hdraft]
    exact .refl _

end Query

/-- A set operation whose first part shows aliases shows those of its statements as well. -/
theorem operandsDraft_shows (ctx : Context) (count : Nat) {main main' a a' : Draft}
    {xs : List String} (operands : List Operand) (ha : Shows xs a a')
    (hmain : xs = [] → main.plain = main'.plain) :
    Shows (xs ++ operands.flatMap fun o => o.query.declared ctx.scope)
      (a ++ operandsDraft { ctx with declares := true } count main operands)
      (a' ++ operandsDraft { ctx with declares := false } count main' operands) := by
  induction operands generalizing xs a a' with
  | nil => exact ha.append (.refl _)
  | cons o rest ih =>
    obtain ⟨operator, query⟩ := o
    have hother := query.draft_shows ctx
    show Shows (xs ++ (query.declared ctx.scope ++ _)) (a ++ if _ then _ else _)
      (a' ++ if _ then _ else _)
    split
    · -- neither is written to its end; the operands that are shown may differ in their aliases
      refine .stopped ?_ ?_ ?_
      · exact fun h => unequal_stop _ _ _ (stop_append h).2
      · exact fun h => unequal_stop _ _ _ (stop_append h).2
      · intro hnames
        obtain ⟨hxs, hrest⟩ := List.append_eq_nil_iff.mp hnames
        obtain ⟨hquery, -⟩ := List.append_eq_nil_iff.mp hrest
        rw [plain_append, plain_append, ha.same hxs]
        exact congrArg (_ ++ ·) (plain_unequal ctx (hmain hxs) (hother.same hquery))
    · have hregroup : ∀ first other operands : Draft,
          first ++ (space ++ raw operator.text ++ space ++ other ++ operands) =
            first ++ (space ++ raw operator.text ++ space ++ other) ++ operands :=
        fun _ _ _ => (append_assoc _ _ _).symm
      rw [hregroup, hregroup, ← List.append_assoc]
      refine ih (ha.append (hother.behind _)) ?_
      intro hnames
      exact hmain (List.append_eq_nil_iff.mp hnames).1

/-! ## Terms show the aliases of their operands

One theorem for each function that drafts a part of a term, by recursion over the part. -/

mutual

/-- Asked for its alias, a term shows it, and the aliases of what is nested in it, and changes in
    nothing else. -/
theorem Term.draft_shows (ctx : Context) :
    (t : Term) → Shows (t.shown ctx.scope) (t.draft { ctx with declares := true })
      (t.draft { ctx with declares := false })
  | ⟨expr, aliasName⟩ => Expr.draft_shows ctx aliasName expr

/-- So does an expression, with the alias that it is given. -/
theorem Expr.draft_shows (ctx : Context) (aliasName : Option String) :
    (e : Expr) → Shows (e.shownInside ctx.scope ++ e.declared ctx.scope aliasName)
      (e.draft { ctx with declares := true } aliasName)
      (e.draft { ctx with declares := false } aliasName)
  | .literal sql => .refl _
  | .value v mayBind => .refl _
  | .field name source => by
    have hqualifier := Source.qualifier_declares ctx source
    show Shows ([] ++ declaredNames aliasName) (Source.qualifier _ source ++ _ ++ _) _
    rw [hqualifier]
    exact (Shows.refl _).append (.declaration ctx aliasName)
  | .star source => by
    have hqualifier := Source.qualifier_declares ctx source
    show Shows [] (Source.qualifier _ source ++ _) _
    rw [hqualifier]
    exact .refl _
  | .tuple items => (termDrafts_shows ctx items).commas.parens.append (.refl _)
  | .array items => by
    have hitems := (termDrafts_shows ctx items).array ctx.dialect
    show Shows (termsShown ctx.scope items ++ [])
      (match if ctx.binding then constants? items else none with
      | some values => hole (.list values) ctx.dialect
      | none => ctx.dialect.array (termDrafts _ items) ++ ctx.aliasDraft aliasName)
      (match if ctx.binding then constants? items else none with
      | some values => hole (.list values) ctx.dialect
      | none => ctx.dialect.array (termDrafts _ items) ++ ctx.aliasDraft aliasName)
    split
    · next values hvalues =>
      have hconstants : constants? items = some values := by
        split at hvalues
        · exact hvalues
        · exact nomatch hvalues
      rw [termsShown_of_constants hconstants]
      exact .refl _
    · exact hitems.append (.refl _)
  | .call c => (Call.draft_shows ctx c).append (.declaration ctx aliasName)
  | .case branches otherwise => by
    show Shows ([] ++ declaredNames aliasName) (if _ then _ else _) (if _ then _ else _)
    split
    · exact .fail _
    · exact (Shows.refl _).append (.declaration ctx aliasName)
  | .interval i => .refl _
  | .document d => .refl _
  | .arithmetic op left right => by
    have hleft := (Term.draft_shows ctx left).parensIf (op.bracketsLeft left.arithmeticOp?)
    have hright := (Term.draft_shows ctx right).parensIf (op.bracketsRight right.arithmeticOp?)
    exact ((hleft.before _).append hright).append (.declaration ctx aliasName)
  | .negative operand => ((Term.draft_shows ctx operand).behind _).only
  | .parameter p => .refl _
  | .comparison op left right =>
    (((Term.draft_shows ctx left).before _).append (Term.draft_shows ctx right)).append
      (.declaration ctx aliasName)
  | .combination op left right => by
    have hleft := Term.draft_shows { ctx with bracketed := left.differsFrom op } left
    have hright := Term.draft_shows { ctx with bracketed := right.differsFrom op } right
    have hfirst := ((hleft.before space).before (word op.keyword)).before space
    exact ((hfirst.append hright).parensIf ctx.bracketed).only
  | .chain first second left middle right => by
    have hleft := (Term.draft_shows ctx left).before (token (.operator first.text))
    have hmiddle := (hleft.append (Term.draft_shows ctx middle)).before
      (token (.operator second.text))
    exact (hmiddle.append (Term.draft_shows ctx right)).append (.declaration ctx aliasName)
  | .membership operand container negated => by
    have hcontainer := Term.draft_shows { ctx with nested := true } container
    have hoperand := ((((Term.draft_shows ctx operand).before space).before
      (when negated (word .not ++ space))).before (word .in_)).before space
    exact (hoperand.append hcontainer).append (.refl _)
  | .between operand lower upper => by
    have hlower := (Term.draft_shows ctx lower).clause [.between]
    have hupper := (Term.draft_shows ctx upper).clause [.and]
    exact (((Term.draft_shows ctx operand).append hlower).append hupper).append (.refl _)
  | .period operand start stop => by
    have hstart := (Term.draft_shows ctx start).clause [.from_]
    have hto := ((((Term.draft_shows ctx operand).append hstart).before space).before
      (raw "TO")).before space
    exact (hto.append (Term.draft_shows ctx stop)).append (.refl _)
  | .bitAnd operand mask =>
    (((Term.draft_shows ctx operand).before _).before _).parens.append (.refl _)
  | .isNull operand => (((Term.draft_shows ctx operand).before _).before _).append (.refl _)
  | .not operand => by
    have hoperand := Term.draft_shows { ctx with bracketed := true } operand
    exact (hoperand.behind _).append (.refl _)
  | .all operand => (((Term.draft_shows ctx operand).before _).before _).append (.refl _)
  | .jsonPath column path =>
    ((Term.draft_shows ctx column).jsonPath ctx.dialect path).append (.declaration ctx aliasName)
  | .subquery q => q.draft_shows ctx
  | .setOperation s => by
    have hinside := (SetOperation.inside_shows ctx s).parensIf ctx.nested
    show Shows _ (s.draft _) (s.draft _)
    rw [s.draft_eq, s.draft_eq]
    exact hinside.append (.declaration ctx _)
  | .insertedValue field => ((Term.draft_shows ctx field).parens.behind _).only
  | .index name => .refl _
  | .pseudoColumn name => .refl _
  | .atTimeZone operand zone isInterval =>
    ((((((Term.draft_shows ctx operand).before _).before _).before _).before _).before _).append
      (.refl _)
  | .empty => .refl _

/-- Terms do, one by one. -/
theorem termDrafts_shows (ctx : Context) :
    (ts : List Term) → ShowsAll (termsShown ctx.scope ts)
      (termDrafts { ctx with declares := true } ts) (termDrafts { ctx with declares := false } ts)
  | [] => .nil
  | t :: rest => .cons (Term.draft_shows ctx t) (termDrafts_shows ctx rest)

/-- A call does, with what stands behind it. -/
theorem Call.draft_shows (ctx : Context) :
    (c : Call) → Shows (c.shownInside ctx.scope) (c.draft { ctx with declares := true })
      (c.draft { ctx with declares := false })
  | ⟨name, arguments, schema, suffix, bare, aggregate, distinct, filter, window, frame⟩ => by
    have hsuffix := suffixDraft_shows ctx suffix
    have hfilter := filterDraft_shows ctx filter
    have hwindow := windowDraft_shows ctx frame window
    show Shows (if _ then _ else _) (if _ then _ else _) (if _ then _ else _)
    split
    · exact .refl _
    · exact (((hsuffix.behind _).parens.behind _).append hfilter).append hwindow

theorem suffixDraft_shows (ctx : Context) :
    (s : Option CallSuffix) → Shows (suffixShown ctx.scope s)
      (suffixDraft { ctx with declares := true } s) (suffixDraft { ctx with declares := false } s)
  | none => .refl _
  | some (.words _) => .refl _
  | some .ignoreNulls => .refl _
  | some (.source t) => (Term.draft_shows ctx t).clause _

theorem filterDraft_shows (ctx : Context) :
    (t : Option Term) → Shows (optionShown ctx.scope t)
      (filterDraft { ctx with declares := true } t) (filterDraft { ctx with declares := false } t)
  | none => .refl _
  | some t => ((Term.draft_shows ctx t).behind _).parens.behind _

theorem windowDraft_shows (ctx : Context) (frame : Option Frame) :
    (w : Option Window) → Shows (windowShown ctx.scope w)
      (windowDraft { ctx with declares := true } frame w)
      (windowDraft { ctx with declares := false } frame w)
  | none => .refl _
  | some ⟨partition, orderings⟩ =>
    ShowsAll.window (termDrafts_shows ctx partition)
      (orderingDrafts_shows ctx (fun _ => rfl) orderings) frame

/-- Orders do; those that are written short show nothing. -/
theorem orderingDrafts_shows (ctx : Context) {short : String → Option Draft}
    {selected : List String} (hs : ∀ name, (short name).isSome = selected.contains name) :
    (os : List Ordering) → ShowsAll (orderingsShown ctx.scope selected os)
      (orderingDrafts { ctx with declares := true } short os)
      (orderingDrafts { ctx with declares := false } short os)
  | [] => .nil
  | ⟨term, _⟩ :: rest =>
    .cons ((Shows.getD hs (Term.draft_shows ctx term) term.knownAs).before _)
      (orderingDrafts_shows ctx hs rest)

/-- A set operation shows the aliases of its operands, between its parentheses. -/
theorem SetOperation.inside_shows (ctx : Context) :
    (s : SetOperation) → Shows (s.shownInside ctx.scope) (s.inside { ctx with declares := true })
      (s.inside { ctx with declares := false })
  | ⟨base, operands, orderings, limit, offset, slot⟩ => by
    -- the statements and the order are written in the dialect of the first statement
    let own := { ctx with dialect := base.dialect, identQuote := base.dialect.identQuote }
    let operandCtx := { own with nested := base.dialect.wrapsOperands }
    have hbase := base.draft_shows operandCtx
    have hstatements := operandsDraft_shows operandCtx base.selects.length operands hbase
      hbase.same
    have hnamed : ∀ name, (if base.selectedAliases.contains name then some (token (.ident name))
        else none : Option Draft).isSome = base.selectedAliases.contains name := by
      intro name
      split
      · next h => exact h.symm
      · next h => simpa using h
    have horder := (orderingDrafts_shows own hnamed orderings).unlessNone [.orderBy]
    exact (hstatements.append horder).before _

end

end SqlCompose
