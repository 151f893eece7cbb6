import SqlCompose.Proofs.Congruence
import SqlCompose.Proofs.Numbering

/-! # Closures — properties of drafts that composition keeps

    Some properties hold of what is put together from drafts if they hold of these: that a draft is
    written to its end, say, or stops for certain reasons only. If such a property holds of plain
    drafts, it holds of everything around the terms of a statement. WHERE, PREWHERE, HAVING and ON
    are not plain: they say that a criterion follows, and what holds of them depends on it.

    * `CriterionPlace`, `CriterionPlace.introduce` — the places of criteria, with the words for
      each.
    * `Draft.isPlain` — drafts that are written to their end and have no word for a criterion.
    * `Draft.Closure` — the properties in question.
    * `Draft.Closure.clause`, `join`, `pagination` and their like — what is put together from drafts
      with the property has it.
    * `Draft.Closure.locking`, `frame` and their like — drafts that hold no terms have it.
    * `Draft.complete` — the property that a draft is written to its end. -/

namespace SqlCompose

open Draft

/-! ## Words for criteria -/

/-- Where a statement or a call has a criterion. -/
inductive CriterionPlace
  | rows | priorRows | groups
  /-- For the rows that are joined. -/
  | joined
  /-- For the rows that are in conflict. -/
  | conflicts
  /-- For the rows that are updated because of a conflict. -/
  | updates
  /-- For the rows that an aggregate counts. -/
  | aggregate
deriving DecidableEq

namespace CriterionPlace

/-- The word in front of a criterion. -/
def keyword : CriterionPlace → Keyword
  | priorRows => .prewhere
  | groups => .having
  | joined => .on
  | _ => .where_

/-- Whether the writer leaves out a criterion that asks for nothing, with its word. -/
def isGuarded : CriterionPlace → Bool
  | joined | aggregate => false
  | _ => true

/-- A criterion with the words for its place in front. -/
def introduce : CriterionPlace → Draft → Draft
  | aggregate, d => space ++ word .filter ++ parens (word .where_ ++ space ++ d)
  | place, d => Draft.clause [place.keyword] d

end CriterionPlace

/-- Whether the word stands in front of criteria. -/
def Keyword.introduces : Keyword → Bool
  | where_ | prewhere | having | on => true
  | _ => false

/-- Whether the token is no word for a criterion. -/
def Token.isMute : Token → Bool
  | keyword k => !k.introduces
  | _ => true

/-- Whether the piece is no word for a criterion. -/
def Piece.isMute : Piece → Bool
  | token t => t.isMute
  | hole _ _ => true

namespace Draft

/-- Whether no word for a criterion is in the draft. -/
def isMute (d : Draft) : Bool := d.pieces.all Piece.isMute

/-- Whether the draft is written to its end, without a word for a criterion. -/
def isPlain (d : Draft) : Bool := d.stop.isNone && d.isMute

/-- Tokens are mute as a draft if each of them is. -/
theorem isMute_tokens (ts : List Token) : (tokens ts).isMute = ts.all Token.isMute := List.all_map

/-- What is plain is written to its end. -/
theorem complete_of_isPlain {d : Draft} (h : d.isPlain = true) : d.stop = none := by
  obtain ⟨hstop, -⟩ := (Bool.and_eq_true _ _).mp h
  exact Option.isNone_iff_eq_none.mp hstop

/-- What is plain has no word for a criterion. -/
theorem isMute_of_isPlain {d : Draft} (h : d.isPlain = true) : d.isMute = true :=
  ((Bool.and_eq_true _ _).mp h).2

/-- A property of drafts that plain drafts have and that composition keeps. -/
structure Closure (holds : Draft → Prop) : Prop where
  plain  : ∀ {d : Draft}, d.isPlain = true → holds d
  append : ∀ {a b : Draft}, holds a → holds b → holds (a ++ b)

namespace Closure

variable {holds : Draft → Prop}

/-! ### Drafts that may be missing -/

/-- A draft that is missing. -/
theorem none : ∀ d ∈ (Option.none : Option Draft), holds d :=
  fun d hd => absurd hd (Option.not_mem_none d)

/-- A draft that is there. -/
theorem some {d : Draft} (hd : holds d) : ∀ e ∈ Option.some d, holds e := by
  intro e he
  obtain rfl := Option.some.inj he
  exact hd

/-- A shorter draft or else the full one. -/
theorem getD {short : Option Draft} {d : Draft} (hs : ∀ s ∈ short, holds s) (hd : holds d) :
    holds (short.getD d) := by
  cases short with
  | none => exact hd
  | some s => exact hs s rfl

/-- Drafts in a list that is there only under a condition. -/
theorem onlyIf {condition : Prop} [Decidable condition] {ds : List Draft}
    (hds : ∀ d ∈ ds, holds d) : ∀ d ∈ (if condition then [] else ds), holds d := by
  split
  · exact List.forall_mem_nil _
  · exact hds

variable (h : Closure holds) {a b d : Draft} {ds : List Draft}
include h

/-! ### Composition -/

/-- Nothing at all. -/
theorem empty : holds empty := h.plain rfl

/-- What comes first is plain. -/
theorem behind (ha : a.isPlain = true) (hb : holds b) : holds (a ++ b) := h.append (h.plain ha) hb

/-- What follows is plain. -/
theorem before (ha : holds a) (hb : b.isPlain = true) : holds (a ++ b) := h.append ha (h.plain hb)

/-- Between parentheses. -/
theorem parens (hd : holds d) : holds (parens d) := h.before (h.behind rfl hd) rfl

/-- Between brackets. -/
theorem brackets (hd : holds d) : holds (brackets d) := h.before (h.behind rfl hd) rfl

/-- Between parentheses, if they are asked for. -/
theorem parensIf (condition : Bool) (hd : holds d) : holds (parensIf condition d) := by
  cases condition with
  | false => exact hd
  | true => exact h.parens hd

/-- Nothing, or the draft. -/
theorem when (condition : Bool) (hd : holds d) : holds (when condition d) := by
  cases condition with
  | false => exact h.empty
  | true => exact hd

/-- A clause whose words are for no criterion. -/
theorem clause {ks : List Keyword} (hks : (space ++ words ks ++ space).isPlain = true)
    (hd : holds d) : holds (clause ks d) := h.behind hks hd

/-- Drafts one after the other, with a plain separator. -/
theorem join {separator : Draft} (hseparator : separator.isPlain = true)
    (hds : ∀ d ∈ ds, holds d) : holds (join separator ds) := by
  induction ds with
  | nil => exact h.empty
  | cons first rest ih =>
    obtain ⟨hfirst, hrest⟩ := List.forall_mem_cons.mp hds
    cases rest with
    | nil => exact hfirst
    | cons second rest => exact h.append (h.before hfirst hseparator) (ih hrest)

/-- Drafts one after the other, with commas. -/
theorem commas (hds : ∀ d ∈ ds, holds d) : holds (commas ds) := h.join rfl hds

/-- Nothing under a condition, else the draft. -/
theorem emptyOr (condition : Prop) [Decidable condition] (hd : holds d) :
    holds (if condition then Draft.empty else d) := by
  split
  · exact h.empty
  · exact hd

/-- A clause that is there only if it has parts. -/
theorem unlessNone {ks : List Keyword} (hks : (space ++ words ks ++ space).isPlain = true)
    (hds : ∀ d ∈ ds, holds d) : holds (Clause.unlessNone ks ds) :=
  h.emptyOr _ (h.clause hks (h.commas hds))

/-! ### Drafts without terms -/

/-- The schemas in front of a table. -/
theorem schemaQualifier (s : Option Schema) : holds (Schema.qualifier s) := by
  cases s with
  | none => exact h.empty
  | some s =>
    refine h.before (h.plain ?_) rfl
    show (tokens s.tokens).isMute = true
    rw [isMute_tokens, List.all_eq_true]
    intro t ht
    rcases Token.mem_joined ht with rfl | ⟨ts, hts, hin⟩
    · rfl
    · obtain ⟨name, -, rfl⟩ := List.mem_map.mp hts
      obtain rfl := List.mem_singleton.mp hin
      rfl

/-- The name in front of a column. -/
theorem sourceQualifier (ctx : Context) (s : Option Source) : holds (Source.qualifier ctx s) := by
  simp only [Source.qualifier]
  split
  · exact h.plain rfl
  · exact h.empty

/-- An alias, with AS or without. -/
theorem aliasDraft (ctx : Context) (aliasName : Option String) :
    holds (ctx.aliasDraft aliasName) := by
  cases aliasName with
  | none => exact h.empty
  | some name =>
    have has : holds (Draft.when ctx.asKeyword (word .as ++ space)) := h.when _ (h.plain rfl)
    exact h.emptyOr _ (h.before (h.behind rfl has) rfl)

/-- An alias where it is declared. -/
theorem declaration (ctx : Context) (aliasName : Option String) :
    holds (ctx.declaration aliasName) := by
  simp only [Context.declaration]
  split
  · exact h.aliasDraft ctx aliasName
  · exact h.empty

/-- The direction of an order. -/
theorem directionSuffix (direction : Option Direction) : holds (Direction.suffix direction) := by
  cases direction with
  | none => exact h.empty
  | some d => exact h.plain rfl

/-- A frame is written in words for rows. -/
theorem frame (f : Frame) : holds (Draft.tokens f.tokens) := by
  have edge : ∀ e : Edge, e.tokens.all Token.isMute = true := by
    rintro ((_ | _ | n) | (_ | _ | n) | _) <;> rfl
  refine h.plain ?_
  show (tokens f.tokens).isMute = true
  rw [isMute_tokens]
  obtain ⟨kind, lower, upper⟩ := f
  have hkind : (Token.keyword kind.keyword).isMute = true := by cases kind <;> rfl
  cases upper with
  | none =>
    rw [Frame.tokens, List.all_append, edge, Bool.and_true]
    exact Bool.and_eq_true_iff.mpr ⟨hkind, rfl⟩
  | some upper =>
    simp only [Frame.tokens, List.all_append, edge, Bool.and_true]
    exact Bool.and_eq_true_iff.mpr ⟨Bool.and_eq_true_iff.mpr ⟨hkind, rfl⟩, rfl⟩

/-- The words before a joined source. -/
theorem joinHead (kind : JoinKind) : holds (Clause.joinHead kind) :=
  h.before (h.before (h.when _ (h.plain rfl)) rfl) rfl

/-- Names, each a draft of its own. -/
theorem idents (names : List String) :
    ∀ d ∈ names.map fun name => Draft.token (.ident name), holds d := by
  intro d hd
  obtain ⟨name, -, rfl⟩ := List.mem_map.mp hd
  exact h.plain rfl

/-- A hint with the names of indexes. -/
theorem indexHint {verb : Keyword} (hverb : verb.introduces = false) (names : List String) :
    holds (Clause.indexHint verb names) := by
  have hhead : (space ++ words [verb, .index] ++ space).isPlain = true := by
    show (!verb.introduces && true) = true
    rw [hverb]
    rfl
  exact h.when _ (h.behind hhead (h.parens (h.commas (h.idents names))))

/-- A lock. -/
theorem locking (lock : Option Lock) : holds (Clause.locking lock) := by
  cases lock with
  | none => exact h.empty
  | some lock =>
    have hstrength : holds (Draft.when lock.noKey (word .noKey ++ space)) := h.when _ (h.plain rfl)
    refine h.append (h.append (h.before (h.behind rfl hstrength) rfl) ?_) ?_
    · exact h.emptyOr _ (h.clause rfl (h.join rfl (h.idents lock.tables)))
    · split
      · exact h.plain rfl
      · exact h.when _ (h.plain rfl)

/-- A whole number is written or bound. -/
theorem int (ctx : Context) (n : Int64) (mayBind : Bool) :
    holds ((Value.int n).draft ctx mayBind) := by
  simp only [Value.draft]
  split
  · exact h.plain rfl
  · exact h.plain rfl

/-- A limit that is a constant of its statement. -/
theorem limit (ctx : Context) (n : Option Int64) : holds (Clause.limit ctx n) := by
  cases n with
  | none => exact h.empty
  | some n => exact h.clause rfl (h.int ctx n true)

/-! ### What dialects put together -/

/-- An array of items that have the property. -/
theorem array (dialect : Dialect) (hds : ∀ d ∈ ds, holds d) : holds (dialect.array ds) := by
  have hitems := h.brackets (h.commas hds)
  cases dialect with
  | postgres =>
    show holds (if ds.isEmpty then _ else _)
    split
    · exact h.plain rfl
    · exact h.behind rfl hitems
  | _ => exact hitems

/-- A path into the JSON document of a column. -/
theorem jsonPath (dialect : Dialect) (hd : holds d) (path : List PathStep) :
    holds (dialect.jsonPath d path) := by
  have harrows : (tokens (PathStep.arrows path)).isPlain = true := by
    show (tokens (PathStep.arrows path)).isMute = true
    rw [isMute_tokens]
    fun_induction PathStep.arrows path with
    | case1 => rfl
    | case2 step => rfl
    | case3 step rest _ ih => exact ih
  cases dialect with
  | mssql => exact h.behind rfl (h.parens (h.before (h.before (h.before hd rfl) rfl) rfl))
  | mysql => exact h.before hd rfl
  | sqlite => exact h.before hd rfl
  | _ => exact h.before hd harrows

/-- A page, however the dialect writes it. -/
theorem pagination (dialect : Dialect) {limit offset : Option Draft} (ordered : Bool)
    (hlimit : ∀ d ∈ limit, holds d) (hoffset : ∀ d ∈ offset, holds d) :
    holds (dialect.pagination limit offset ordered) := by
  have hskip : ∀ {d : Draft}, holds d → holds (Dialect.offsetRows d) :=
    fun hd => h.before (h.before (h.clause rfl hd) rfl) rfl
  have htake : ∀ {d : Draft}, holds d → holds (Dialect.fetchRows d) :=
    fun hd => h.before (h.before (h.clause rfl hd) rfl) rfl
  have horder : holds (Draft.when (!ordered) Dialect.anyOrder) := h.when _ (h.plain rfl)
  -- MSSQL and Oracle skip rows and fetch rows, the others write LIMIT and OFFSET
  cases limit with
  | none =>
    cases offset with
    | none => cases dialect <;> exact h.plain rfl
    | some m =>
      have hm := hoffset m rfl
      cases dialect with
      | mssql => exact h.before (h.append horder (hskip hm)) rfl
      | oracle => exact h.before (hskip hm) rfl
      | _ => exact h.clause rfl hm
  | some n =>
    have hn := hlimit n rfl
    cases offset with
    | none =>
      cases dialect with
      | mssql => exact h.append (h.append horder (hskip (h.plain rfl))) (htake hn)
      | oracle => exact htake hn
      | _ => exact h.before (h.clause rfl hn) rfl
    | some m =>
      have hm := hoffset m rfl
      cases dialect with
      | mssql => exact h.append (h.append horder (hskip hm)) (htake hn)
      | oracle => exact h.append (hskip hm) (htake hn)
      | _ => exact h.append (h.clause rfl hn) (h.clause rfl hm)

/-- The page of a statement: its numbers are constants. -/
theorem page (ctx : Context) (q : Query) : holds (Clause.pagination ctx q) := by
  have hcount (n : Option Int64) :
      ∀ d ∈ n.map fun n => Value.draft ctx (.int n) true, holds d := by
    intro d hd
    obtain ⟨n, -, rfl⟩ := Option.map_eq_some_iff.mp hd
    exact h.int ctx n true
  exact h.pagination q.dialect _ (hcount q.limit) (hcount q.offset)

end Closure

/-- Drafts that are written to their end. -/
theorem complete : Closure fun d => d.stop = Option.none where
  plain := complete_of_isPlain
  append := complete_append

end Draft

end SqlCompose
