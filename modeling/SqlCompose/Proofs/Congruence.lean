import Mathlib.Data.List.Forall2
import SqlCompose.Clause

/-! # Congruence — relations between drafts that composition respects

    Two writings of one tree are compared by a relation between drafts. If it relates equal tokens
    and is kept by `++` and by brackets, it is kept by everything that drafts are put together with.

    * `Draft.Congruence` — the relations in question. Tokens that are brackets never stand alone, so
      nothing is asked about them.
    * `Draft.Congruence.clause`, `join`, `pagination` and their like — what is put together from
      related drafts is related.
    * `Draft.Congruence.locking`, `frame` and their like — drafts that hold no terms are related to
      themselves. -/

namespace SqlCompose

/-- Whether the token opens or closes something. -/
def Token.isBracket : Token → Bool
  | .lparen | .rparen | .lbracket | .rbracket => true
  | _ => false

/-- What stands in a joined list stood in one of the lists or is the separator. -/
theorem Token.mem_joined {separator t : Token} {lists : List (List Token)}
    (h : t ∈ Token.joined separator lists) : t = separator ∨ ∃ ts ∈ lists, t ∈ ts := by
  fun_induction Token.joined separator lists with
  | case1 => exact nomatch h
  | case2 ts => exact Or.inr ⟨ts, List.mem_cons_self .., h⟩
  | case3 ts rest _ ih =>
    rcases List.mem_append.mp h with hts | hrest
    · exact Or.inr ⟨ts, List.mem_cons_self .., hts⟩
    · rcases List.mem_cons.mp hrest with hsep | hin
      · exact Or.inl hsep
      · rcases ih hin with hsep | ⟨us, hus, ht⟩
        · exact Or.inl hsep
        · exact Or.inr ⟨us, List.mem_cons_of_mem _ hus, ht⟩

namespace Draft

/-- A relation between drafts that composition respects. -/
structure Congruence (rel : Draft → Draft → Prop) : Prop where
  empty    : rel empty empty
  token    : ∀ t : Token, t.isBracket = false → rel (token t) (token t)
  fail     : ∀ e : BuildError, rel (fail e) (fail e)
  append   : ∀ {a a' b b' : Draft}, rel a a' → rel b b' → rel (a ++ b) (a' ++ b')
  parens   : ∀ {d d' : Draft}, rel d d' → rel (parens d) (parens d')
  brackets : ∀ {d d' : Draft}, rel d d' → rel (brackets d) (brackets d')

namespace Congruence

/-- Drafts that a map makes equal, if it keeps composition. -/
theorem of_map {f : Draft → Draft} (hf : ∀ a b, f (a ++ b) = f a ++ f b) :
    Congruence fun d d' => f d = f d' := by
  have happend : ∀ {a a' b b' : Draft}, f a = f a' → f b = f b' → f (a ++ b) = f (a' ++ b') := by
    intro a a' b b' ha hb
    rw [hf, hf, ha, hb]
  exact
    { empty := rfl
      token := fun _ _ => rfl
      fail := fun _ => rfl
      append := happend
      parens := fun hd => happend (happend rfl hd) rfl
      brackets := fun hd => happend (happend rfl hd) rfl }

variable {rel : Draft → Draft → Prop} (h : Congruence rel)
include h

/-! ## Composition -/

theorem space : rel space space := h.token .space rfl

theorem word (k : Keyword) : rel (word k) (word k) := h.token (.keyword k) rfl

theorem raw (text : String) : rel (raw text) (raw text) := h.token (.raw text) rfl

/-- A keyword behind a draft, with a blank before it. -/
theorem beforeWord {d d' : Draft} (hd : rel d d') (k : Keyword) :
    rel (d ++ Draft.space ++ Draft.word k) (d' ++ Draft.space ++ Draft.word k) :=
  h.append (h.append hd h.space) (h.word k)

/-- An operator between two drafts. -/
theorem operator {a a' b b' : Draft} (ha : rel a a') (text : String) (hb : rel b b') :
    rel (a ++ Draft.token (.operator text) ++ b) (a' ++ Draft.token (.operator text) ++ b') :=
  h.append (h.append ha (h.token (.operator text) rfl)) hb

/-- Tokens that are no brackets are related to themselves. -/
theorem tokens {ts : List Token} (hts : ∀ t ∈ ts, t.isBracket = false) :
    rel (tokens ts) (tokens ts) := by
  induction ts with
  | nil => exact h.empty
  | cons t rest ih =>
    have hrest := ih fun u hu => hts u (List.mem_cons_of_mem _ hu)
    exact h.append (h.token t (hts t (List.mem_cons_self ..))) hrest

/-- So are words. -/
theorem words (ks : List Keyword) : rel (words ks) (words ks) := by
  refine h.tokens ?_
  intro t ht
  rcases Token.mem_joined ht with rfl | ⟨ts, hts, hin⟩
  · rfl
  · obtain ⟨k, -, rfl⟩ := List.mem_map.mp hts
    obtain rfl := List.mem_singleton.mp hin
    rfl

/-- Parentheses are asked for on both sides, or on neither. -/
theorem parensIf {d d' : Draft} (c : Bool) (hd : rel d d') :
    rel (parensIf c d) (parensIf c d') := by
  cases c with
  | false => exact hd
  | true => exact h.parens hd

theorem when {d d' : Draft} (c : Bool) (hd : rel d d') : rel (when c d) (when c d') := by
  cases c with
  | false => exact h.empty
  | true => exact hd

/-- A clause with the same words. -/
theorem clause {d d' : Draft} (ks : List Keyword) (hd : rel d d') :
    rel (clause ks d) (clause ks d') :=
  h.append (h.append (h.append h.space (h.words ks)) h.space) hd

/-- Drafts that are related one by one, with related separators between them. -/
theorem join {separator separator' : Draft} {ds ds' : List Draft} (hs : rel separator separator')
    (hds : List.Forall₂ rel ds ds') : rel (join separator ds) (join separator' ds') := by
  induction hds with
  | nil => exact h.empty
  | cons hd hrest ih =>
    cases hrest with
    | nil => exact hd
    | cons _ _ => exact h.append (h.append hd hs) ih

theorem commas {ds ds' : List Draft} (hds : List.Forall₂ rel ds ds') :
    rel (commas ds) (commas ds') :=
  h.join (h.token .comma rfl) hds

/-- What needs parts is missing on both sides or on neither. -/
theorem ifAny {d d' : Draft} {ds ds' : List Draft} (hds : List.Forall₂ rel ds ds')
    (hd : rel d d') :
    rel (if ds.isEmpty then Draft.empty else d) (if ds'.isEmpty then Draft.empty else d') := by
  cases hds with
  | nil => exact h.empty
  | cons _ _ => exact hd

/-- A draft that is there only if the list is; lists that are related are empty together. -/
theorem whenAny {d d' : Draft} {ds ds' : List Draft} (hds : List.Forall₂ rel ds ds')
    (hd : rel d d') : rel (Draft.when (!ds.isEmpty) d) (Draft.when (!ds'.isEmpty) d') := by
  cases hds with
  | nil => exact h.empty
  | cons _ _ => exact hd

/-- A clause that is there only if it has parts. -/
theorem unlessNone {ds ds' : List Draft} (ks : List Keyword) (hds : List.Forall₂ rel ds ds') :
    rel (Clause.unlessNone ks ds) (Clause.unlessNone ks ds') :=
  h.ifAny hds (h.clause ks (h.commas hds))

/-! ## Drafts without terms -/

/-- The schemas in front of a table. -/
theorem schemaQualifier (s : Option Schema) : rel (Schema.qualifier s) (Schema.qualifier s) := by
  cases s with
  | none => exact h.empty
  | some s =>
    refine h.append (h.tokens ?_) (h.token .dot rfl)
    intro t ht
    rcases Token.mem_joined ht with rfl | ⟨ts, hts, hin⟩
    · rfl
    · obtain ⟨name, -, rfl⟩ := List.mem_map.mp hts
      obtain rfl := List.mem_singleton.mp hin
      rfl

/-- The name in front of a column, if both contexts know the source by it. -/
theorem sourceQualifier {c c' : Context} {s : Option Source}
    (hs : Source.qualifier? c s = Source.qualifier? c' s) :
    rel (Source.qualifier c s) (Source.qualifier c' s) := by
  simp only [Source.qualifier]
  rw [← hs]
  cases Source.qualifier? c s with
  | none => exact h.empty
  | some name => exact h.append (h.token (.ident name) rfl) (h.token .dot rfl)

/-- An alias in contexts that agree about AS. -/
theorem aliasDraft {c c' : Context} (hc : c.asKeyword = c'.asKeyword) (aliasName : Option String) :
    rel (c.aliasDraft aliasName) (c'.aliasDraft aliasName) := by
  cases aliasName with
  | none => exact h.empty
  | some name =>
    have has := h.when c.asKeyword (h.append (h.word .as) h.space)
    have hdeclared := h.append (h.append h.space has) (h.token (.aliasName name) rfl)
    show rel (if name.isEmpty then _ else _) (if name.isEmpty then _ else _)
    rw [← hc]
    split
    · exact h.empty
    · exact hdeclared

/-- An alias in contexts that also agree on whether it is declared. -/
theorem declaration {c c' : Context} (hc : c.asKeyword = c'.asKeyword)
    (hd : c.declares = c'.declares) (aliasName : Option String) :
    rel (c.declaration aliasName) (c'.declaration aliasName) := by
  simp only [Context.declaration]
  rw [← hd]
  cases c.declares with
  | false => exact h.empty
  | true => exact h.aliasDraft hc aliasName

theorem directionSuffix (direction : Option Direction) :
    rel (Direction.suffix direction) (Direction.suffix direction) := by
  cases direction with
  | none => exact h.empty
  | some d => exact h.append h.space (h.raw d.text)

/-- The words before a joined source. -/
theorem joinHead (kind : JoinKind) : rel (Clause.joinHead kind) (Clause.joinHead kind) :=
  h.append (h.append (h.when _ (h.append (h.raw kind.text) h.space)) (h.word .join)) h.space

/-- Names, each a draft of its own. -/
theorem idents (names : List String) :
    List.Forall₂ rel (names.map fun name => Draft.token (.ident name))
      (names.map fun name => Draft.token (.ident name)) := by
  refine List.forall₂_same.mpr ?_
  intro d hd
  obtain ⟨name, -, rfl⟩ := List.mem_map.mp hd
  exact h.token (.ident name) rfl

/-- A hint at indexes. -/
theorem indexHint (verb : Keyword) (names : List String) :
    rel (Clause.indexHint verb names) (Clause.indexHint verb names) :=
  h.when _ (h.append (h.append (h.append h.space (h.words [verb, .index])) h.space)
    (h.parens (h.commas (h.idents names))))

/-- A lock. -/
theorem locking (lock : Option Lock) : rel (Clause.locking lock) (Clause.locking lock) := by
  cases lock with
  | none => exact h.empty
  | some lock =>
    have hhead := h.append (h.append (h.append h.space (h.word .for_)) h.space)
      (h.when lock.noKey (h.append (h.word .noKey) h.space))
    refine h.append (h.append (h.append hhead (h.word .update)) ?_) ?_
    · split
      · exact h.empty
      · exact h.clause [.of] (h.join (h.raw ", ") (h.idents lock.tables))
    · split
      · exact h.append h.space (h.word .nowait)
      · exact h.when _ (h.append h.space (h.word .skipLocked))

/-- A frame is written in keywords, blanks and numbers. -/
theorem frame (f : Frame) : rel (Draft.tokens f.tokens) (Draft.tokens f.tokens) := by
  -- both edges of a frame are written alike
  have edge : ∀ e : Edge, ∀ t ∈ e.tokens, t.isBracket = false := by
    intro e t ht
    rcases e with (_ | _ | n) | (_ | _ | n) | _ <;>
      simp only [Edge.tokens, Edge.distanceTokens, List.mem_cons, List.not_mem_nil, or_false]
        at ht <;>
      rcases ht with rfl | rfl | rfl <;> rfl
  refine h.tokens ?_
  intro t ht
  obtain ⟨kind, lower, upper⟩ := f
  cases upper with
  | none =>
    rcases List.mem_append.mp ht with hhead | hlower
    · simp only [List.mem_cons, List.not_mem_nil, or_false] at hhead
      rcases hhead with rfl | rfl <;> rfl
    · exact edge lower t hlower
  | some upper =>
    rcases List.mem_append.mp ht with ht | hupper
    · rcases List.mem_append.mp ht with ht | hand
      · rcases List.mem_append.mp ht with hhead | hlower
        · simp only [List.mem_cons, List.not_mem_nil, or_false] at hhead
          rcases hhead with rfl | rfl | rfl | rfl <;> rfl
        · exact edge lower t hlower
      · simp only [List.mem_cons, List.not_mem_nil, or_false] at hand
        rcases hand with rfl | rfl | rfl <;> rfl
    · exact edge upper t hupper

/-- A limit or an offset that is always written. -/
theorem count (n : Option Int64) :
    Option.Rel rel (n.map fun n => Draft.token (.int n)) (n.map fun n => Draft.token (.int n)) := by
  cases n with
  | none => exact .none
  | some n => exact .some (h.token (.int n) rfl)

/-! ## What dialects put together -/

/-- An array of related items. -/
theorem array (d : Dialect) {ds ds' : List Draft} (hds : List.Forall₂ rel ds ds') :
    rel (d.array ds) (d.array ds') := by
  have hplain := h.brackets (h.commas hds)
  cases d with
  | postgres =>
    cases hds with
    | nil => exact h.raw _
    | cons _ _ => exact h.append (h.word .array) hplain
  | _ => exact hplain

/-- A path into related documents. -/
theorem jsonPath (d : Dialect) {column column' : Draft} (hcolumn : rel column column')
    (path : List PathStep) : rel (d.jsonPath column path) (d.jsonPath column' path) := by
  -- three dialects have a way of their own, the others write arrows
  have harrows : ∀ t ∈ PathStep.arrows path, t.isBracket = false := by
    intro t ht
    fun_induction PathStep.arrows path with
    | case1 => exact nomatch ht
    | case2 step => rw [List.mem_singleton.mp ht]; rfl
    | case3 step rest _ ih =>
      rcases List.mem_cons.mp ht with rfl | hin
      · rfl
      · exact ih hin
  have hchain := h.append hcolumn (h.tokens harrows)
  cases d with
  | mysql => exact h.append hcolumn (h.raw _)
  | sqlite => exact h.append hcolumn (h.raw _)
  | mssql =>
    exact h.append (h.token (.function "JSON_VALUE") rfl)
      (h.parens (h.append (h.append (h.append hcolumn (h.token .comma rfl)) h.space) (h.raw _)))
  | _ => exact hchain

theorem offsetRows {n n' : Draft} (hn : rel n n') :
    rel (Dialect.offsetRows n) (Dialect.offsetRows n') :=
  h.append (h.append (h.clause [.offset] hn) h.space) (h.word .rows)

theorem fetchRows {n n' : Draft} (hn : rel n n') :
    rel (Dialect.fetchRows n) (Dialect.fetchRows n') :=
  h.append (h.append (h.clause [.fetch, .next] hn) h.space) (h.words [.rows, .only])

/-- The order that stands for none. -/
theorem anyOrder : rel Dialect.anyOrder Dialect.anyOrder :=
  h.clause [.orderBy] (h.parens (h.append (h.append (h.word .select) h.space)
    (h.token (.int 0) rfl)))

/-- A clause for what may be missing. -/
theorem optional {n n' : Option Draft} {f : Draft → Draft}
    (hf : ∀ {d d' : Draft}, rel d d' → rel (f d) (f d')) :
    Option.Rel rel n n' →
      rel (match n with | some d => f d | none => Draft.empty)
        (match n' with | some d => f d | none => Draft.empty) := by
  intro hn
  cases hn with
  | none => exact h.empty
  | some hd => exact hf hd

/-- A page with related numbers, in the same dialect. -/
theorem pagination (d : Dialect) {limit limit' offset offset' : Option Draft} (ordered : Bool)
    (hlimit : Option.Rel rel limit limit') (hoffset : Option.Rel rel offset offset') :
    rel (d.pagination limit offset ordered) (d.pagination limit' offset' ordered) := by
  have hfetch := h.optional h.fetchRows hlimit
  have hplain := h.append (h.optional (h.clause [.limit]) hlimit)
    (h.optional (h.clause [.offset]) hoffset)
  have horder := h.when (!ordered) h.anyOrder
  cases d with
  -- rows are skipped before they are taken
  | oracle => exact h.append (h.optional h.offsetRows hoffset) hfetch
  | mssql =>
    cases hoffset with
    | some ho =>
      cases hlimit with
      | some hl => exact h.append (h.append horder (h.offsetRows ho)) (h.fetchRows hl)
      | none => exact h.append (h.append horder (h.offsetRows ho)) h.empty
    | none =>
      have hzero := h.offsetRows (h.token (.int 0) rfl)
      cases hlimit with
      | some hl => exact h.append (h.append horder hzero) (h.fetchRows hl)
      | none => exact h.empty
  | _ => exact hplain

end Congruence

end Draft

end SqlCompose
