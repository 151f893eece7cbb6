import SqlCompose.Proofs.Outlines
import SqlCompose.Proofs.WrittenLists

/-! # Pages — orders, limits and offsets in the dialect of SQL Server

    SQL Server skips rows only behind an order, and takes rows only behind rows that are skipped. So
    a limit needs an offset and both need an order, whether there are any or not. Statements and set
    operations put order and page together each in their own way, and what they are put together
    from may have orders and pages of its own. What a statement starts of its own is read off its
    outline.

    * `Draft.pageWords`, `Draft.Pageless` — the words that orders and parts of pages start with.
    * `Clause.leading_pageless` and its like — all other clauses start none of their own.
    * `Paging.tokens`, `Paging.words` — a legal order and page, and the words it starts with.
    * `Dialect.pageWords_mssqlPage`, `Dialect.writes_mssqlPage` — what is put together for any terms
      to sort by, any limit and any offset is legal.
    * `Draft.writesPage_of_enclosed` — so is a statement with it in one place.
    * `Dialect.pages_legal` — the theorem. -/

namespace SqlCompose

open Draft

/-! ## The words of a page -/

/-- Whether an order or a part of a page starts with the word. -/
def Keyword.startsPage : Keyword → Bool
  | orderBy | limit | offset | fetch => true
  | _ => false

/-- The word of the piece, if an order or a part of a page starts with it. -/
def Piece.pageWord? : Piece → Option Keyword
  | token (.keyword k) => if k.startsPage then some k else none
  | _ => none

namespace Draft

/-- The words that orders and parts of pages start with, as they are written. -/
def pageWords (d : Draft) : List Keyword := d.pieces.filterMap Piece.pageWord?

/-- No order and no part of a page starts in the draft. -/
def Pageless (d : Draft) : Prop := d.pageWords = []

/-- Behind a draft that is written to its end, the words of the next one follow. -/
theorem pageWords_append {a : Draft} (ha : a.stop = none) (b : Draft) :
    (a ++ b).pageWords = a.pageWords ++ b.pageWords := by
  rw [append_of_complete ha]
  exact List.filterMap_append

namespace Pageless

variable {a b d : Draft} {ds : List Draft}

theorem empty : Pageless empty := rfl

/-- Where the first draft stops, nothing of the second is written. -/
theorem append (ha : a.Pageless) (hb : b.Pageless) : (a ++ b).Pageless := by
  cases hstop : a.stop with
  | none => exact (pageWords_append hstop b).trans (List.append_eq_nil_iff.mpr ⟨ha, hb⟩)
  | some stop =>
    rw [append_of_stop hstop]
    exact ha

/-- A token that is no word of a page starts none. -/
theorem token {t : Token} (h : (Piece.token t).pageWord? = none) :
    Pageless (Draft.token t) := by
  rw [Pageless, pageWords, Draft.token, List.filterMap_cons_none h]
  rfl

theorem space : Pageless Draft.space := rfl

theorem raw (text : String) : Pageless (Draft.raw text) := rfl

/-- Tokens start no page if none of them does. -/
theorem tokens {ts : List Token} (h : ∀ t ∈ ts, (Piece.token t).pageWord? = none) :
    Pageless (Draft.tokens ts) := by
  refine List.filterMap_eq_nil_iff.mpr ?_
  intro piece hpiece
  obtain ⟨t, ht, rfl⟩ := List.mem_map.mp hpiece
  exact h t ht

/-- Words start no page if none of them does. -/
theorem words {ks : List Keyword} (h : ∀ k ∈ ks, k.startsPage = false) :
    Pageless (Draft.words ks) := by
  refine tokens ?_
  intro t ht
  rcases Token.mem_joined ht with rfl | ⟨ts, hts, hin⟩
  · rfl
  · obtain ⟨k, hk, rfl⟩ := List.mem_map.mp hts
    obtain rfl := List.mem_singleton.mp hin
    rw [Piece.pageWord?, h k hk]
    rfl

theorem word {k : Keyword} (h : k.startsPage = false) : Pageless (Draft.word k) :=
  token (by rw [Piece.pageWord?, h]; rfl)

theorem parens (h : d.Pageless) : (Draft.parens d).Pageless :=
  append (append rfl h) rfl

/-- Either of two drafts is written. -/
theorem ite {c : Prop} [Decidable c] (ha : a.Pageless) (hb : b.Pageless) :
    Pageless (if c then a else b) := by
  by_cases h : c
  · rwa [if_pos h]
  · rwa [if_neg h]

theorem when (c : Bool) (h : d.Pageless) : (Draft.when c d).Pageless := by
  cases c with
  | false => exact .empty
  | true => exact h

/-- A clause starts no page if neither its words nor its parts do. -/
theorem clause {ks : List Keyword} (hks : ∀ k ∈ ks, k.startsPage = false)
    (h : d.Pageless) : (Draft.clause ks d).Pageless :=
  append (append (append space (words hks)) space) h

/-- Drafts one after the other start no page if none of them does. -/
theorem join (hseparator : a.Pageless) (h : ∀ d ∈ ds, d.Pageless) :
    (Draft.join a ds).Pageless := by
  induction ds with
  | nil => exact .empty
  | cons d rest ih =>
    obtain ⟨hd, hrest⟩ := List.forall_mem_cons.mp h
    cases rest with
    | nil => exact hd
    | cons _ _ => exact append (append hd hseparator) (ih hrest)

theorem commas (h : ∀ d ∈ ds, d.Pageless) : (Draft.commas ds).Pageless := join rfl h

/-- Where nothing is written, no page starts. -/
theorem blanks (ds : List Draft) : ∀ d ∈ Draft.blanks ds, d.Pageless := by
  intro d hd
  obtain ⟨_, -, rfl⟩ := List.mem_map.mp hd
  exact .empty

/-- A clause that is there only if it has parts. -/
theorem unlessNone {ks : List Keyword} (hks : ∀ k ∈ ks, k.startsPage = false)
    (h : ∀ d ∈ ds, d.Pageless) : (Clause.unlessNone ks ds).Pageless := by
  rw [Clause.unlessNone]
  split
  · exact .empty
  · exact clause hks (commas h)

/-- Names start no page. -/
theorem idents (names : List String) :
    ∀ d ∈ names.map fun name => Draft.token (.ident name), d.Pageless := by
  intro d hd
  obtain ⟨name, -, rfl⟩ := List.mem_map.mp hd
  rfl

end Pageless
end Draft

namespace Clause

variable (ctx : Context) (q : Query) (p : Parts)

/-- What stands in front of the order of a statement. -/
def leading : Draft :=
  let verb :=
    if q.deletes then word .delete
    else when q.inserts (inserting ctx q p ++ space) ++ selecting ctx q p
  withs ctx q p ++ verb ++ from_ ctx p [] ++ indexHint .force q.forcedIndexes ++
    indexHint .use q.usedIndexes ++ joined ctx p ++
    criterion ctx .prewhere q.prefilter p.prefilter ++ filtered ctx q p ++ grouped ctx q p ++
    criterion ctx .having q.groupFilter p.groupFilter

/-- A SELECT is what leads, the order, the page and the lock. -/
theorem selection_eq :
    selection ctx q p =
      leading ctx q p ++ ordered ctx q p ++ pagination ctx q ++ locking q.lock := rfl

/-- WITH starts no page of its own. -/
theorem withs_pageless : (withs ctx q p.blank).Pageless :=
  .ite .empty (.append (.append (.append (.word rfl) .space)
    (.when _ (.append (.word rfl) .space))) (.commas (.blanks _)))

/-- An INSERT starts no page of its own. -/
theorem inserting_pageless : (inserting ctx q p.blank).Pageless := by
  refine .append (.append (.append (.append (.append ?_ .space) (.word rfl)) .space) .empty)
    (.when _ (.append .space (.parens (.commas (.blanks _)))))
  exact .ite (.word rfl) (.append (.word rfl) (.when _ (.append .space (.word rfl))))

/-- DISTINCT and TOP start no page of their own. -/
theorem selectHead_pageless : (selectHead ctx q p.blank).Pageless := by
  refine .append (.append ?_ ?_) (.when _ (.append (.raw _) .space))
  · exact .ite (.append (.append (.words (by decide)) (.parens (.commas (.blanks _)))) .space)
      (.when _ (.append (.word rfl) .space))
  · cases q.top with
    | none => exact .empty
    | some n =>
      exact .when _ (.append (.append (.append (.word rfl) .space) (.parens (.token rfl))) .space)

/-- The list of what is selected starts no page of its own. -/
theorem selecting_pageless : (selecting ctx q p.blank).Pageless :=
  .append (.append (.append (.append (.word rfl) .space) (selectHead_pageless ctx q p))
    (.commas (.blanks _))) (.when _ (.clause (by decide) .empty))

/-- Hints at indexes start no page. -/
theorem indexHint_pageless (verb : Keyword) (hverb : verb.startsPage = false)
    (names : List String) : (indexHint verb names).Pageless := by
  refine .when _ (.append (.append (.append .space (.words ?_)) .space)
    (.parens (.commas (.idents names))))
  intro k hk
  simp only [List.mem_cons, List.not_mem_nil, or_false] at hk
  rcases hk with rfl | rfl
  · exact hverb
  · rfl

/-- A criterion starts no page of its own. -/
theorem criterion_pageless {k : Keyword} (hk : k.startsPage = false) (t : Term) :
    (criterion ctx k t fun _ => empty).Pageless :=
  .when _ (.clause (by simpa using hk) .empty)

/-- GROUP BY starts no page of its own. -/
theorem grouped_pageless : (grouped ctx q p.blank).Pageless :=
  .ite .empty (.append (.append (.clause (by decide) (.commas (.blanks _)))
    (.when _ (.append .space (.words (by decide)))))
    (.when _ (.append .space (.words (by decide)))))

/-- Nothing in front of the order of a statement starts a page of its own. -/
theorem leading_pageless : (leading ctx q p.blank).Pageless := by
  have hverb : ((if q.deletes then word .delete
      else when q.inserts (inserting ctx q p.blank ++ space) ++ selecting ctx q p.blank) :
      Draft).Pageless :=
    .ite (.word rfl) (.append (.when _ (.append (inserting_pageless ctx q p) .space))
      (selecting_pageless ctx q p))
  have hfrom : (from_ ctx p.blank []).Pageless :=
    .unlessNone (by decide) (by
      rw [List.append_nil]
      exact .blanks _)
  have hjoined : (joined ctx p.blank).Pageless :=
    .when _ (.append .space (.join .space (.blanks _)))
  have hread := ((((withs_pageless ctx q p).append hverb).append hfrom).append
    (indexHint_pageless .force rfl q.forcedIndexes)).append
    (indexHint_pageless .use rfl q.usedIndexes)
  have hkept := ((hread.append hjoined).append
    (criterion_pageless ctx (k := .prewhere) rfl q.prefilter)).append
    (criterion_pageless ctx (k := .where_) rfl q.filter)
  exact (hkept.append (grouped_pageless ctx q p)).append
    (criterion_pageless ctx (k := .having) rfl q.groupFilter)

/-- A lock starts no page. -/
theorem locking_pageless (lock : Option Lock) : (locking lock).Pageless := by
  cases lock with
  | none => exact .empty
  | some lock =>
    have hverb : (space ++ word .for_ ++ space ++ when lock.noKey (word .noKey ++ space) ++
        word .update : Draft).Pageless :=
      .append (.append (.append (.append .space (.word rfl)) .space)
        (.when _ (.append (.word rfl) .space))) (.word rfl)
    exact (hverb.append (.ite .empty (.clause (by decide) (.join (.raw _) (.idents _))))).append
      (.ite (.append .space (.word rfl)) (.when _ (.append .space (.word rfl))))

/-- A conflict clause starts no page of its own. -/
theorem onConflict_pageless (c : Conflict) : (onConflict ctx c p.blank.conflict).Pageless := by
  refine .ite (.ite .empty rfl) (.ite rfl ?_)
  refine .append (.append (.append (.append .space (.words (by decide)))
    (.when _ (.append .space (.parens (.join (.tokens (by decide)) (.blanks _))))))
    (criterion_pageless ctx (k := .where_) rfl _)) ?_
  exact .ite (.append .space (.words (by decide)))
    (.append (.clause (by decide) (.commas (.blanks _)))
      (criterion_pageless ctx (k := .where_) rfl _))

/-- An alias starts no page. -/
theorem aliasDraft_pageless (aliasName : Option String) : (ctx.aliasDraft aliasName).Pageless := by
  cases aliasName with
  | none => exact .empty
  | some name =>
    exact .ite .empty (.append (.append .space (.when _ (.append (.word rfl) .space))) (.token rfl))

theorem declaration_pageless (aliasName : Option String) :
    (ctx.declaration aliasName).Pageless := .ite (aliasDraft_pageless ctx aliasName) .empty

/-- Neither does what is done about conflicting rows, in either style. -/
theorem resolved_pageless : (resolved ctx q p.blank).Pageless :=
  .ite .empty (.ite (.append (aliasDraft_pageless _ _) (.unlessNone (by decide) (.blanks _)))
    (onConflict_pageless ctx p q.conflict))

/-- Nor does RETURNING. -/
theorem returned_pageless : (returned ctx q p.blank).Pageless :=
  .unlessNone (by decide) (.blanks _)

end Clause

/-! ## The order and the page -/

namespace Paging

/-- An order by these lists of tokens. -/
def orderBy (lists : List (List Token)) : List Token :=
  [.space, .keyword .orderBy, .space] ++ Token.joined .comma lists

/-- What is sorted by where an order is required and none is given. -/
def anyOrder : List (List Token) := [[.lparen, .keyword .select, .space, .int 0, .rparen]]

/-- The clause that skips as many rows. -/
def skipping (n : List Token) : List Token :=
  [.space, .keyword .offset, .space] ++ n ++ [.space, .keyword .rows]

/-- The clause that takes as many rows. -/
def taking (n : List Token) : List Token :=
  [.space, .keyword .fetch, .space, .keyword .next, .space] ++ n ++
    [.space, .keyword .rows, .space, .keyword .only]

/-- A legal order and page. Without a limit and an offset there is no page, and an order only if
    there is something to sort by. Otherwise there is always an order, directly behind it rows are
    skipped, none of them if there is no offset, and behind that rows are taken if there is a
    limit. -/
def tokens (sorted : List (List Token)) (limit offset : Option (List Token)) : List Token :=
  match limit, offset with
  | none, none => if sorted.isEmpty then [] else orderBy sorted
  | limit, offset =>
    orderBy (if sorted.isEmpty then anyOrder else sorted) ++ skipping (offset.getD [.int 0]) ++
      limit.elim [] taking

/-- The words that a legal order and page start with: if there is something to sort by, a limit, an
    offset. -/
def words (ordered limited skipped : Bool) : List Keyword :=
  (if ordered || limited || skipped then [.orderBy] else []) ++
    (if limited || skipped then [.offset] else []) ++ if limited then [.fetch] else []

end Paging

namespace Draft

/-- A number of rows, as it is written: a constant or a hole. -/
structure IsCount (d : Draft) : Prop where
  complete : d.stop = none
  pageless : d.Pageless

/-- A number that is written is a count. -/
theorem isCount_token (n : Int64) : (token (.int n)).IsCount := ⟨rfl, rfl⟩

/-- And so is one that may be bound. -/
theorem isCount_value (ctx : Context) (n : Int64) : (Value.draft ctx (.int n) true).IsCount := by
  rw [Value.draft]
  split
  · exact ⟨rfl, rfl⟩
  · exact ⟨rfl, rfl⟩

/-- The words of drafts behind each other, if what is put together from them is written to its
    end. -/
theorem pageWords_of_complete {a b : Draft} (h : (a ++ b).stop = none) :
    (a ++ b).pageWords = a.pageWords ++ b.pageWords := pageWords_append (stop_append h).1 b

/-- Parentheses, and what has no order and no page of its own, leave the words as they are. -/
theorem pageWords_enclosed {nested : Bool} {leading page rest behind : Draft}
    (h : (parensIf nested (leading ++ page ++ rest) ++ behind).stop = none)
    (hleading : leading.Pageless) (hrest : rest.Pageless) (hbehind : behind.Pageless) :
    (parensIf nested (leading ++ page ++ rest) ++ behind).pageWords = page.pageWords := by
  have hinside := (complete_parensIf_iff nested).mp (stop_append h).1
  have hpage : (leading ++ page ++ rest).pageWords = page.pageWords := by
    rw [pageWords_of_complete hinside, pageWords_of_complete (stop_append hinside).1, hleading,
      hrest, List.nil_append, List.append_nil]
  rw [pageWords_of_complete h, hbehind, List.append_nil, ← hpage]
  cases nested with
  | false => rfl
  | true =>
    have hopened : (token .lparen ++ (leading ++ page ++ rest)).stop = none :=
      complete_append rfl hinside
    show (token .lparen ++ (leading ++ page ++ rest) ++ token .rparen).pageWords = _
    rw [pageWords_append hopened, pageWords_append rfl]
    exact List.append_nil _

end Draft

namespace Dialect

/-- Rows that are skipped, with the tokens around their number. -/
theorem offsetRows_eq (n : Draft) :
    offsetRows n =
      tokens [.space, .keyword .offset, .space] ++ n ++ tokens [.space, .keyword .rows] :=
  append_assoc _ _ _

/-- Rows that are taken, with the tokens around their number. -/
theorem fetchRows_eq (n : Draft) :
    fetchRows n =
      tokens [.space, .keyword .fetch, .space, .keyword .next, .space] ++ n ++
        tokens [.space, .keyword .rows, .space, .keyword .only] :=
  append_assoc _ _ _

/-- Skipping rows starts one part of a page. -/
theorem pageWords_offsetRows {n : Draft} (hn : n.IsCount) :
    (offsetRows n).pageWords = [.offset] := by
  rw [offsetRows_eq, pageWords_append (complete_append rfl hn.complete), pageWords_append rfl,
    hn.pageless]
  rfl

/-- Taking rows starts one part of a page. -/
theorem pageWords_fetchRows {n : Draft} (hn : n.IsCount) : (fetchRows n).pageWords = [.fetch] := by
  rw [fetchRows_eq, pageWords_append (complete_append rfl hn.complete), pageWords_append rfl,
    hn.pageless]
  rfl

/-- What is written of rows that are skipped. -/
theorem writes_offsetRows {n : Draft} {ts : List Token} (h : (offsetRows n).Writes ts) :
    ∃ us : List Token, n.Writes us ∧ ts = Paging.skipping us := by
  rw [offsetRows_eq, append_assoc] at h
  obtain ⟨vs, hvs, rfl⟩ := Writes.of_behind _ h
  obtain ⟨us, ws, hus, hws, rfl⟩ := hvs.of_append
  obtain rfl := hws.of_tokens
  exact ⟨us, hus, rfl⟩

/-- What is written of rows that are taken. -/
theorem writes_fetchRows {n : Draft} {ts : List Token} (h : (fetchRows n).Writes ts) :
    ∃ us : List Token, n.Writes us ∧ ts = Paging.taking us := by
  rw [fetchRows_eq, append_assoc] at h
  obtain ⟨vs, hvs, rfl⟩ := Writes.of_behind _ h
  obtain ⟨us, ws, hus, hws, rfl⟩ := hvs.of_append
  obtain rfl := hws.of_tokens
  exact ⟨us, hus, rfl⟩

/-- With a limit or an offset, rows are skipped in any case, behind an order in any case. -/
theorem mssql_pagination_eq {limit offset : Option Draft} (ordered : Bool)
    (hpaged : ¬ (limit = none ∧ offset = none)) :
    mssql.pagination limit offset ordered =
      when (!ordered) anyOrder ++ offsetRows (offset.getD (token (.int 0))) ++
        limit.elim empty fetchRows := by
  cases limit with
  | none =>
    cases offset with
    | none => exact absurd ⟨rfl, rfl⟩ hpaged
    | some n => rfl
  | some n => cases offset <;> rfl

/-- The order and the page that are written for any terms to sort by and any counts of rows. -/
def mssqlPage (sorted : List Draft) (limit offset : Option Draft) : Draft :=
  Clause.unlessNone [.orderBy] sorted ++ mssql.pagination limit offset (!sorted.isEmpty)

variable {sorted : List Draft} {limit offset : Option Draft}

/-- An order and a page start with the words of a legal one, in their order. -/
theorem pageWords_mssqlPage (hsorted : ∀ d ∈ sorted, d.stop = none ∧ d.Pageless)
    (hlimit : ∀ d ∈ limit, d.IsCount) (hoffset : ∀ d ∈ offset, d.IsCount) :
    (mssqlPage sorted limit offset).pageWords =
      Paging.words (!sorted.isEmpty) limit.isSome offset.isSome := by
  have horder : (Clause.unlessNone [.orderBy] sorted).stop = none ∧
      (Clause.unlessNone [.orderBy] sorted).pageWords =
        if sorted.isEmpty then [] else [.orderBy] := by
    rw [Clause.unlessNone]
    split
    · exact ⟨rfl, rfl⟩
    · have hterms : (commas sorted).Pageless := .commas fun d hd => (hsorted d hd).2
      refine ⟨complete_clause _ (complete_commas fun d hd => (hsorted d hd).1), ?_⟩
      show (tokens [.space, .keyword .orderBy, .space] ++ commas sorted).pageWords = _
      rw [pageWords_append rfl, hterms]
      rfl
  rw [mssqlPage, pageWords_append horder.1, horder.2]
  -- without limit and offset there is no page, only an order
  by_cases hnone : limit = none ∧ offset = none
  · obtain ⟨rfl, rfl⟩ := hnone
    cases sorted <;> rfl
  · have hskipped : (offset.getD (token (.int 0))).IsCount := by
      cases offset with
      | none => exact isCount_token 0
      | some n => exact hoffset n rfl
    have hskip : (offsetRows (offset.getD (token (.int 0)))).stop = none := by
      rw [offsetRows_eq]
      exact complete_append (complete_append rfl hskipped.complete) rfl
    have hany : (when (!!sorted.isEmpty) anyOrder).stop = none := complete_when _ rfl
    have htake : (limit.elim empty fetchRows).pageWords =
        if limit.isSome then [.fetch] else [] := by
      cases limit with
      | none => rfl
      | some n => exact pageWords_fetchRows (hlimit n rfl)
    have hpaged : (limit.isSome || offset.isSome) = true := by
      cases limit <;> cases offset <;> simp_all
    rw [mssql_pagination_eq _ hnone, pageWords_append (complete_append hany hskip),
      pageWords_append hany, pageWords_offsetRows hskipped, htake, Paging.words, Bool.or_assoc,
      hpaged]
    cases sorted <;> rfl

/-- What is written for an order and a page is a legal one. -/
theorem writes_mssqlPage {ts : List Token} (h : (mssqlPage sorted limit offset).Writes ts) :
    ∃ (lists : List (List Token)) (count skipped : Option (List Token)),
      List.Forall₂ Writes sorted lists ∧ Option.Rel Writes limit count ∧
        Option.Rel Writes offset skipped ∧ ts = Paging.tokens lists count skipped := by
  -- the order stands in front; behind it the page is taken apart word by word
  obtain ⟨order, page, horder, hpage, rfl⟩ := h.of_append
  obtain ⟨lists, hlists, rfl⟩ : ∃ lists : List (List Token), List.Forall₂ Writes sorted lists ∧
      order = if lists.isEmpty then [] else Paging.orderBy lists := by
    cases sorted with
    | nil => exact ⟨[], .nil, horder.of_empty⟩
    | cons d rest =>
      obtain ⟨us, hus, rfl⟩ := Writes.of_behind [.space, .keyword .orderBy, .space] horder
      obtain ⟨lists, hlists, rfl⟩ := hus.of_commas
      cases hlists with
      | cons hd hrest => exact ⟨_, .cons hd hrest, rfl⟩
  have hempty : sorted.isEmpty = lists.isEmpty := by cases hlists <;> rfl
  by_cases hnone : limit = none ∧ offset = none
  · obtain ⟨rfl, rfl⟩ := hnone
    obtain rfl : page = [] := hpage.of_empty
    exact ⟨lists, none, none, hlists, .none, .none, List.append_nil _⟩
  · rw [mssql_pagination_eq _ hnone, hempty, Bool.not_not] at hpage
    obtain ⟨before, taken, hbefore, htaken, rfl⟩ := hpage.of_append
    obtain ⟨any, skip, hany, hskip, rfl⟩ := hbefore.of_append
    obtain ⟨n, hn, rfl⟩ := writes_offsetRows hskip
    obtain ⟨skipped, hskipped, rfl⟩ : ∃ skipped : Option (List Token),
        Option.Rel Writes offset skipped ∧ n = skipped.getD [.int 0] := by
      cases offset with
      | none => exact ⟨none, .none, hn.of_token⟩
      | some d => exact ⟨some n, .some hn, rfl⟩
    obtain ⟨count, hcount, rfl⟩ : ∃ count : Option (List Token),
        Option.Rel Writes limit count ∧ taken = count.elim [] Paging.taking := by
      cases limit with
      | none => exact ⟨none, .none, htaken.of_empty⟩
      | some d =>
        obtain ⟨us, hus, rfl⟩ := writes_fetchRows htaken
        exact ⟨some us, .some hus, rfl⟩
    obtain rfl : any = if lists.isEmpty then Paging.orderBy Paging.anyOrder else [] := by
      cases lists with
      | nil =>
        have hany : (tokens (Paging.orderBy Paging.anyOrder)).Writes any := hany
        exact hany.of_tokens
      | cons _ _ => exact hany.of_empty
    refine ⟨lists, count, skipped, hlists, hcount, hskipped, ?_⟩
    have htokens : Paging.tokens lists count skipped =
        Paging.orderBy (if lists.isEmpty then Paging.anyOrder else lists) ++
          Paging.skipping (skipped.getD [.int 0]) ++ count.elim [] Paging.taking := by
      cases hcount with
      | some _ => cases hskipped <;> rfl
      | none =>
        cases hskipped with
        | some _ => rfl
        | none => exact absurd ⟨rfl, rfl⟩ hnone
    rw [htokens]
    cases lists with
    | nil => rfl
    | cons first rest =>
      simp only [List.isEmpty_cons, Bool.false_eq_true, if_false, List.nil_append,
        List.append_assoc]

end Dialect

/-! ## Statements and set operations -/

namespace Draft

/-- A legal page is written. `own` is the outline of the statement `d`, `front` is what stands in
    front of its order, `ownFront` is what it writes there of its own. What it is sorted by and its
    counts of rows are given as they are written. -/
structure WritesPage (d own front ownFront : Draft) (nested : Bool) (sorted : List Draft)
    (limit offset : Option Draft) (ts : List Token) : Prop where
  /-- Of its own, the statement starts an order and the parts of a page with these words, in this
      order. -/
  words : own.pageWords = Paging.words (!sorted.isEmpty) limit.isSome offset.isSome
  /-- They are in the statement. -/
  outlined : own.pieces.Sublist d.pieces
  /-- None of them is in front. -/
  unpaged : ownFront.Pageless
  /-- The order and the page are in one place, inside of the parentheses. -/
  written : ∃ (before after behind : List Token) (lists : List (List Token))
    (count skipped : Option (List Token)),
    front.Writes before ∧ List.Forall₂ Writes sorted lists ∧ Option.Rel Writes limit count ∧
      Option.Rel Writes offset skipped ∧
      ts = enclosedIf nested (before ++ Paging.tokens lists count skipped ++ after) ++ behind

/-- A statement writes a legal page if it has an order and a page in one place, and starts none in
    front of them and behind them. -/
theorem writesPage_of_enclosed {nested : Bool} {sorted : List Draft} {limit offset : Option Draft}
    {front rest behind ownFront ownRest ownBehind d own : Draft} {ts : List Token}
    (hd : d = parensIf nested (front ++ Dialect.mssqlPage sorted limit offset ++ rest) ++ behind)
    (hown : own =
      parensIf nested (ownFront ++ Dialect.mssqlPage (blanks sorted) limit offset ++ ownRest) ++
        ownBehind)
    (hspans : d.Spans own) (hfront : ownFront.Pageless) (hrest : ownRest.Pageless)
    (hbehind : ownBehind.Pageless) (hlimit : ∀ n ∈ limit, n.IsCount)
    (hoffset : ∀ n ∈ offset, n.IsCount) (h : d.Writes ts) :
    WritesPage d own front ownFront nested sorted limit offset ts := by
  obtain ⟨p, p', hfinish⟩ := h
  obtain ⟨hstop, hpieces⟩ := hspans (complete_of_finish hfinish)
  -- the words are read off the outline, the tokens off the text itself
  refine ⟨?_, hpieces, hfront, ?_⟩
  · have hblanks : ∀ b ∈ blanks sorted, b.stop = none ∧ b.Pageless := by
      intro b hb
      obtain ⟨_, -, rfl⟩ := List.mem_map.mp hb
      exact ⟨rfl, .empty⟩
    have hempty : (blanks sorted).isEmpty = sorted.isEmpty := List.isEmpty_map
    rw [hown] at hstop ⊢
    rw [pageWords_enclosed hstop hfront hrest hbehind,
      Dialect.pageWords_mssqlPage hblanks hlimit hoffset, hempty]
  · have h : d.Writes ts := ⟨p, p', hfinish⟩
    rw [hd] at h
    obtain ⟨us, last, hus, -, rfl⟩ := h.of_append
    obtain ⟨inside, hinside, rfl⟩ := hus.of_parensIf
    obtain ⟨vs, after, hvs, -, rfl⟩ := hinside.of_append
    obtain ⟨before, page, hbefore, hpage, rfl⟩ := hvs.of_append
    obtain ⟨lists, count, skipped, hlists, hcount, hskipped, rfl⟩ := Dialect.writes_mssqlPage hpage
    exact ⟨before, after, last, lists, count, skipped, hbefore, hlists, hcount, hskipped, rfl⟩

end Draft

namespace Clause

/-- What is written for a term to sort by that is selected too: its alias, where that may be. -/
def sortedAs? (ctx : Context) (q : Query) (name : String) : Option Draft :=
  if ctx.orderByAlias then aliasOf? q name else none

/-- A number of rows, as it is written in a statement. -/
def count (ctx : Context) (n : Int64) : Draft := Value.draft ctx (.int n) true

/-- The order and the page of a statement are in one place. -/
theorem selection_eq_page {ctx : Context} {q : Query} {p : Parts} (hdialect : q.dialect = .mssql)
    (hempty : (p.orderings ctx (sortedAs? ctx q)).isEmpty = q.orderings.isEmpty) :
    selection ctx q p =
      leading ctx q p ++
        Dialect.mssqlPage (p.orderings ctx (sortedAs? ctx q)) (q.limit.map (count ctx))
          (q.offset.map (count ctx)) ++
        locking q.lock := by
  have hpage : pagination ctx q =
      Dialect.mssql.pagination (q.limit.map (count ctx)) (q.offset.map (count ctx))
        (!(p.orderings ctx (sortedAs? ctx q)).isEmpty) := by
    rw [hempty, ← hdialect]
    rfl
  rw [selection_eq, hpage, append_assoc (leading ctx q p)]
  rfl

end Clause

/-- No term to sort by is lost where orders are drafted. -/
theorem isEmpty_orderingDrafts (ctx : Context) (short : String → Option Draft)
    (os : List Ordering) : (orderingDrafts ctx short os).isEmpty = os.isEmpty := by
  cases os with
  | nil => rfl
  | cons o rest =>
    cases o
    rfl

namespace Query

/-- The terms that a statement is sorted by, as they are written. -/
def sorted (outer : Context) (q : Query) : List Draft :=
  orderingDrafts (q.innerContext outer) (Clause.sortedAs? (q.innerContext outer) q) q.orderings

/-- A statement is written with its order and its page in one place, and what leads has none of its
    own. -/
theorem writesPage {q : Query} (hdialect : q.dialect = .mssql) (hselection : q.isSelection = true)
    {outer : Context} {ts : List Token} (h : (q.draft outer).Writes ts) :
    WritesPage (q.draft outer) (q.outline outer)
      (Clause.leading (q.innerContext outer) q q.parts)
      (Clause.leading (q.innerContext outer) q q.parts.blank) outer.nested (q.sorted outer)
      (q.limit.map (Clause.count (q.innerContext outer)))
      (q.offset.map (Clause.count (q.innerContext outer))) ts := by
  have hcount (n : Option Int64) :
      ∀ d ∈ n.map (Clause.count (q.innerContext outer)), d.IsCount := by
    intro d hd
    obtain ⟨n, -, rfl⟩ := Option.mem_map.mp hd
    exact isCount_value _ n
  have hsorted : q.parts.orderings (q.innerContext outer)
      (Clause.sortedAs? (q.innerContext outer) q) = q.sorted outer := by
    rw [q.parts_eq]
    rfl
  have hempty : (q.sorted outer).isEmpty = q.orderings.isEmpty := isEmpty_orderingDrafts _ _ _
  have hblank : (q.parts.blank.orderings (q.innerContext outer)
      (Clause.sortedAs? (q.innerContext outer) q)) = blanks (q.sorted outer) :=
    congrArg blanks hsorted
  have hd := statement_of_isSelection hselection outer q.parts
  have hown := statement_of_isSelection hselection outer q.parts.blank
  rw [Clause.selection_eq_page hdialect (by rw [hsorted, hempty]), hsorted] at hd
  rw [Clause.selection_eq_page hdialect (by rw [hblank, blanks, List.isEmpty_map, hempty]),
    hblank] at hown
  have hbehind := (Clause.resolved_pageless (q.innerContext outer) q q.parts).append
    ((Clause.declaration_pageless outer ((outer.scope.enter q.scope).resolve q.slot)).append
      (Clause.returned_pageless (q.innerContext outer) q q.parts))
  exact writesPage_of_enclosed hd hown (q.spans_outline outer)
    (Clause.leading_pageless (q.innerContext outer) q q.parts) (Clause.locking_pageless q.lock)
    hbehind (hcount _) (hcount _) h

end Query

namespace SetOperation

/-- A set operation is written with its order and its page in one place, behind its operands. -/
theorem writesPage {s : SetOperation} (hdialect : s.base.dialect = .mssql) {outer : Context}
    {ts : List Token} (h : (s.draft outer).Writes ts) :
    WritesPage (s.draft outer) (s.outline outer)
      (s.chained fun q => q.draft (s.operandContext outer)) (s.chained fun _ => empty)
      outer.nested (s.sorted outer)
      (s.limit.map fun n => token (.int n)) (s.offset.map fun n => token (.int n)) ts := by
  have hcount (n : Option Int64) : ∀ d ∈ n.map (fun n => token (.int n)), d.IsCount := by
    intro d hd
    obtain ⟨n, -, rfl⟩ := Option.mem_map.mp hd
    exact isCount_token n
  have hpage (statement : Query → Draft) (sorted : List Draft)
      (hempty : sorted.isEmpty = s.orderings.isEmpty) :
      s.assembled outer statement sorted =
        parensIf outer.nested
          (s.chained statement ++
            Dialect.mssqlPage sorted (s.limit.map fun n => token (.int n))
              (s.offset.map fun n => token (.int n)) ++ empty) ++
          outer.declaration (outer.aliasOf s.slot) := by
    rw [assembled, Dialect.mssqlPage, hempty, hdialect, append_empty,
      append_assoc (s.chained statement)]
  have hoperators (operands : List Operand) : (operands.foldr (fun o rest =>
      tokens o.operator.tokens ++ empty ++ rest) empty).Pageless := by
    induction operands with
    | nil => exact .empty
    | cons o rest ih => exact .append (.append rfl .empty) ih
  have hchained : (s.chained fun _ => empty).Pageless := .append .empty (hoperators s.operands)
  obtain ⟨p, p', hfinish⟩ := h
  have hfits := fits_of_complete (complete_of_finish hfinish)
  have hempty : (s.sorted outer).isEmpty = s.orderings.isEmpty := isEmpty_orderingDrafts _ _ _
  have hblank : (blanks (s.sorted outer)).isEmpty = s.orderings.isEmpty :=
    List.isEmpty_map.trans hempty
  have hd := (draft_eq_assembled hfits).trans (hpage _ _ hempty)
  have hown : s.outline outer = _ := hpage (fun _ => empty) _ hblank
  exact writesPage_of_enclosed hd hown (s.spans_outline outer) hchained .empty
    (Clause.declaration_pageless outer (outer.aliasOf s.slot)) (hcount _) (hcount _)
    ⟨p, p', hfinish⟩

end SetOperation

/-! ## The theorem -/

/-- **In the dialect of SQL Server, pages are legal.** Take a statement of that dialect that is
    written with the tail of a SELECT, or a set operation whose first statement is of that dialect,
    with any terms to sort by, any limit and any offset, in any context, be constants bound there or
    not. Let `ts` be what is written of it, with any parameters.
    * Of its own it starts, in this order and each at most once: an order, exactly if there are
      terms to sort by, a limit or an offset; OFFSET, exactly if there is a limit or an offset;
      FETCH, exactly if there is a limit. It starts no LIMIT, and none of these in the clauses in
      front.
    * Behind the clauses in front `ts` has the order: by the statement's own terms, or, where it has
      none but needs an order, by `(SELECT 0)`. Directly behind it stands `OFFSET … ROWS` with the
      offset, or with 0 where there is none, and directly behind that `FETCH NEXT … ROWS ONLY` with
      the limit, each where there is one. -/
theorem Dialect.pages_legal :
    (∀ (q : Query) (outer : Context) (ts : List Token),
      q.dialect = .mssql → q.isSelection = true → (q.draft outer).Writes ts →
        WritesPage (q.draft outer) (q.outline outer)
          (Clause.leading (q.innerContext outer) q q.parts)
          (Clause.leading (q.innerContext outer) q q.parts.blank) outer.nested (q.sorted outer)
          (q.limit.map (Clause.count (q.innerContext outer)))
          (q.offset.map (Clause.count (q.innerContext outer))) ts) ∧
    ∀ (s : SetOperation) (outer : Context) (ts : List Token),
      s.base.dialect = .mssql → (s.draft outer).Writes ts →
        WritesPage (s.draft outer) (s.outline outer)
          (s.chained fun q => q.draft (s.operandContext outer)) (s.chained fun _ => empty)
          outer.nested (s.sorted outer)
          (s.limit.map fun n => token (.int n)) (s.offset.map fun n => token (.int n)) ts := by
  constructor
  · intro q outer ts hdialect hselection h
    exact Query.writesPage hdialect hselection h
  · intro s outer ts hdialect h
    exact SetOperation.writesPage hdialect h

/-- A statement that is sorted by another one, which stands there without parentheses and has a page
    of its own; and a set operation of it, with a limit and nothing to sort by. -/
theorem Dialect.pages_legal_nested :
    let select (identity : Nat) (name : String) (column : String) : Query :=
      { Query.start identity .mssql with
        sources := [.table (.named (identity + 1) name)]
        selects := [⟨.field column none, none⟩] }
    let inner := { select 1 "u" "x" with limit := some 3 }
    let q := { select 3 "t" "a" with
      orderings := [⟨⟨.subquery inner, none⟩, none⟩]
      offset := some 2 }
    let s : SetOperation :=
      { base := select 5 "v" "b", operands := [⟨.union, q⟩], limit := some 4, slot := ⟨7, none⟩ }
    let outer := { Context.ofDialect .postgres with nested := true, binding := true }
    q.dialect = .mssql ∧ q.isSelection = true ∧ s.base.dialect = .mssql ∧
      ∃ qs ss : List Token, (q.draft outer).Writes qs ∧ (s.draft outer).Writes ss ∧
        (q.outline outer).pageWords = [.orderBy, .offset] ∧
        (s.outline outer).pageWords = [.orderBy, .offset, .fetch] ∧
        Token.texts outer qs =
          "(SELECT \"a\" FROM \"t\" ORDER BY SELECT \"x\" FROM \"u\" ORDER BY (SELECT 0) " ++
            "OFFSET 0 ROWS FETCH NEXT $1 ROWS ONLY OFFSET $2 ROWS)" := by
  intro select inner q s outer
  have hq := Writes.of_complete (Option.isNone_iff_eq_none.mp
    (by decide +kernel : (q.draft outer).stop.isNone = true))
  have hs := Writes.of_complete (Option.isNone_iff_eq_none.mp
    (by decide +kernel : (s.draft outer).stop.isNone = true))
  have hqpage := Dialect.pages_legal.1 q outer _ rfl (by decide) hq
  have hspage := Dialect.pages_legal.2 s outer _ rfl hs
  exact ⟨rfl, by decide, rfl, _, _, hq, hs, hqpage.words.trans (by decide +kernel),
    hspage.words.trans (by decide +kernel), by decide +kernel⟩

end SqlCompose
