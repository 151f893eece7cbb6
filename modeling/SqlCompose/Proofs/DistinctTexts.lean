import SqlCompose.Proofs.OuterWords

/-! # Distinct texts — drafts that are not written alike

    Two drafts that start alike are written differently if they go on with different words, or if
    one text is longer than the other.

    * `Token.width` — the length of the text of tokens.
    * `Keyword.Apart` — words whose first two letters are not the same.
    * `Draft.texts_ne_of_append`, `Draft.GoesOn` — drafts that go on with different words.
    * `Draft.width_exchange` — parts that bind equally many values make the difference.
    * `Dialect.pagination_apart` — a page with a limit and the same page without one go on with
      other words, behind what they have in common.
    * `Dialect.width_page` — a limit makes what it is in longer, by more than its number. -/

namespace SqlCompose

open Draft

/-! ## Texts -/

namespace Token

/-- The length of the text of tokens. -/
def width (ctx : Context) (ts : List Token) : ℕ := (texts ctx ts).length

theorem width_append (ctx : Context) (ts us : List Token) :
    width ctx (ts ++ us) = width ctx ts + width ctx us := by
  rw [width, texts_append, String.length_append]
  rfl

/-- Behind the same tokens the same follows. -/
theorem texts_append_ne {ctx : Context} {us vs : List Token} (h : texts ctx us ≠ texts ctx vs)
    (ts : List Token) : texts ctx (ts ++ us) ≠ texts ctx (ts ++ vs) := by
  rw [texts_append, texts_append]
  intro heq
  have hlist := congrArg String.toList heq
  rw [String.toList_append, String.toList_append] at hlist
  exact h (String.toList_inj.mp (List.append_cancel_left hlist))

theorem toList_texts_cons (ctx : Context) (t : Token) (ts : List Token) :
    (texts ctx (t :: ts)).toList = (t.text ctx).toList ++ (texts ctx ts).toList := by
  have hone : texts ctx [t] = t.text ctx := by simp [texts]
  rw [← List.singleton_append, texts_append, String.toList_append, hone]

end Token

/-- The first two letters of the words are not the same. -/
def Keyword.Apart (k k' : Keyword) : Prop :=
  2 ≤ k.text.toList.length ∧ 2 ≤ k'.text.toList.length ∧
    k.text.toList.take 2 ≠ k'.text.toList.take 2

instance (k k' : Keyword) : Decidable (k.Apart k') :=
  inferInstanceAs (Decidable (_ ∧ _ ∧ _))

/-- No word of a page is taken for that of a lock. -/
theorem Keyword.apart_for {k : Keyword} (h : k.startsPage = true) : k.Apart .for_ := by
  cases k with
  | orderBy | limit | offset | fetch => decide
  | _ => exact nomatch h

namespace Token

/-- A blank and a word are not written like a blank and another word. -/
theorem texts_word_ne {k k' : Keyword} (h : k.Apart k') (ctx : Context) (ts us : List Token) :
    texts ctx ([.space, .keyword k] ++ ts) ≠ texts ctx ([.space, .keyword k'] ++ us) := by
  obtain ⟨hlength, hlength', hne⟩ := h
  intro heq
  have hlist := congrArg String.toList heq
  rw [List.cons_append, List.cons_append, List.cons_append, List.cons_append, toList_texts_cons,
    toList_texts_cons, toList_texts_cons, toList_texts_cons] at hlist
  have hbehind : (k.text.toList ++ (texts ctx ts).toList).take 2 =
      (k'.text.toList ++ (texts ctx us).toList).take 2 :=
    congrArg (List.take 2) (List.append_cancel_left hlist)
  rw [List.take_append_of_le_length hlength, List.take_append_of_le_length hlength'] at hbehind
  exact hne hbehind

/-- Nor like a closing parenthesis. -/
theorem texts_word_ne_rparen (k : Keyword) (ctx : Context) (ts us : List Token) :
    texts ctx ([.space, .keyword k] ++ ts) ≠ texts ctx ([.rparen] ++ us) := by
  intro heq
  have hlist := congrArg String.toList heq
  rw [List.cons_append, List.cons_append, List.cons_append, toList_texts_cons, toList_texts_cons,
    toList_texts_cons] at hlist
  have hblank : (text ctx .space).toList = [' '] := by simp [text]
  have hclosing : (text ctx .rparen).toList = [')'] := by simp [text]
  rw [hblank, hclosing] at hlist
  have hfirst : some ' ' = some ')' := congrArg List.head? hlist
  exact absurd hfirst (by decide)

end Token

namespace Draft

/-- Drafts that start alike are written differently if what follows is. -/
theorem texts_ne_of_append {ctx : Context} {front a b : Draft}
    (hab : ∀ ts us : List Token, a.Writes ts → b.Writes us →
      Token.texts ctx ts ≠ Token.texts ctx us)
    {p p₁ p₂ : Parameters} {ts us : List Token} (ha : (front ++ a).finish p = (.ok ts, p₁))
    (hb : (front ++ b).finish p = (.ok us, p₂)) : Token.texts ctx ts ≠ Token.texts ctx us := by
  obtain ⟨vs, ts', q, hfront, hbehind, rfl⟩ := finish_append_ok ha
  obtain ⟨ws, us', q', hfront', hbehind', rfl⟩ := finish_append_ok hb
  obtain ⟨hsame, rfl⟩ := Prod.mk.inj (hfront.symm.trans hfront')
  obtain rfl := Except.ok.inj hsame
  exact Token.texts_append_ne (hab ts' us' ⟨q, p₁, hbehind⟩ ⟨q, p₂, hbehind'⟩) vs

end Draft

/-! ## Pages with a limit and without one -/

namespace Draft

/-- The draft starts with a blank and the word. -/
def GoesOn (k : Keyword) (d : Draft) : Prop :=
  ∃ rest : Draft, d = tokens [.space, .keyword k] ++ rest

namespace GoesOn

variable {k : Keyword} {d : Draft}

theorem append (h : d.GoesOn k) (behind : Draft) : (d ++ behind).GoesOn k := by
  obtain ⟨rest, rfl⟩ := h
  exact ⟨rest ++ behind, append_assoc _ _ _⟩

theorem clause (k : Keyword) (ks : List Keyword) (body : Draft) :
    (Draft.clause (k :: ks) body).GoesOn k := by
  have hwords : (space ++ words (k :: ks)).GoesOn k := by
    cases ks with
    | nil => exact ⟨empty, rfl⟩
    | cons k' ks =>
      exact ⟨tokens (.space :: Token.joined .space ((k' :: ks).map fun k => [.keyword k])), rfl⟩
  exact (hwords.append space).append body

/-- A lock is written behind its word. -/
theorem locking (lock : Lock) : (Clause.locking (some lock)).GoesOn .for_ := by
  have hverb : (space ++ word .for_).GoesOn .for_ := ⟨empty, rfl⟩
  exact ((((hverb.append space).append _).append _).append _).append _

/-- What goes on with a word is written differently from what goes on with another one. -/
theorem texts_ne {k' : Keyword} (hapart : k.Apart k') {a b : Draft} (ha : a.GoesOn k)
    (hb : b.GoesOn k') {ctx : Context} {ts us : List Token} (hts : a.Writes ts)
    (hus : b.Writes us) : Token.texts ctx ts ≠ Token.texts ctx us := by
  obtain ⟨rest, rfl⟩ := ha
  obtain ⟨rest', rfl⟩ := hb
  obtain ⟨ts, -, rfl⟩ := hts.of_behind
  obtain ⟨us, -, rfl⟩ := hus.of_behind
  exact Token.texts_word_ne hapart ctx ts us

/-- And differently from what closes a parenthesis. -/
theorem texts_ne_rparen {a b : Draft} (ha : a.GoesOn k) {ctx : Context} {ts us : List Token}
    (hts : a.Writes ts) (hus : (Draft.token .rparen ++ b).Writes us) :
    Token.texts ctx ts ≠ Token.texts ctx us := by
  obtain ⟨rest, rfl⟩ := ha
  obtain ⟨ts, -, rfl⟩ := hts.of_behind
  obtain ⟨us, -, rfl⟩ := Writes.of_behind [.rparen] hus
  exact Token.texts_word_ne_rparen k ctx ts us

end GoesOn

end Draft

namespace Dialect

/-- A limit is in one place of a page. -/
theorem pagination_some (d : Dialect) (offset : Option Draft) (ordered : Bool) :
    ∃ front rest : Draft, ∀ n : Draft,
      d.pagination (some n) offset ordered = front ++ (n ++ rest) := by
  have hfetch (skipped n : Draft) : skipped ++ fetchRows n =
      skipped ++ tokens [.space, .keyword .fetch, .space, .keyword .next, .space] ++
        (n ++ tokens [.space, .keyword .rows, .space, .keyword .only]) := by
    rw [fetchRows_eq, append_assoc, append_assoc]
  have hlimit (rest n : Draft) : clause [.limit] n ++ rest =
      tokens [.space, .keyword .limit, .space] ++ (n ++ rest) := append_assoc _ _ _
  cases d with
  | mssql => exact ⟨_, _, hfetch (when (!ordered) anyOrder ++ offsetRows (offset.getD _))⟩
  | oracle =>
    cases offset with
    | none => exact ⟨_, _, hfetch empty⟩
    | some m => exact ⟨_, _, hfetch (offsetRows m)⟩
  | _ =>
    cases offset with
    | none => exact ⟨_, _, hlimit empty⟩
    | some m => exact ⟨_, _, hlimit (clause [.offset] m)⟩

/-- Behind what a page with a limit has in common with the same page without one, the one goes on
    with a word, and the other is at its end or goes on with another word. -/
theorem pagination_apart (d : Dialect) (n : Draft) (offset : Option Draft) (ordered : Bool) :
    ∃ (common limited rest : Draft) (k : Keyword), k.startsPage = true ∧ limited.GoesOn k ∧
      d.pagination (some n) offset ordered = common ++ limited ∧
      d.pagination none offset ordered = common ++ rest ∧
      (rest = empty ∨ k = .limit ∧ rest.GoesOn .offset) := by
  have hfetch : (fetchRows n).GoesOn .fetch :=
    ((GoesOn.clause .fetch [.next] n).append space).append _
  have hoffset (m : Draft) : (offsetRows m).GoesOn .offset :=
    ((GoesOn.clause .offset [] m).append space).append _
  -- with a limit the text goes on with a word that the text without it does not have there
  cases d with
  | mssql =>
    cases offset with
    | some m =>
      exact ⟨when (!ordered) anyOrder ++ offsetRows m, fetchRows n, empty, .fetch, rfl, hfetch, rfl,
        rfl, .inl rfl⟩
    | none =>
      cases ordered with
      | false =>
        have horder : anyOrder.GoesOn .orderBy := .clause .orderBy [] _
        exact ⟨empty, anyOrder ++ offsetRows (token (.int 0)) ++ fetchRows n, empty, .orderBy, rfl,
          (horder.append _).append (fetchRows n), rfl, rfl, .inl rfl⟩
      | true =>
        exact ⟨empty, offsetRows (token (.int 0)) ++ fetchRows n, empty, .offset, rfl,
          (hoffset (token (.int 0))).append (fetchRows n), rfl, rfl, .inl rfl⟩
  | oracle =>
    cases offset with
    | none => exact ⟨empty, fetchRows n, empty, .fetch, rfl, hfetch, rfl, rfl, .inl rfl⟩
    | some m => exact ⟨offsetRows m, fetchRows n, empty, .fetch, rfl, hfetch, rfl, rfl, .inl rfl⟩
  | _ =>
    have hlimit (rest : Draft) : (clause [.limit] n ++ rest).GoesOn .limit :=
      (GoesOn.clause .limit [] n).append rest
    cases offset with
    | none => exact ⟨empty, _, empty, .limit, rfl, hlimit empty, rfl, rfl, .inl rfl⟩
    | some m =>
      exact ⟨empty, _, clause [.offset] m, .limit, rfl, hlimit _, rfl, rfl,
        .inr ⟨rfl, .clause .offset [] m⟩⟩

end Dialect

/-! ## The lengths of texts -/

namespace Token

theorem width_cons (ctx : Context) (t : Token) (ts : List Token) :
    width ctx (t :: ts) = (t.text ctx).length + width ctx ts := by
  have hone : width ctx [t] = (t.text ctx).length := by simp [width, texts]
  rw [← List.singleton_append, width_append, hone]

end Token

/-- A limit makes a page longer, by more than its number. -/
theorem Dialect.width_pageTokens (d : Dialect) (n : Int64) (offset : Option Int64) (ordered : Bool)
    (ctx : Context) :
    Token.width ctx (d.pageTokens none offset ordered) + Token.width ctx [.int n] <
      Token.width ctx (d.pageTokens (some n) offset ordered) := by
  have hblank : (Token.space.text ctx).length = 1 :=
    (by decide : " ".length = 1)
  have hempty : Token.width ctx [] = 0 := rfl
  cases d <;> cases offset <;>
    simp only [pageTokens, Option.elim, Token.width_append, Token.width_cons, hblank, hempty] <;>
    omega

namespace Draft

/-- Parts that bind equally many values make the difference between the texts around them. -/
theorem width_exchange {front a b rest : Draft}
    (hcount : (Piece.values a.pieces).length = (Piece.values b.pieces).length)
    {p p₁ p₂ : Parameters} {ts us : List Token}
    (hts : (front ++ (a ++ rest)).finish p = (.ok ts, p₁))
    (hus : (front ++ (b ++ rest)).finish p = (.ok us, p₂)) (ctx : Context) :
    ∃ count : ℕ,
      Token.width ctx ts + Token.width ctx (Piece.number p.factory count b.pieces) =
        Token.width ctx us + Token.width ctx (Piece.number p.factory count a.pieces) := by
  have hwritten {c : Draft} {vs : List Token} {p' : Parameters}
      (h : (front ++ (c ++ rest)).finish p = (.ok vs, p')) :
      vs = Piece.number p.factory p.values.length (front.pieces ++ (c.pieces ++ rest.pieces)) := by
    have hstop := complete_of_finish h
    obtain ⟨hfront, hbehind⟩ := stop_append hstop
    rw [finish_of_complete hstop, append_of_complete hfront,
      append_of_complete (stop_append hbehind).1] at h
    exact (Except.ok.inj (congrArg Prod.fst h)).symm
  refine ⟨p.values.length + (Piece.values front.pieces).length, ?_⟩
  rw [hwritten hts, hwritten hus]
  simp only [Piece.number_append, Token.width_append, hcount]
  omega

end Draft

/-- All rows with a limit are written longer than without one, by more than its number. -/
theorem Dialect.width_page {d : Dialect} {offset : Option Int64} {ordered : Bool} {n : Int64}
    {front close : Draft} {p p₁ p₂ : Parameters} {ts us : List Token}
    (hts : (front ++ (tokens (d.pageTokens none offset ordered) ++ close)).finish p = (.ok ts, p₁))
    (hus : (front ++ (tokens (d.pageTokens (some n) offset ordered) ++ close)).finish p =
      (.ok us, p₂)) (ctx : Context) :
    Token.width ctx ts + Token.width ctx [.int n] < Token.width ctx us := by
  have hvalues (vs : List Token) : Piece.values (tokens vs).pieces = [] := Piece.values_map_token vs
  obtain ⟨count, hwidth⟩ := width_exchange (by rw [hvalues, hvalues]) hts hus ctx
  have hnumber (vs : List Token) : Piece.number p.factory count (tokens vs).pieces = vs :=
    Piece.number_map_token p.factory count vs
  rw [hnumber, hnumber] at hwidth
  have hpage := d.width_pageTokens n offset ordered ctx
  omega

/-- Counts bind equally many values, and what is written of the one is longer than what is written
    of the other by its digits at most. -/
theorem Value.width_count (ctx look : Context) (n k : Int64) (factory : Option (Nat → String))
    (count : ℕ) :
    (Piece.values (Value.draft ctx (.int n) true).pieces).length =
        (Piece.values (Value.draft ctx (.int k) true).pieces).length ∧
      Token.width look (Piece.number factory count (Value.draft ctx (.int n) true).pieces) ≤
        Token.width look (Piece.number factory count (Value.draft ctx (.int k) true).pieces) +
          Token.width look [.int n] := by
  have hdraft (m : Int64) : Value.draft ctx (.int m) true =
      if ctx.binding then hole (.int m) ctx.dialect else token (.int m) := by
    rw [Value.draft, Bool.and_true]
    cases ctx.binding <;> rfl
  rw [hdraft, hdraft]
  split
  · exact ⟨rfl, Nat.le_add_right _ _⟩
  · exact ⟨rfl, Nat.le_add_left _ _⟩

end SqlCompose
