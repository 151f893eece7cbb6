import SqlCompose.Proofs.Capturing
import SqlCompose.Proofs.Closure
import SqlCompose.Proofs.WrittenLists

/-! # Introductions — the words that criteria stand behind

    WHERE, PREWHERE, HAVING and the ON of a join say that a criterion follows. So it matters that no
    word of these is written alone: wherever one stands in the tokens of a statement, what follows
    it are the tokens of a criterion that asks for something. Other words ON are told apart by their
    neighbours, as they are by a reader.

    * `Introduction` — what stands around such a word, and the criterion behind it.
    * `Introduced` — that so it is for every such word in a list of tokens.
    * `Draft.Introduces` — the same of all that is written of a draft; `Introduces.closure` says
      that composition keeps it.
    * `Introduces.clause`, `Introduces.filter` — a word with its criterion behind it.
    * `Introduces.distinctOn` and its like — the words ON that are for no criterion. -/

namespace SqlCompose

open Draft

/-! ## Words and criteria -/

/-- What stands in front of a word for a criterion and behind it. Behind the word of a clause are
    the tokens of a criterion that asks for something; behind that of an aggregate's filter are
    those of the filter, whatever it asks for. No criterion belongs to the ON of a conflict clause
    and of DISTINCT ON. -/
inductive Introduction (C : CriterionPlace → Term → Prop) :
    List Token → Keyword → List Token → Prop
  | clause {place : CriterionPlace} {t : Term} {ctx : Context} {us : List Token}
      (before after : List Token) :
      place ≠ .aggregate → C place t → t.isEmpty = false → (t.draft ctx).Writes us →
        Introduction C (before ++ [.space]) place.keyword (.space :: (us ++ after))
  | filter {t : Term} {ctx : Context} {us : List Token} (before after : List Token) :
      C .aggregate t → (t.draft ctx).Writes us →
        Introduction C (before ++ [.keyword .filter, .lparen]) .where_
          (.space :: (us ++ .rparen :: after))
  | distinctOn (before after : List Token) :
      Introduction C (before ++ [.keyword .distinct, .space]) .on after
  | onConflict (before after : List Token) :
      Introduction C before .on (.space :: .keyword .conflict :: after)
  | onDuplicateKey (before after : List Token) :
      Introduction C before .on (.space :: .keyword .duplicateKey :: after)

/-- Wherever a word for a criterion stands among the tokens, it is in its place. -/
def Introduced (C : CriterionPlace → Term → Prop) (ts : List Token) : Prop :=
  ∀ (before : List Token) (k : Keyword) (after : List Token),
    ts = before ++ .keyword k :: after → k.introduces = true → Introduction C before k after

section

variable {C : CriterionPlace → Term → Prop} {us vs before after : List Token} {k : Keyword}

/-- What stands further away does not matter. -/
theorem Introduction.extend (h : Introduction C before k after) (us vs : List Token) :
    Introduction C (us ++ before) k (after ++ vs) := by
  cases h with
  | clause before after hplace ht hasks hwrites =>
    have hclause := Introduction.clause (us ++ before) (after ++ vs) hplace ht hasks hwrites
    simpa only [List.append_assoc, List.cons_append] using hclause
  | filter before after ht hwrites =>
    have hfilter := Introduction.filter (us ++ before) (after ++ vs) ht hwrites
    simpa only [List.append_assoc, List.cons_append] using hfilter
  | distinctOn before after =>
    rw [← List.append_assoc]
    exact .distinctOn _ _
  | onConflict before after => exact .onConflict _ _
  | onDuplicateKey before after => exact .onDuplicateKey _ _

namespace Introduced

/-- Where a word for a criterion stands, the tokens are not mute. -/
theorem not_mute (hk : k.introduces = true) :
    (before ++ .keyword k :: after).all Token.isMute = false := by
  rw [List.all_append, List.all_cons, Token.isMute, hk, Bool.not_true, Bool.false_and,
    Bool.and_false]

theorem of_mute (h : us.all Token.isMute = true) : Introduced C us := by
  rintro before k after rfl hk
  rw [not_mute hk] at h
  cases h

/-- A word stands in the first part or in the second. -/
theorem append (hu : Introduced C us) (hv : Introduced C vs) : Introduced C (us ++ vs) := by
  intro before k after h hk
  rcases List.append_eq_append_iff.mp h with ⟨middle, rfl, hvs⟩ | ⟨middle, hus, hbehind⟩
  · have hin := (hv middle k after hvs hk).extend us []
    rwa [List.append_nil] at hin
  · cases middle with
    | nil =>
      have hin := (hv [] k after hbehind.symm hk).extend us []
      rw [List.append_nil] at hus
      rwa [List.append_nil, List.append_nil, hus] at hin
    | cons t middle =>
      obtain ⟨rfl, rfl⟩ := List.cons.inj hbehind
      exact (hu before k middle hus hk).extend [] vs

/-- Other tokens in front. -/
theorem behind (us : List Token) (hu : us.all Token.isMute = true) (hv : Introduced C vs) :
    Introduced C (us ++ vs) :=
  (of_mute hu).append hv

/-- A word in its place, with others behind it. -/
theorem word (us : List Token) (hu : us.all Token.isMute = true)
    (hk : k.introduces = true → Introduction C us k vs) (hv : Introduced C vs) :
    Introduced C (us ++ .keyword k :: vs) := by
  intro before l after h hl
  rcases List.append_eq_append_iff.mp h with ⟨middle, rfl, hvs⟩ | ⟨middle, hus, hbehind⟩
  · cases middle with
    | nil =>
      obtain ⟨hword, rfl⟩ := List.cons.inj hvs
      obtain rfl := Token.keyword.inj hword
      rw [List.append_nil]
      exact hk hl
    | cons t middle =>
      obtain ⟨rfl, rfl⟩ := List.cons.inj hvs
      have hin := (hv middle l after rfl hl).extend (us ++ [.keyword k]) []
      rwa [List.append_nil, List.append_assoc] at hin
  · -- the word is in `us`, which has none that introduces, or it is the one behind `us`
    cases middle with
    | nil =>
      rw [List.append_nil] at hus
      subst hus
      obtain ⟨hword, rfl⟩ := List.cons.inj hbehind
      obtain rfl := Token.keyword.inj hword
      exact hk hl
    | cons t middle =>
      obtain ⟨rfl, -⟩ := List.cons.inj hbehind
      subst hus
      rw [not_mute hl] at hu
      cases hu

end Introduced

end

/-! ## Drafts -/

namespace Draft

/-- Whatever is written of the draft, every word for a criterion in it is in its place. -/
def Introduces (C : CriterionPlace → Term → Prop) (d : Draft) : Prop :=
  ∀ ts, d.Writes ts → Introduced C ts

/-- Placeholders are mute, whatever their numbers. -/
theorem all_isMute_number {pieces : List Piece} (h : pieces.all Piece.isMute = true)
    (factory : Option (Nat → String)) (count : Nat) :
    (Piece.number factory count pieces).all Token.isMute = true := by
  induction pieces generalizing count with
  | nil => rfl
  | cons piece rest ih =>
    rw [List.all_cons, Bool.and_eq_true] at h
    cases piece with
    | token t =>
      rw [Piece.number, List.all_cons, ih h.2, Bool.and_true]
      exact h.1
    | hole v d =>
      rw [Piece.number, List.all_cons, ih h.2, Bool.and_true]
      rfl

/-- An aggregate's filter is written between its words and a parenthesis. -/
theorem Writes.of_filter {d : Draft} {ts : List Token}
    (h : (space ++ word .filter ++ parens (word .where_ ++ space ++ d)).Writes ts) :
    ∃ us, d.Writes us ∧
      ts = [.space, .keyword .filter, .lparen, .keyword .where_, .space] ++ (us ++ [.rparen]) := by
  have hsame : space ++ word .filter ++ parens (word .where_ ++ space ++ d)
      = tokens [.space, .keyword .filter, .lparen, .keyword .where_, .space]
        ++ (d ++ token .rparen) := by
    simp only [parens, append_assoc]
    rfl
  rw [hsame] at h
  obtain ⟨vs, hvs, rfl⟩ := h.of_behind
  obtain ⟨us, ws, hus, hws, rfl⟩ := hvs.of_append
  obtain rfl := hws.of_token
  exact ⟨us, hus, rfl⟩

namespace Introduces

variable {C : CriterionPlace → Term → Prop} {a b d : Draft} {t : Term} {ctx : Context}

/-- Of a draft that stops nothing is written. -/
theorem of_stop (h : d.stop ≠ none) : d.Introduces C := by
  rintro ts ⟨p, p', hwrites⟩
  exact absurd (complete_of_finish hwrites) h

/-- No word, no place. -/
theorem of_mute (h : d.isMute = true) : d.Introduces C := by
  cases hstop : d.stop with
  | some stop =>
    refine of_stop ?_
    rw [hstop]
    exact Option.some_ne_none stop
  | none =>
    rintro ts ⟨p, p', hwrites⟩
    rw [finish_of_complete hstop] at hwrites
    obtain rfl := Except.ok.inj (Prod.mk.inj hwrites).1
    exact .of_mute (all_isMute_number h _ _)

/-- A word stands in the first draft or in the second. -/
theorem append (ha : a.Introduces C) (hb : b.Introduces C) : (a ++ b).Introduces C := by
  intro ts h
  obtain ⟨us, vs, hus, hvs, rfl⟩ := h.of_append
  exact (ha us hus).append (hb vs hvs)

/-- Composition puts no word out of its place. -/
theorem closure : Closure (Introduces C) where
  plain := fun h => of_mute (isMute_of_isPlain h)
  append := append

/-- The word of a clause with the criterion behind it. -/
theorem clause (place : CriterionPlace) (hplace : place ≠ .aggregate) (hasks : t.isEmpty = false)
    (ht : C place t) (hd : (t.draft ctx).Introduces C) :
    (Draft.clause [place.keyword] (t.draft ctx)).Introduces C := by
  intro ts h
  obtain ⟨us, hus, rfl⟩ := Writes.of_behind [.space, .keyword place.keyword, .space] h
  have hbehind : Introduced C (.space :: us) := .behind [.space] rfl (hd us hus)
  refine Introduced.word [.space] rfl ?_ hbehind
  intro _
  have hclause := Introduction.clause (C := C) [] [] hplace ht hasks hus
  rwa [List.append_nil] at hclause

/-- The word of an aggregate's filter with the filter behind it. -/
theorem filter (ht : C .aggregate t) (hd : (t.draft ctx).Introduces C) :
    (CriterionPlace.aggregate.introduce (t.draft ctx)).Introduces C := by
  intro ts h
  obtain ⟨us, hus, rfl⟩ := Writes.of_filter h
  have hbehind : Introduced C (.space :: (us ++ [.rparen])) :=
    .behind [.space] rfl ((hd us hus).append (.of_mute rfl))
  refine Introduced.word [.space, .keyword .filter, .lparen] rfl ?_ hbehind
  intro _
  exact .filter [.space] [] ht hus

/-- DISTINCT ON is told apart by its first word. -/
theorem distinctOn : (words [.distinct, .on]).Introduces C := by
  intro ts h
  have h : (tokens [.keyword .distinct, .space, .keyword .on]).Writes ts := h
  obtain rfl := h.of_tokens
  exact Introduced.word [.keyword .distinct, .space] rfl (fun _ => .distinctOn [] []) (.of_mute rfl)

/-- ON CONFLICT is told apart by its second word. -/
theorem onConflict : (space ++ words [.on, .conflict]).Introduces C := by
  intro ts h
  have h : (tokens [.space, .keyword .on, .space, .keyword .conflict]).Writes ts := h
  obtain rfl := h.of_tokens
  exact Introduced.word [.space] rfl (fun _ => .onConflict [.space] []) (.of_mute rfl)

/-- ON DUPLICATE KEY is told apart by its second word. -/
theorem onDuplicateKey (hd : d.Introduces C) :
    (Draft.clause [.on, .duplicateKey, .update] d).Introduces C := by
  intro ts h
  obtain ⟨us, hus, rfl⟩ := Writes.of_behind [.space, .keyword .on, .space, .keyword .duplicateKey,
    .space, .keyword .update, .space] h
  have hbehind : Introduced C ([.space, .keyword .duplicateKey, .space, .keyword .update, .space]
    ++ us) := .behind _ rfl (hd us hus)
  exact Introduced.word [.space] rfl (fun _ => .onDuplicateKey _ _) hbehind

end Introduces

end Draft

end SqlCompose
