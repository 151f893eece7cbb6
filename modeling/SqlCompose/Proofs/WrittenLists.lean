import SqlCompose.Proofs.SourceNames
import SqlCompose.Proofs.Upserts

/-! # Written lists — the select list and the rows of a written statement

    A list of terms is written as the terms are, in their order, with a comma between each two. So
    the tokens of a SELECT have the select list in them, term by term, and those of an INSERT of
    rows have the rows, each between parentheses.

    * `Draft.Writes` — the tokens of a draft, wherever the numbering of placeholders is; what is
      written of drafts that are put together is written of each.
    * `Query.ShowsList`, `Query.showsList_of_finish` — where the select list stands.
    * `Query.ShowsRows`, `Query.showsRows_of_finish` — where the rows stand. -/

namespace SqlCompose

open Draft

/-! ## Tokens of drafts -/

namespace Draft

/-- The tokens are what is written of the draft, behind whatever has been bound before. -/
def Writes (d : Draft) (ts : List Token) : Prop :=
  ∃ p p' : Parameters, d.finish p = (.ok ts, p')

namespace Writes

variable {a b d part : Draft} {ds : List Draft} {ts : List Token}

/-- A draft that does not stop is written. -/
theorem of_complete (h : d.stop = none) : d.Writes (Piece.number none 0 d.pieces) :=
  ⟨{}, _, finish_of_complete h {}⟩

theorem of_append (h : (a ++ b).Writes ts) :
    ∃ us vs : List Token, a.Writes us ∧ b.Writes vs ∧ ts = us ++ vs := by
  obtain ⟨p, p', h⟩ := h
  obtain ⟨us, vs, p₁, ha, hb, rfl⟩ := finish_append_ok h
  exact ⟨us, vs, ⟨p, p₁, ha⟩, ⟨p₁, p', hb⟩, rfl⟩

theorem of_tokens {us : List Token} (h : (tokens us).Writes ts) : ts = us := by
  obtain ⟨p, p', h⟩ := h
  rw [finish_tokens_eq] at h
  exact (Except.ok.inj (congrArg Prod.fst h)).symm

theorem of_empty (h : empty.Writes ts) : ts = [] :=
  of_tokens (show (tokens []).Writes ts from h)

theorem of_token {t : Token} (h : (token t).Writes ts) : ts = [t] :=
  of_tokens (show (tokens [t]).Writes ts from h)

/-- What starts with tokens is written with them in front. -/
theorem of_behind (us : List Token) (h : (tokens us ++ d).Writes ts) :
    ∃ vs : List Token, d.Writes vs ∧ ts = us ++ vs := by
  obtain ⟨front, vs, hfront, hvs, rfl⟩ := of_append h
  obtain rfl := of_tokens hfront
  exact ⟨vs, hvs, rfl⟩

theorem of_parensIf {condition : Bool} (h : (parensIf condition d).Writes ts) :
    ∃ us : List Token, d.Writes us ∧ ts = enclosedIf condition us := by
  obtain ⟨p, p', h⟩ := h
  obtain ⟨us, hd, rfl⟩ := finish_parensIf_ok h
  exact ⟨us, ⟨p, p', hd⟩, rfl⟩

theorem of_parens (h : (parens d).Writes ts) :
    ∃ us : List Token, d.Writes us ∧ ts = enclosedIf true us :=
  (show (parensIf true d).Writes ts from h).of_parensIf

/-- Drafts with a comma between each two are written with a comma between each two. -/
theorem of_commas (h : (commas ds).Writes ts) :
    ∃ lists : List (List Token), List.Forall₂ Writes ds lists ∧ ts = Token.joined .comma lists := by
  induction ds generalizing ts with
  | nil => exact ⟨[], .nil, of_tokens h⟩
  | cons first rest ih =>
    cases rest with
    | nil => exact ⟨[ts], .cons h .nil, rfl⟩
    | cons second rest =>
      have h : (first ++ tokens [.comma] ++ commas (second :: rest)).Writes ts := h
      rw [append_assoc] at h
      obtain ⟨us, behind, hus, hbehind, rfl⟩ := of_append h
      obtain ⟨vs, hvs, rfl⟩ := of_behind [.comma] hbehind
      obtain ⟨lists, hlists, rfl⟩ := ih hvs
      refine ⟨us :: lists, .cons hus hlists, ?_⟩
      cases hlists with
      | cons _ _ => rfl

/-- What is written inside of a draft is written of it. -/
theorem of_holds (hpart : Holds part d) (h : d.Writes ts) :
    ∃ before us after : List Token, part.Writes us ∧ ts = before ++ us ++ after := by
  obtain ⟨front, rear, rfl⟩ := hpart
  obtain ⟨started, after, hstarted, -, rfl⟩ := of_append h
  obtain ⟨before, us, -, hus, rfl⟩ := of_append hstarted
  exact ⟨before, us, after, hus, rfl⟩

end Writes

end Draft

theorem termDrafts_eq_map (ctx : Context) (ts : List Term) :
    termDrafts ctx ts = ts.map fun t => t.draft ctx := by
  induction ts with
  | nil => rfl
  | cons t rest ih => exact congrArg (t.draft ctx :: ·) ih

/-- Terms are written as the tokens, each as one of the lists. -/
def Term.WriteAll (ctx : Context) : List Term → List (List Token) → Prop :=
  List.Forall₂ fun t ts => (t.draft ctx).Writes ts

theorem Term.writeAll_of_commas {ctx : Context} {terms : List Term} {ts : List Token}
    (h : (commas (termDrafts ctx terms)).Writes ts) :
    ∃ lists : List (List Token),
      Term.WriteAll ctx terms lists ∧ ts = Token.joined .comma lists := by
  obtain ⟨lists, hlists, rfl⟩ := h.of_commas
  rw [termDrafts_eq_map, List.forall₂_map_left_iff] at hlists
  exact ⟨lists, hlists, rfl⟩

/-! ## The select list -/

namespace Query

/-- The tokens have the select list in them: behind `SELECT` and what makes the rows different or
    few, all selected terms with a comma between each two. -/
def ShowsList (outer : Context) (q : Query) (ts : List Token) : Prop :=
  ∃ (before head after : List Token) (lists : List (List Token)),
    (Clause.selectHead (q.innerContext outer) q q.parts).Writes head ∧
    Term.WriteAll (q.itemContext outer) q.selects lists ∧
    ts = before ++ (.keyword .select :: .space :: head ++ Token.joined .comma lists) ++ after

/-- The select list is written wherever rows are selected. -/
theorem holds_selecting {q : Query} (hselection : q.isSelection = true)
    (hdeletes : q.deletes = false) (outer : Context) :
    Holds (Clause.selecting (q.innerContext outer) q q.parts) (q.draft outer) := by
  have hinside : Holds (Clause.selecting (q.innerContext outer) q q.parts) (q.inside outer) := by
    show Holds _ (Clause.selection _ q q.parts)
    simp only [Clause.selection, hdeletes, Bool.false_eq_true, if_false, append_assoc]
    exact (((Holds.refl _).before _).behind _).behind _
  rw [draft_of_isSelection hselection]
  refine Holds.before ?_ _
  cases outer.nested with
  | false => exact hinside
  | true => exact (hinside.behind _).before _

theorem showsList_of_writes {q : Query} (hselection : q.isSelection = true)
    (hdeletes : q.deletes = false) {outer : Context} {ts : List Token}
    (h : (q.draft outer).Writes ts) : q.ShowsList outer ts := by
  obtain ⟨before, us, after, hus, rfl⟩ := h.of_holds (holds_selecting hselection hdeletes outer)
  have hselecting : Clause.selecting (q.innerContext outer) q q.parts =
      tokens [.keyword .select, .space] ++
        (Clause.selectHead (q.innerContext outer) q q.parts ++
          (commas (termDrafts (q.itemContext outer) q.selects) ++
            when (q.selectsInto && q.insertTable.isSome)
              (clause [.into] (Clause.target (q.innerContext outer) q q.parts)))) := by
    simp only [Clause.selecting, append_assoc, q.parts_eq]
    rfl
  rw [hselecting] at hus
  obtain ⟨vs, hvs, rfl⟩ := Writes.of_behind _ hus
  obtain ⟨head, ws, hhead, hws, rfl⟩ := hvs.of_append
  obtain ⟨list, into, hlist, -, rfl⟩ := hws.of_append
  obtain ⟨lists, hlists, rfl⟩ := Term.writeAll_of_commas hlist
  refine ⟨before, head, into ++ after, lists, hhead, hlists, ?_⟩
  simp only [List.append_assoc, List.cons_append, List.nil_append]

/-! ## The rows -/

/-- The tokens of a row. -/
def rowTokens (row : List (List Token)) : List Token := enclosedIf true (Token.joined .comma row)

/-- The tokens are those of an INSERT or a REPLACE of the statement's rows: behind `VALUES`, all
    rows with a comma between each two, and in each of them all terms. -/
def ShowsRows (outer : Context) (q : Query) (ts : List Token) : Prop :=
  ∃ (before target after : List Token) (rows : List (List (List Token))),
    (Clause.withs (q.innerContext outer) q q.parts).Writes before ∧
    (Clause.resolved (q.innerContext outer) q q.parts ++
      Clause.returned (q.innerContext outer) q q.parts).Writes after ∧
    List.Forall₂ (Term.WriteAll (q.itemContext outer)) q.rows rows ∧
    ts = before ++ (.keyword (if q.replaces then .replace else .insert) :: target) ++
      (.space :: .keyword .values :: .space :: Token.joined .comma (rows.map rowTokens)) ++ after

/-- An INSERT or a REPLACE starts with its verb. -/
theorem inserting_eq (ctx : Context) (q : Query) :
    ∃ rest : Draft, Clause.inserting ctx q q.parts =
      tokens [.keyword (if q.replaces then .replace else .insert)] ++ rest := by
  simp only [Clause.inserting, append_assoc]
  cases q.replaces with
  | true => exact ⟨_, rfl⟩
  | false => exact ⟨_, append_assoc _ _ _⟩

/-- Rows are written as lists of terms. -/
theorem writeAll_of_rowDrafts {ctx : Context} {rows : List (List Term)}
    {texts : List (List Token)} (h : List.Forall₂ Draft.Writes (rowDrafts ctx rows) texts) :
    ∃ lists : List (List (List Token)),
      List.Forall₂ (Term.WriteAll ctx) rows lists ∧ texts = lists.map rowTokens := by
  induction rows generalizing texts with
  | nil =>
    cases h
    exact ⟨[], .nil, rfl⟩
  | cons row rest ih =>
    cases h with
    | cons hrow hrest =>
      obtain ⟨us, hus, rfl⟩ := hrow.of_parens
      obtain ⟨list, hlist, rfl⟩ := Term.writeAll_of_commas hus
      obtain ⟨lists, hlists, rfl⟩ := ih hrest
      exact ⟨list :: lists, .cons hlist hlists, rfl⟩

theorem showsRows_of_writes {q : Query} (hq : q.effect.InsertsOnly) (hrows : q.rows ≠ [])
    {outer : Context} {ts : List Token} (h : (q.draft outer).Writes ts) : q.ShowsRows outer ts := by
  rw [draft_of_insertsOnly hq hrows, append_assoc] at h
  obtain ⟨inserted, after, hinserted, hafter, rfl⟩ := h.of_append
  obtain ⟨us, values, hus, hvalues, rfl⟩ := Writes.of_append hinserted
  obtain ⟨before, inserting, hbefore, hinserting, rfl⟩ := hus.of_append
  obtain ⟨rest, heq⟩ := inserting_eq (q.innerContext outer) q
  rw [heq] at hinserting
  obtain ⟨target, -, rfl⟩ := Writes.of_behind _ hinserting
  obtain ⟨list, hlist, rfl⟩ := Writes.of_behind [.space, .keyword .values, .space] hvalues
  rw [q.parts_eq] at hlist
  obtain ⟨texts, htexts, rfl⟩ := Writes.of_commas hlist
  obtain ⟨rows, hwritten, rfl⟩ := writeAll_of_rowDrafts htexts
  refine ⟨before, target, after, rows, hbefore, hafter, hwritten, ?_⟩
  simp only [List.append_assoc, List.cons_append, List.nil_append]

end Query

end SqlCompose
