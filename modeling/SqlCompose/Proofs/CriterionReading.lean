import SqlCompose.Proofs.Criterion

/-! # Reading criteria — the boolean structure survives writing

    A reader of criteria knows only what every reader of SQL would: NOT binds tightest, parentheses
    group, and what stands between two parentheses is read from left to right, whichever combinators
    are in it. An alias names what stands before it and is passed over. The reader takes one token
    after the other and remembers the levels of parentheses that are open.

    * `Reader`, `Reader.step`, `read?` — the reader.
    * `Unmixed` — no level of parentheses has two different combinators in it.
    * `Criterion.isRead`, `Criterion.keepsLevels` — what each tree does to the reader and to the
      levels, by induction over the tree.
    * `Criterion.read_written` — what is written of a criterion is read as the criterion, but for
      the nesting of chains of one combinator. -/

namespace SqlCompose

/-- The combinator of a keyword. -/
def Combinator.ofKeyword? : Keyword → Option Combinator
  | .and => some .and
  | .or => some .or
  | .xor => some .xor
  | _ => none

theorem Combinator.ofKeyword?_keyword (op : Combinator) :
    Combinator.ofKeyword? op.keyword = some op := by
  cases op <;> rfl

/-! ## The reader -/

/-- A criterion under a number of NOTs. -/
def Criterion.negated {α : Type} : Nat → Criterion α → Criterion α
  | 0, c => c
  | n + 1, c => negated n (.not c none)

/-- A level of parentheses, as far as it has been read: the chain with the combinator behind it, and
    the NOTs behind that. -/
structure Level where
  before : Option (Criterion (List Token) × Combinator) := none
  nots   : Nat := 0

/-- What has been read of an operand. -/
inductive Reading
  | missing
  /-- The words of a comparison, to which others may come. -/
  | words (ts : List Token)
  /-- A criterion in parentheses. -/
  | group (c : Criterion (List Token))

/-- A text that is being read: the levels around, the innermost first, the level, and the operand
    that is being read in it. -/
structure Reader where
  around  : List Level := []
  level   : Level := {}
  operand : Reading := .missing

namespace Reader

/-- The criterion that the level is, if nothing comes behind the operand. -/
def closed? (r : Reader) : Option (Criterion (List Token)) :=
  match r.operand with
  | .missing => none
  | .words ts => some (.behind r.level.before (.negated r.level.nots (.comparison ts)))
  | .group c => some (.behind r.level.before (.negated r.level.nots c))

/-- Reads one token. -/
def step (r : Reader) : Token → Option Reader
  | .space | .keyword .as | .aliasName _ => some r
  | .lparen =>
    match r.operand with
    | .missing => some { around := r.level :: r.around }
    | _ => none
  | .rparen =>
    match r.around, r.closed? with
    | outer :: around, some c => some ⟨around, outer, .group c⟩
    | _, _ => none
  | .keyword .not =>
    match r.operand with
    | .missing => some { r with level := { r.level with nots := r.level.nots + 1 } }
    | _ => none
  | .keyword k =>
    match r.closed?, Combinator.ofKeyword? k with
    | some c, some op => some ⟨r.around, ⟨some (c, op), 0⟩, .missing⟩
    | _, _ => none
  | t =>
    match r.operand with
    | .missing => some { r with operand := .words [t] }
    | .words ts => some { r with operand := .words (ts ++ [t]) }
    | .group _ => none

/-- Reads tokens one after the other. -/
def run (r : Reader) (ts : List Token) : Option Reader := ts.foldlM step r

end Reader

/-- Reads a criterion; every parenthesis that is opened has to be closed. -/
def Criterion.read? (ts : List Token) : Option (Criterion (List Token)) :=
  match Reader.run {} ts with
  | some ⟨[], level, operand⟩ => Reader.closed? ⟨[], level, operand⟩
  | _ => none

namespace Reader

theorem run_append (r : Reader) (ts us : List Token) :
    r.run (ts ++ us) = (r.run ts).bind fun s => s.run us := List.foldlM_append

theorem run_cons (r : Reader) (t : Token) (ts : List Token) :
    r.run (t :: ts) = (r.step t).bind fun s => s.run ts := List.foldlM_cons

/-- A word goes to the comparison that is being read. -/
theorem step_word {t : Token} (ht : t.isWord = true) (around : List Level) (level : Level)
    (ts : List Token) :
    step ⟨around, level, .words ts⟩ t = some ⟨around, level, .words (ts ++ [t])⟩ := by
  cases t <;> first | rfl | exact nomatch ht

theorem step_first_word {t : Token} (ht : t.isWord = true) (around : List Level) (level : Level) :
    step ⟨around, level, .missing⟩ t = some ⟨around, level, .words [t]⟩ := by
  cases t <;> first | rfl | exact nomatch ht

/-- A combinator goes behind what has been read of the level. -/
theorem step_combinator {r : Reader} {c : Criterion (List Token)} (h : r.closed? = some c)
    (op : Combinator) :
    r.step (.keyword op.keyword) = some ⟨r.around, ⟨some (c, op), 0⟩, .missing⟩ := by
  cases op <;> simp [step, Combinator.keyword, Combinator.ofKeyword?, h]

/-- A closing parenthesis makes the level an operand of the one around it. -/
theorem step_rparen {r : Reader} {c : Criterion (List Token)} (h : r.closed? = some c)
    {outer : Level} {around : List Level} (ha : r.around = outer :: around) :
    r.step .rparen = some ⟨around, outer, .group c⟩ := by
  simp [step, ha, h]

/-- The words of a phrase are read as one comparison. -/
theorem run_phrase {ts : List Token} (hts : IsPhrase ts) (around : List Level) (level : Level) :
    run ⟨around, level, .missing⟩ ts = some ⟨around, level, .words ts⟩ := by
  -- behind the first word, for any words read before
  have hmore : ∀ us vs : List Token, (∀ t ∈ us, t.isWord = true) →
      run ⟨around, level, .words vs⟩ us = some ⟨around, level, .words (vs ++ us)⟩ := by
    intro us
    induction us with
    | nil =>
      intro vs _
      rw [List.append_nil]
      rfl
    | cons t us ih =>
      intro vs hus
      rw [run_cons, step_word (hus t (List.mem_cons_self ..))]
      show run ⟨around, level, .words (vs ++ [t])⟩ us = _
      rw [ih _ fun u hu => hus u (List.mem_cons_of_mem _ hu), List.append_assoc]
      rfl
  cases ts with
  | nil => exact absurd rfl hts.ne_nil
  | cons t us =>
    rw [run_cons, step_first_word (hts.words t (List.mem_cons_self ..))]
    exact hmore us [t] fun u hu => hts.words u (List.mem_cons_of_mem _ hu)

theorem run_alias (r : Reader) (ctx : Context) (aliasName : Option String) :
    r.run (ctx.aliasTokens aliasName) = some r :=
  ctx.foldlM_aliasTokens (fun _ => rfl) (fun _ => rfl) (fun _ _ => rfl) aliasName r

/-- The tokens are read as an operand, after which the level is this criterion. -/
def Reads (r : Reader) (ts : List Token) (c : Criterion (List Token)) : Prop :=
  ∃ s, r.run ts = some s ∧ s.around = r.around ∧ s.closed? = some c

/-- A chain goes on behind a combinator. -/
theorem Reads.combine {r : Reader} {ts us : List Token} {c d : Criterion (List Token)}
    (h : r.Reads ts c) (op : Combinator)
    (h' : Reads ⟨r.around, ⟨some (c, op), 0⟩, .missing⟩ us d) :
    r.Reads (ts ++ .space :: .keyword op.keyword :: .space :: us) d := by
  obtain ⟨s, hrun, haround, hclosed⟩ := h
  obtain ⟨s', hrun', haround', hclosed'⟩ := h'
  refine ⟨s', ?_, haround', hclosed'⟩
  rw [run_append, hrun]
  show s.run (.space :: .keyword op.keyword :: .space :: us) = _
  rw [run_cons]
  show s.run (.keyword op.keyword :: .space :: us) = _
  rw [run_cons, step_combinator hclosed, haround]
  exact hrun'

/-- An operand may have an alias behind it. -/
theorem Reads.withAlias {r : Reader} {ts : List Token} {c : Criterion (List Token)}
    (h : r.Reads ts c)
    (ctx : Context) (aliasName : Option String) : r.Reads (ts ++ ctx.aliasTokens aliasName) c := by
  obtain ⟨s, hrun, haround, hclosed⟩ := h
  refine ⟨s, ?_, haround, hclosed⟩
  rw [run_append, hrun]
  exact s.run_alias ctx aliasName

/-- What stands in parentheses is read on a level of its own. -/
theorem Reads.parens {around : List Level} {level : Level} {ts : List Token}
    {c : Criterion (List Token)} (h : Reads ⟨level :: around, {}, .missing⟩ ts c) :
    Reads ⟨around, level, .missing⟩ (.lparen :: (ts ++ [.rparen]))
      (.behind level.before (.negated level.nots c)) := by
  obtain ⟨s, hrun, haround, hclosed⟩ := h
  refine ⟨⟨around, level, .group c⟩, ?_, rfl, rfl⟩
  rw [run_cons]
  show run ⟨level :: around, {}, .missing⟩ (ts ++ [.rparen]) = _
  rw [run_append, hrun]
  show s.run [.rparen] = _
  rw [run_cons, step_rparen hclosed haround]
  rfl

end Reader

/-! ## What a tree does to the reader -/

namespace Criterion

variable {ctx : Context}

/-- How a criterion is read: in parentheses as one operand, and without them as what the chain
    around it goes on with. -/
structure IsRead (ctx : Context) (c : Criterion (List Token)) : Prop where
  bracketed : ∀ (around : List Level) (level : Level),
    Reader.Reads ⟨around, level, .missing⟩ (c.tokens ctx id true)
      (behind level.before (negated level.nots (c.bare.nest none)))
  plain : ∀ (around : List Level) (before : Option (Criterion (List Token) × Combinator)),
    (∀ b op, before = some (b, op) → c.differsFrom op = false) →
      Reader.Reads ⟨around, ⟨before, 0⟩, .missing⟩ (c.tokens ctx id false) (c.bare.nest before)

/-- A criterion without a combinator at its top is read as one operand either way. -/
theorem IsRead.of_operand {c : Criterion (List Token)} {ts : List Token}
    (htokens : ∀ bracketed, c.tokens ctx id bracketed = ts)
    (hnest : ∀ before, c.bare.nest before = behind before (c.bare.nest none))
    (hread : ∀ (around : List Level) (level : Level), Reader.Reads ⟨around, level, .missing⟩ ts
      (behind level.before (negated level.nots (c.bare.nest none)))) : c.IsRead ctx where
  bracketed := by
    intro around level
    rw [htokens]
    exact hread around level
  plain := by
    intro around before _
    rw [htokens, hnest]
    exact hread around ⟨before, 0⟩

/-- The first operand of a combination, behind a chain of the same combinator. -/
theorem IsRead.left {c : Criterion (List Token)} (h : c.IsRead ctx) {op : Combinator}
    (around : List Level) {before : Option (Criterion (List Token) × Combinator)}
    (hbefore : ∀ b other, before = some (b, other) → op = other) :
    Reader.Reads ⟨around, ⟨before, 0⟩, .missing⟩ (c.tokens ctx id (c.differsFrom op))
      (if c.differsFrom op then behind before (c.bare.nest none) else c.bare.nest before) := by
  cases hdiffers : c.differsFrom op with
  | true => exact h.bracketed around ⟨before, 0⟩
  | false =>
    refine h.plain around before ?_
    intro b other hb
    obtain rfl := hbefore b other hb
    exact hdiffers

/-- The second operand of a combination, behind the first one. -/
theorem IsRead.right {c : Criterion (List Token)} (h : c.IsRead ctx) (op : Combinator)
    (around : List Level) (left : Criterion (List Token)) :
    Reader.Reads ⟨around, ⟨some (left, op), 0⟩, .missing⟩ (c.tokens ctx id (c.differsFrom op))
      (if c.differsFrom op then combination op left (c.bare.nest none)
      else c.bare.nest (some (left, op))) := by
  have hsame : ∀ (b : Criterion (List Token)) (other : Combinator),
      some (left, op) = some (b, other) → op = other := by
    intro b other hb
    cases hb
    rfl
  exact h.left around hsame

/-- Every criterion over phrases is read as it is. -/
theorem isRead {c : Criterion (List Token)} (hc : c.All IsPhrase) : c.IsRead ctx := by
  induction c with
  | comparison ts =>
    refine .of_operand (fun _ => rfl) (fun _ => rfl) ?_
    intro around level
    exact ⟨_, Reader.run_phrase hc around level, rfl, rfl⟩
  | not operand aliasName ih =>
    refine .of_operand (fun _ => rfl) (fun _ => rfl) ?_
    intro around level
    have hoperand := (ih hc).bracketed around ⟨level.before, level.nots + 1⟩
    exact hoperand.withAlias ctx aliasName
  | combination op left right ihl ihr =>
    -- in parentheses a combination is read as without them, on a level of its own
    have hplain : ∀ (around : List Level)
        (before : Option (Criterion (List Token) × Combinator)),
        (∀ b other, before = some (b, other) →
          (combination op left right).differsFrom other = false) →
            Reader.Reads ⟨around, ⟨before, 0⟩, .missing⟩
              ((combination op left right).tokens ctx id false)
              ((combination op left right).bare.nest before) := by
      intro around before hbefore
      have hleft := (ihl hc.1).left around fun b other hb => by
        simpa [differsFrom] using hbefore b other hb
      have hchain := hleft.combine op ((ihr hc.2).right op around _)
      have hnest : (combination op left right).bare.nest before =
          let first :=
            if left.differsFrom op then behind before (left.bare.nest none)
            else left.bare.nest before
          if right.differsFrom op then combination op first (right.bare.nest none)
          else right.bare.nest (some (first, op)) := by
        simp only [bare, nest, differsFrom_bare]
      rw [hnest]
      exact hchain
    exact
      { bracketed := fun around level => (hplain (level :: around) none fun _ _ h => by cases h).parens
        plain := hplain }

/-- What is written of a criterion is read as the criterion nested to the left. -/
theorem read?_tokens {c : Criterion (List Token)} (hc : c.All IsPhrase) :
    read? (c.tokens ctx id false) = some (c.bare.nest none) := by
  obtain ⟨⟨around, level, operand⟩, hrun, haround, hclosed⟩ := (isRead hc).plain [] none nofun
  obtain rfl : around = [] := haround
  have hrun : Reader.run {} (c.tokens ctx id false) = some ⟨[], level, operand⟩ := hrun
  simp only [read?]
  rw [hrun]
  exact hclosed

end Criterion

/-! ## Levels of parentheses -/

/-- The combinator of each level of parentheses that is open, as far as it has one: of those around,
    the innermost first, and of the level itself. -/
structure Levels where
  around : List (Option Combinator) := []
  level  : Option Combinator := none

namespace Levels

/-- Notes the combinator of a level; a second one that differs is not noted. -/
def step (l : Levels) : Token → Option Levels
  | .lparen => some ⟨l.level :: l.around, none⟩
  | .rparen =>
    match l.around with
    | outer :: around => some ⟨around, outer⟩
    | [] => none
  | .keyword k =>
    match Combinator.ofKeyword? k with
    | some op => if l.level = none ∨ l.level = some op then some ⟨l.around, some op⟩ else none
    | none => some l
  | _ => some l

/-- Notes the combinators of a text. -/
def run (l : Levels) (ts : List Token) : Option Levels := ts.foldlM step l

theorem run_append (l : Levels) (ts us : List Token) :
    l.run (ts ++ us) = (l.run ts).bind fun m => m.run us := List.foldlM_append

theorem run_cons (l : Levels) (t : Token) (ts : List Token) :
    l.run (t :: ts) = (l.step t).bind fun m => m.run ts := List.foldlM_cons

/-- A combinator is noted where the level has none or the same one. -/
theorem step_combinator (l : Levels) {op : Combinator}
    (h : l.level = none ∨ l.level = some op) :
    l.step (.keyword op.keyword) = some ⟨l.around, some op⟩ := by
  simp only [step, op.ofKeyword?_keyword]
  exact if_pos h

theorem run_alias (l : Levels) (ctx : Context) (aliasName : Option String) :
    l.run (ctx.aliasTokens aliasName) = some l :=
  ctx.foldlM_aliasTokens (fun _ => rfl) (fun _ => rfl) (fun _ _ => rfl) aliasName l

theorem run_phrase {ts : List Token} (hts : IsPhrase ts) (l : Levels) : l.run ts = some l := by
  have hwords := hts.words
  clear hts
  induction ts with
  | nil => rfl
  | cons t us ih =>
    have hstep : l.step t = some l := by
      have ht := hwords t (List.mem_cons_self ..)
      cases t <;> first | rfl | exact nomatch ht
    rw [run_cons, hstep]
    exact ih fun u hu => hwords u (List.mem_cons_of_mem _ hu)

end Levels

/-- No level of parentheses has two different combinators in it. -/
def Unmixed (ts : List Token) : Prop := (Levels.run {} ts).isSome = true

namespace Criterion

/-- The combinator of a level after a criterion has been written on it without parentheses. -/
def levelAfter {α : Type} (level : Option Combinator) : Criterion α → Option Combinator
  | combination op _ _ => some op
  | _ => level

/-- What a criterion does to the levels: in parentheses nothing; without them it gives its
    combinator to the level, which has none or the same. -/
structure KeepsLevels (ctx : Context) (c : Criterion (List Token)) : Prop where
  bracketed : ∀ l : Levels, l.run (c.tokens ctx id true) = some l
  plain : ∀ l : Levels, (∀ op, l.level = some op → c.differsFrom op = false) →
    l.run (c.tokens ctx id false) = some ⟨l.around, c.levelAfter l.level⟩

/-- An operand of a combination leaves the level as it is or gives it the same combinator. -/
theorem KeepsLevels.operand {c : Criterion (List Token)} (h : c.KeepsLevels ctx) {op : Combinator}
    {l : Levels} (hl : l.level = none ∨ l.level = some op) :
    ∃ level, (level = l.level ∨ level = some op) ∧
      l.run (c.tokens ctx id (c.differsFrom op)) = some ⟨l.around, level⟩ := by
  cases hdiffers : c.differsFrom op with
  | true => exact ⟨l.level, Or.inl rfl, h.bracketed l⟩
  | false =>
    refine ⟨c.levelAfter l.level, ?_, h.plain l ?_⟩
    · cases c with
      | combination other _ _ =>
        obtain rfl : other = op := by simpa [differsFrom] using hdiffers
        exact Or.inr rfl
      | _ => exact Or.inl rfl
    · intro other hother
      rcases hl with hnone | hsome
      · rw [hnone] at hother
        cases hother
      · rw [hsome] at hother
        cases hother
        exact hdiffers

/-- Every criterion over phrases keeps the levels apart. -/
theorem keepsLevels {c : Criterion (List Token)} (hc : c.All IsPhrase) : c.KeepsLevels ctx := by
  induction c with
  | comparison ts => exact ⟨Levels.run_phrase hc, fun l _ => Levels.run_phrase hc l⟩
  | not operand aliasName ih =>
    have hnot : ∀ l : Levels,
        l.run (.keyword .not :: .space ::
          (operand.tokens ctx id true ++ ctx.aliasTokens aliasName)) = some l := by
      intro l
      show l.run (operand.tokens ctx id true ++ ctx.aliasTokens aliasName) = some l
      rw [Levels.run_append, (ih hc).bracketed l]
      exact l.run_alias ctx aliasName
    exact ⟨hnot, fun l _ => hnot l⟩
  | combination op left right ihl ihr =>
    -- in parentheses a combination gives its combinator to a level of its own, which is closed
    have hplain : ∀ l : Levels,
        (∀ other, l.level = some other → (combination op left right).differsFrom other = false) →
          l.run ((combination op left right).tokens ctx id false) = some ⟨l.around, some op⟩ := by
      intro l hlevel
      have hsame : l.level = none ∨ l.level = some op := by
        cases hl : l.level with
        | none => exact Or.inl rfl
        | some other =>
          obtain rfl : op = other := by simpa [differsFrom] using hlevel other hl
          exact Or.inr rfl
      obtain ⟨level, hafter, hleft⟩ := (ihl hc.1).operand hsame
      have hlevel : level = none ∨ level = some op := by
        rcases hafter with rfl | h
        · exact hsame
        · exact Or.inr h
      have hcombined : Levels.step ⟨l.around, level⟩ (.keyword op.keyword)
          = some (Levels.mk l.around (some op)) := Levels.step_combinator _ hlevel
      have hcommon : (Levels.mk l.around (some op)).level = none ∨
          (Levels.mk l.around (some op)).level = some op := Or.inr rfl
      obtain ⟨level', hafter', hright⟩ := (ihr hc.2).operand hcommon
      obtain rfl : level' = some op := hafter'.elim id id
      show l.run (left.tokens ctx id (left.differsFrom op) ++
        .space :: .keyword op.keyword :: .space :: right.tokens ctx id (right.differsFrom op)) = _
      rw [Levels.run_append, hleft]
      show Levels.run ⟨l.around, level⟩ (.keyword op.keyword :: .space :: _) = _
      rw [Levels.run_cons, hcombined]
      exact hright
    refine ⟨?_, hplain⟩
    intro l
    show l.run (.lparen :: ((combination op left right).tokens ctx id false ++ [.rparen])) = some l
    rw [Levels.run_cons]
    show Levels.run ⟨l.level :: l.around, none⟩ _ = _
    have hopened := hplain ⟨l.level :: l.around, none⟩ fun _ h => by cases h
    rw [Levels.run_append, hopened]
    rfl

theorem unmixed_tokens {c : Criterion (List Token)} (hc : c.All IsPhrase) :
    Unmixed (c.tokens ctx id false) := by
  simp only [Unmixed]
  rw [(keepsLevels hc).plain {} nofun]
  rfl

/-! ## The theorem -/

/-- **The boolean structure survives writing.** Let a criterion over comparisons of columns and
    constants be written where no parentheses are asked for and no constants are bound.

    Trees that differ in the nesting of chains are written alike. If the criterion can be written,
    then no level of parentheses mixes combinators; what is written is read as a tree that differs
    from the criterion, but for the aliases of NOTs, in the nesting of chains alone, and so has its
    value whichever comparisons are true, false or unknown; and there is no parenthesis in a chain
    of one combinator. -/
theorem read_written {ctx : Context} (hbracketed : ctx.bracketed = false)
    (hbinding : ctx.binding = false) {c : Criterion Comparison} {t : Term} (ht : c.Shapes t) :
    (∀ (c' : Criterion Comparison) (t' : Term), c.Reassociation c' → c'.Shapes t' →
      t'.draft ctx = t.draft ctx) ∧
    ∀ {p p' : Parameters} {ts : List Token}, (t.draft ctx).finish p = (.ok ts, p') →
      Unmixed ts ∧
      (∃ c' : Criterion Comparison, c.bare.Reassociation c' ∧
        read? ts = some (c'.map (Comparison.written ctx)) ∧
        ∀ truth : Comparison → Option Bool, c'.value truth = c.value truth) ∧
      ((∃ op, c.IsChain op) → Token.lparen ∉ ts) := by
  have hdraft : ∀ {c : Criterion Comparison} {t : Term}, c.Shapes t →
      t.draft ctx = c.draft ctx (fun x => x.term.draft ctx) false := by
    intro c t ht
    have hctx : { ctx with bracketed := false } = ctx := by rw [← hbracketed]
    rw [← ht.draft_eq ctx false, hctx]
  refine ⟨?_, ?_⟩
  · intro c' t' hc' ht'
    rw [hdraft ht, hdraft ht', hc'.draft_eq ctx]
  · intro p p' ts h
    -- what could be written to its end is tokens, and so is each comparison in it
    have hcomplete := Draft.complete_of_finish h
    rw [hdraft ht] at hcomplete h
    have hleaf := (all_of_complete ctx hcomplete).imp fun x hx => x.draft_eq_tokens hbinding hx
    have hphrases : (c.map (Comparison.written ctx)).All IsPhrase :=
      (hleaf.imp fun x hx => hx.2).map
    rw [draft_eq_tokens ctx (hleaf.imp fun x hx => hx.1)] at h
    obtain rfl : c.tokens ctx (Comparison.written ctx) false = ts := by
      have htokens := Draft.finish_tokens (c.tokens ctx (Comparison.written ctx) false) p
      rw [h] at htokens
      exact Except.ok.inj htokens.symm
    have hnest := (nest_reassociation c.bare).1
    rw [← tokens_map]
    refine ⟨unmixed_tokens hphrases, ⟨c.bare.nest none, hnest, ?_, ?_⟩, ?_⟩
    · rw [read?_tokens hphrases, bare_map]
      exact congrArg some (nest_map (Comparison.written ctx) c.bare none)
    · intro truth
      rw [← hnest.value_eq truth, value_bare]
    · rintro ⟨op, hchain⟩
      rw [tokens_map]
      refine lparen_not_mem_of_isChain ctx (hleaf.imp ?_) hchain
      intro x hx hmem
      exact nomatch hx.2.words _ hmem

/-- `a=1 OR NOT (b=2 AND c=3)`, where the NOT has an alias. -/
theorem read_written_not :
    let equals (name : String) (n : Int64) : Comparison :=
      ⟨.eq, .column name none, .constant (.int n) true⟩
    let c : Criterion Comparison :=
      .combination .or (.comparison (equals "a" 1))
        (.not (.combination .and (.comparison (equals "b" 2)) (.comparison (equals "c" 3)))
          (some "n"))
    let ctx := Context.ofDialect .mysql
    ∃ t : Term, c.Shapes t ∧ ∃ ts : List Token, (t.draft ctx).finish {} = (.ok ts, {}) ∧
      Unmixed ts ∧ ∃ c' : Criterion Comparison, c.bare.Reassociation c' ∧
        read? ts = some (c'.map (Comparison.written ctx)) := by
  intro equals c ctx
  let t : Term :=
    ⟨.combination .or (equals "a" 1).term
      ⟨.not ⟨.combination .and (equals "b" 2).term (equals "c" 3).term, none⟩, some "n"⟩, none⟩
  have ht : c.Shapes t := by
    exact ⟨_, _, none, rfl, ⟨_, ⟨_, _, none, rfl, rfl, rfl⟩, rfl⟩, rfl⟩
  have hstop : (t.draft ctx).stop = none := Option.isNone_iff_eq_none.mp (by decide +kernel)
  have h := Draft.finish_of_complete hstop {}
  have hvalues : Piece.values (t.draft ctx).pieces = [] :=
    List.isEmpty_iff.mp (by decide +kernel)
  obtain ⟨hlevels, ⟨c', hc', hread, -⟩, -⟩ := (read_written rfl rfl ht).2 h
  rw [hvalues] at h
  exact ⟨t, ht, _, h, hlevels, c', hc', hread⟩

end Criterion

end SqlCompose
