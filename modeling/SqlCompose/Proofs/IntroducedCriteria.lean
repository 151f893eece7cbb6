import SqlCompose.Proofs.InspectedTrees
import SqlCompose.Proofs.Introductions

/-! # Introduced criteria — the words for criteria in all that is written

    A criterion that asks for nothing stands behind no word: five places of a statement leave it out
    where the statement is written, and a join refuses it where the statement is built. What the
    places of a tree have is known from its parts, so wherever a word for a criterion is written, at
    any depth and in every context, the criterion behind it is known too.

    * `Query.Built.joins_ask` — the criteria of joins ask for something, after any calls.
    * `Part.States` — a part that can be built, with what is said of its criteria.
    * `introducing` — the inspection of this.
    * `Writing.introduces` — every word for a criterion is in its place, in all that is written. -/

namespace SqlCompose

open Draft

/-! ## Joins -/

namespace Query

/-- The criteria of all joins ask for something. -/
def JoinsAsk (q : Query) : Prop :=
  ∀ j ∈ q.joins, ∀ t ∈ j.condition.criterion?, t.isEmpty = false

/-- A join on a criterion is refused where the criterion asks for nothing. -/
theorem joinOn_asks {item : FromItem} {kind : JoinKind} {criterion : Term}
    {collation : Option String} {q r : Query}
    (h : q.joinOn item kind criterion collation = .ok r) :
    criterion.isEmpty = false ∧ r.joins = q.joins ++ [⟨item, kind, .on criterion collation⟩] := by
  simp only [joinOn] at h
  split at h
  · cases h
  · next hasks =>
    rw [addJoin_eq h]
    exact ⟨by simpa using hasks, rfl⟩

/-- Whichever way rows are matched, what decides it asks for something. -/
theorem join_asks {item : FromItem} {kind : JoinKind} {rows : JoinMatch} {q r : Query}
    (h : q.join item kind rows = .ok r) :
    ∃ j : Join, (∀ t ∈ j.condition.criterion?, t.isEmpty = false) ∧ r.joins = q.joins ++ [j] := by
  have hjoins : (q.nameJoined item).joins = q.joins := by
    obtain ⟨scope, count, hnamed⟩ := q.nameJoined_eq item
    rw [hnamed]
  have hon {criterion : Term} {collation : Option String}
      (h : (q.nameJoined item).joinOn item kind criterion collation = .ok r) :
      ∃ j : Join, (∀ t ∈ j.condition.criterion?, t.isEmpty = false) ∧
        r.joins = q.joins ++ [j] := by
    obtain ⟨hasks, hadded⟩ := joinOn_asks h
    rw [hjoins] at hadded
    refine ⟨_, ?_, hadded⟩
    intro t ht
    obtain rfl := Option.some.inj ht
    exact hasks
  -- only ON takes a criterion, and ON over fields makes one of them
  cases rows with
  | on criterion collation => exact hon h
  | onFields names =>
    simp only [join] at h
    split at h
    · cases h
    · split at h
      · cases h
      · exact hon h
  | «using» names =>
    simp only [join] at h
    split at h
    · cases h
    · have hadded := congrArg Query.joins (addJoin_eq h)
      rw [hjoins] at hadded
      refine ⟨_, ?_, hadded⟩
      intro t ht
      cases ht
  | cross =>
    have h : (q.nameJoined item).addJoin ⟨item, .cross, .none⟩ = .ok r := h
    have hadded := congrArg Query.joins (addJoin_eq h)
    rw [hjoins] at hadded
    refine ⟨_, ?_, hadded⟩
    intro t ht
    cases ht

/-- A table in place of another one leaves no criterion empty. -/
theorem joinsAsk_replaceTable {q : Query} (current new : Table) (h : q.JoinsAsk) :
    (q.replaceTable current new).JoinsAsk := by
  intro j hj t ht
  obtain ⟨j, hin, rfl⟩ := List.mem_map.mp hj
  obtain ⟨item, kind, condition⟩ := j
  cases condition with
  | on criterion collation =>
    obtain rfl := Option.some.inj ht
    rw [Term.isEmpty_replaceTable]
    exact h _ hin criterion rfl
  | none | «using» => cases ht

/-- One call. -/
theorem joinsAsk_apply {s : Step} {q r : Query} (h : s.apply q = .ok r) (hq : q.JoinsAsk) :
    r.JoinsAsk := by
  cases s with
  | join item kind rows =>
    obtain ⟨j, hasks, hadded⟩ := join_asks h
    rw [JoinsAsk, hadded]
    intro j' hj'
    rcases List.mem_append.mp hj' with hearlier | hlast
    · exact hq j' hearlier
    · obtain rfl := List.mem_singleton.mp hlast
      exact hasks
  | replaceTable current new =>
    obtain rfl := Except.ok.inj h
    exact joinsAsk_replaceTable current new hq
  | _ => cases Step.makes h <;> exact hq

/-- However a statement is built, no join has a criterion that asks for nothing. -/
theorem Built.joins_ask {q : Query} (h : q.Built) : q.JoinsAsk :=
  h.invariant (fun _ _ => List.forall_mem_nil _) joinsAsk_apply

end Query

/-! ## Parts that are known -/

/-- Whether the part can be built. Statements are built by calls; the other parts may be anything
    there is. -/
def Part.IsBuilt : Part → Prop
  | query q => q.Built
  | _ => True

/-- The part can be built, and every criterion in it is as is said of its place. -/
def Part.States (C : CriterionPlace → Term → Prop) (part : Part) : Prop :=
  part.IsBuilt ∧ ∀ x ∈ part.criteria, C x.1 x.2

section

variable {C : CriterionPlace → Term → Prop}

/-- Only calls have criteria for aggregates. -/
theorem Part.place_ne_aggregate {q : Query} {x : CriterionPlace × Term}
    (hx : x ∈ (Part.query q).criteria) : x.1 ≠ .aggregate := by
  rcases List.mem_append.mp hx with hown | hjoined
  · simp only [List.mem_cons, List.not_mem_nil, or_false] at hown
    rcases hown with rfl | rfl | rfl | rfl | rfl <;> dsimp only <;> decide
  · obtain ⟨t, -, rfl⟩ := List.mem_map.mp hjoined
    dsimp only
    decide

/-- The criterion of a join asks for something, as a guarded one does. -/
theorem Part.States.asks {part : Part} {place : CriterionPlace} {t : Term} (h : part.States C)
    (ht : (place, t) ∈ part.criteria) (hguarded : place.isGuarded = true → t.isEmpty = false)
    (hplace : place ≠ .aggregate) : t.isEmpty = false := by
  cases part with
  | query q =>
    rcases List.mem_append.mp ht with hown | hjoined
    · refine hguarded ?_
      simp only [List.mem_cons, List.not_mem_nil, or_false, Prod.mk.injEq] at hown
      rcases hown with ⟨rfl, -⟩ | ⟨rfl, -⟩ | ⟨rfl, -⟩ | ⟨rfl, -⟩ | ⟨rfl, -⟩ <;> rfl
    · obtain ⟨criterion, hmem, heq⟩ := List.mem_map.mp hjoined
      obtain ⟨j, hj, hcriterion⟩ := List.mem_filterMap.mp hmem
      obtain ⟨-, rfl⟩ := Prod.mk.inj heq
      exact Query.Built.joins_ask h.1 j hj criterion hcriterion
  | expr e =>
    cases e with
    | call c =>
      obtain ⟨filter, -, heq⟩ := List.mem_map.mp ht
      exact absurd (Prod.mk.inj heq).1.symm hplace
    | _ => exact absurd ht List.not_mem_nil
  | _ => exact absurd ht List.not_mem_nil

/-- Constants are written or bound, and no word stands with them. -/
theorem Value.isMute_draft (ctx : Context) (v : Value) (mayBind : Bool) :
    (v.draft ctx mayBind).isMute = true := by
  simp only [Value.draft]
  split
  · rfl
  · cases v with
    | float x =>
      show isMute (if x.isFinite then _ else _) = true
      split <;> rfl
    | _ => rfl

/-- A tree is inspected for its words for criteria: each stands in front of a criterion of which
    something is said. -/
def introducing (C : CriterionPlace → Term → Prop) : Inspection where
  part := Part.States C
  holds := Introduces C
  closure := Introduces.closure
  value := fun ctx v mayBind _ => .of_mute (v.isMute_draft ctx mayBind)
  branchless := fun _ => .of_mute rfl
  refusal := fun _ _ _ _ _ => .of_mute rfl
  unequal := fun ctx _ a b _ _ _ _ => .of_stop (unequal_stop ctx a b)
  criterion := by
    intro p place t ctx hp ht hguarded hd
    have hstated : C place t := hp.2 (place, t) ht
    have hasks (hplace : place ≠ .aggregate) := hp.asks ht hguarded hplace
    cases place with
    | aggregate => exact .filter hstated hd
    | rows => exact .clause .rows (by decide) (hasks (by decide)) hstated hd
    | priorRows => exact .clause .priorRows (by decide) (hasks (by decide)) hstated hd
    | groups => exact .clause .groups (by decide) (hasks (by decide)) hstated hd
    | joined => exact .clause .joined (by decide) (hasks (by decide)) hstated hd
    | conflicts => exact .clause .conflicts (by decide) (hasks (by decide)) hstated hd
    | updates => exact .clause .updates (by decide) (hasks (by decide)) hstated hd
  distinctOn := Introduces.distinctOn
  onConflict := Introduces.onConflict
  onDuplicateKey := Introduces.onDuplicateKey

/-- Every word for a criterion is in its place, in all that is written. -/
theorem Writing.introduces (ctx : Context) (w : Writing) (h : w.Everywhere (Part.States C)) :
    (w.draft ctx).Introduces C :=
  Writing.holds (S := introducing C) ctx w h

end

end SqlCompose
