import SqlCompose.Combined
import SqlCompose.Proofs.Building

/-! # Names of nested statements — `sq0`, `sq1`, … are given once and for all

    A statement numbers the nested statements that it reads and that have no alias. The number comes
    from a counter of its own, which FROM first moves behind the numbers that the nested statement
    has used itself. A name stays: what has one in the scope of a statement is not named again, and
    what is named later is called something else.

    * `Query.subqueryName_injective` — different numbers make different names.
    * `Step.Names`, `Step.names` — what a call can do to the names of a statement.
    * `Step.resolve_apply`, `Step.resolve_run` — names stay.
    * `Step.namings` — the names that a list of calls gives to nested statements.
    * `Step.namings_numbered` — their numbers go up.
    * `Step.names_unique` — the theorem. -/

namespace SqlCompose

/-- Different numbers make different names. -/
theorem Query.subqueryName_injective {m n : Nat} (h : subqueryName m = subqueryName n) :
    m = n := by
  have hchars := congrArg String.toList h
  simp only [subqueryName, String.toList_append] at hchars
  have hdigits := congrArg (Nat.ofDigitChars 10 · 0) (List.append_cancel_left hchars)
  simpa [Nat.toString_eq_ofList_toDigits] using hdigits

/-! ## Scopes -/

namespace Scope

variable {scope : Scope} {slot : Slot} {aliasName : String}

/-- What has no name has no alias of its own either. -/
theorem aliasName_of_resolve (h : scope.resolve slot = none) : slot.aliasName = none := by
  obtain ⟨identity, _ | own⟩ := slot
  · rfl
  · exact nomatch h

/-- What had no name goes by the one that is assigned to it. -/
theorem resolve_assigned (h : scope.resolve slot = none) (aliasName : String) :
    (scope.assign slot.identity aliasName).resolve slot = some aliasName := by
  obtain ⟨identity, own⟩ := slot
  obtain rfl : own = none := aliasName_of_resolve h
  exact scope.resolve_assign identity aliasName

/-- A name that is given to what has none changes no other name. -/
theorem resolve_kept {fresh : Slot} (hfresh : scope.resolve fresh = none)
    (h : scope.resolve slot = some aliasName) (given : String) :
    (scope.assign fresh.identity given).resolve slot = some aliasName := by
  obtain ⟨identity, _ | own⟩ := slot
  · have hother : identity ≠ fresh.identity := by
      rintro rfl
      obtain ⟨identity, own⟩ := fresh
      obtain rfl : own = none := aliasName_of_resolve hfresh
      exact nomatch hfresh.symm.trans h
    show List.lookup identity ((fresh.identity, given) :: scope) = some aliasName
    rw [List.lookup_cons, beq_false_of_ne hother]
    exact h
  · exact h

end Scope

/-! ## What a call names -/

/-- The place of the alias of a nested statement or a set operation. -/
def FromItem.statementSlot? : FromItem → Option Slot
  | query q => some q.slot
  | setOperation s => some s.slot
  | table _ | cte _ => none

/-- What has a first free number is a nested statement or a set operation. -/
theorem FromItem.statementSlot?_of_freeNumber {item : FromItem} {n : Nat}
    (h : item.freeNumber? = some n) : item.statementSlot? = item.slot? := by
  cases item with
  | query q => rfl
  | setOperation s => rfl
  | table t => exact nomatch h
  | cte name => exact nomatch h

theorem Query.unnamedSlot?_eq_some {item : FromItem} {q : Query} {slot : Slot}
    (h : q.unnamedSlot? item = some slot) :
    item.slot? = some slot ∧ q.scope.resolve slot = none := by
  obtain ⟨hslot, hnone⟩ := Option.filter_eq_some_iff.mp h
  exact ⟨hslot, Option.isNone_iff_eq_none.mp hnone⟩

/-- Only a nested statement is numbered where it is joined. -/
theorem Query.nameJoined_of_isQuery {item : FromItem} (h : item.isQuery = false) (q : Query) :
    q.nameJoined item = q := by
  simp only [nameJoined, h]
  split
  · next hquery => cases hquery
  · rfl

/-- Only a table is joined to itself. -/
theorem Query.nameSelfJoined_of_table? {item : FromItem} (h : item.table? = none) (q : Query) :
    q.nameSelfJoined item = q := by
  simp only [nameSelfJoined, h]
  split
  · next htable => cases htable
  · rfl

namespace Step

/-- What a call reads. -/
def item? : Step → Option FromItem
  | readFrom item => some item
  | join item _ _ => some item
  | _ => none

/-- What a call can do to the names of a statement. -/
inductive Names (s : Step) (q r : Query) : Prop
  /-- The names are left alone. -/
  | kept (hscope : r.scope = q.scope) (hcount : r.subqueryCount = q.subqueryCount)
  /-- A nested statement without a name is numbered, and the counter moves behind its number. -/
  | numbered {item : FromItem} {slot : Slot} {n : Nat} (hitem : s.item? = some item)
      (hslot : item.statementSlot? = some slot) (hnone : q.scope.resolve slot = none)
      (hfree : q.subqueryCount ≤ n)
      (hscope : r.scope = q.scope.assign slot.identity (Query.subqueryName n))
      (hcount : r.subqueryCount = n + 1)
  /-- A table without a name is joined to itself. -/
  | selfJoined {t : Table} (hitem : s.item? = some (.table t))
      (hnone : q.scope.resolve t.slot = none)
      (hscope : r.scope = q.scope.assign t.slot.identity (t.name ++ "2"))
      (hcount : r.subqueryCount = q.subqueryCount)

theorem names_readFrom (item : FromItem) (q : Query) :
    (readFrom item).Names q (q.readFrom item) := by
  simp only [Query.readFrom]
  split
  · next slot free hslot hfree =>
    obtain ⟨hslot, hnone⟩ := Query.unnamedSlot?_eq_some hslot
    exact .numbered rfl ((FromItem.statementSlot?_of_freeNumber hfree).trans hslot) hnone
      (Nat.le_max_left ..) rfl rfl
  · exact .kept rfl rfl

theorem names_join {item : FromItem} {kind : JoinKind} {rows : JoinMatch} {q r : Query}
    (h : q.join item kind rows = .ok r) : (join item kind rows).Names q r := by
  obtain ⟨j, -, rfl⟩ := Query.join_named h
  -- of the two namings of a join, a statement takes the first, a table the second, the rest none
  cases item with
  | query inner =>
    rw [Query.nameSelfJoined_of_table? rfl]
    simp only [Query.nameJoined]
    split
    · next slot hslot hquery =>
      obtain ⟨hslot, hnone⟩ := Query.unnamedSlot?_eq_some hslot
      exact .numbered rfl hslot hnone (Nat.le_refl _) rfl rfl
    · exact .kept rfl rfl
  | table t =>
    rw [Query.nameJoined_of_isQuery rfl]
    simp only [Query.nameSelfJoined]
    split
    · next slot t' hslot htable =>
      obtain rfl : t = t' := Option.some.inj htable
      obtain ⟨hslot, hnone⟩ := Query.unnamedSlot?_eq_some hslot
      obtain rfl : t.slot = slot := Option.some.inj hslot
      split
      · exact .selfJoined rfl hnone rfl rfl
      · exact .kept rfl rfl
    · exact .kept rfl rfl
  | setOperation s =>
    rw [Query.nameSelfJoined_of_table? rfl, Query.nameJoined_of_isQuery rfl]
    exact .kept rfl rfl
  | cte name =>
    rw [Query.nameSelfJoined_of_table? rfl, Query.nameJoined_of_isQuery rfl]
    exact .kept rfl rfl

/-- A call names at most one thing, and only what has no name. -/
theorem names {s : Step} {q r : Query} (h : s.apply q = .ok r) : s.Names q r := by
  cases s with
  | readFrom item =>
    obtain rfl := Except.ok.inj h
    exact names_readFrom item q
  | join item kind rows => exact names_join h
  | _ => cases makes h <;> exact .kept rfl rfl

/-! ## Names stay -/

/-- What has a name keeps it. -/
theorem resolve_apply {s : Step} {q r : Query} (h : s.apply q = .ok r) {slot : Slot}
    {aliasName : String} (hname : q.scope.resolve slot = some aliasName) :
    r.scope.resolve slot = some aliasName := by
  cases names h with
  | kept hscope _ => rw [hscope, hname]
  | numbered _ _ hnone _ hscope _ => rw [hscope, Scope.resolve_kept hnone hname]
  | selfJoined _ hnone hscope _ => rw [hscope, Scope.resolve_kept hnone hname]

theorem resolve_run {steps : List Step} {q r : Query} (h : run q steps = .ok r) {slot : Slot}
    {aliasName : String} (hname : q.scope.resolve slot = some aliasName) :
    r.scope.resolve slot = some aliasName := by
  refine run_invariant (P := fun q => q.scope.resolve slot = some aliasName) ?_ h hname
  intro s q r hs hname
  exact resolve_apply hs hname

/-! ## The names that are given -/

/-- The nested statement or set operation that a call names, and the name: it has none before the
    call and has it after the call. -/
def naming? (q r : Query) (s : Step) : Option (Slot × String) :=
  match s.item?.bind FromItem.statementSlot? with
  | some slot =>
    if (q.scope.resolve slot).isSome then none
    else (r.scope.resolve slot).map fun aliasName => (slot, aliasName)
  | none => none

/-- The names that calls give to nested statements and set operations, one after the other. -/
def namings (q : Query) : List Step → List (Slot × String)
  | [] => []
  | s :: rest =>
    match s.apply q with
    | .ok r => (s.naming? q r).toList ++ namings r rest
    | .error _ => []

theorem namings_cons {s : Step} {rest : List Step} {q r : Query} (h : s.apply q = .ok r) :
    namings q (s :: rest) = (s.naming? q r).toList ++ namings r rest := by
  simp only [namings, h]

/-- A name that is given is the next number or one behind it, and the counter moves behind it. -/
theorem naming?_numbered {s : Step} {q r : Query} (h : s.apply q = .ok r) :
    (s.naming? q r = none ∧ q.subqueryCount ≤ r.subqueryCount) ∨
      ∃ (slot : Slot) (n : Nat), s.naming? q r = some (slot, Query.subqueryName n) ∧
        q.subqueryCount ≤ n ∧ r.subqueryCount = n + 1 := by
  cases names h with
  | kept hscope hcount =>
    refine .inl ⟨?_, hcount ▸ Nat.le_refl _⟩
    simp only [naming?, hscope]
    split
    · next slot _ => cases q.scope.resolve slot <;> rfl
    · rfl
  | @numbered item slot n hitem hslot hnone hfree hscope hcount =>
    refine .inr ⟨slot, n, ?_, hfree, hcount⟩
    simp only [naming?, hitem, Option.bind_some, hslot, hnone, hscope, Scope.resolve_assigned hnone]
    rfl
  | selfJoined hitem _ _ hcount =>
    refine .inl ⟨?_, hcount ▸ Nat.le_refl _⟩
    simp only [naming?, hitem]
    rfl

/-- The numbers of the names that are given go up, from the counter before the calls to the counter
    after them. -/
theorem namings_numbered {steps : List Step} {q r : Query} (h : run q steps = .ok r) :
    q.subqueryCount ≤ r.subqueryCount ∧
      ∃ numbers : List Nat, (namings q steps).map Prod.snd = numbers.map Query.subqueryName ∧
        numbers.Pairwise (· < ·) ∧
          ∀ n ∈ numbers, q.subqueryCount ≤ n ∧ n < r.subqueryCount := by
  induction steps generalizing q with
  | nil =>
    obtain rfl : q = r := Except.ok.inj h
    exact ⟨Nat.le_refl _, [], rfl, .nil, nofun⟩
  | cons s rest ih =>
    obtain ⟨q', hs, hrest⟩ := run_cons_ok h
    obtain ⟨hcount, numbers, hnumbers, hsorted, hbounds⟩ := ih hrest
    rw [namings_cons hs]
    rcases naming?_numbered hs with ⟨hnone, hfirst⟩ | ⟨slot, n, hsome, hfree, hnext⟩
    · rw [hnone]
      refine ⟨Nat.le_trans hfirst hcount, numbers, hnumbers, hsorted, ?_⟩
      intro m hm
      exact ⟨Nat.le_trans hfirst (hbounds m hm).1, (hbounds m hm).2⟩
    · -- the new number comes first: later ones start behind it
      rw [hsome]
      refine ⟨by omega, n :: numbers, congrArg (Query.subqueryName n :: ·) hnumbers, ?_, ?_⟩
      · refine List.pairwise_cons.mpr ⟨?_, hsorted⟩
        intro m hm
        have := (hbounds m hm).1
        omega
      · intro m hm
        rcases List.mem_cons.mp hm with rfl | hm
        · omega
        · have := hbounds m hm
          omega

/-- Whatever is named keeps the name to the end. -/
theorem resolve_of_namings {steps : List Step} {q r : Query} (h : run q steps = .ok r) :
    ∀ entry ∈ namings q steps, r.scope.resolve entry.1 = some entry.2 := by
  induction steps generalizing q with
  | nil => exact nofun
  | cons s rest ih =>
    obtain ⟨q', hs, hrest⟩ := run_cons_ok h
    rw [namings_cons hs]
    rintro ⟨slot, aliasName⟩ hentry
    rcases List.mem_append.mp hentry with hfirst | hlater
    · refine resolve_run hrest ?_
      simp only [Option.mem_toList, naming?] at hfirst
      split at hfirst
      · split at hfirst
        · exact nomatch hfirst
        · obtain ⟨_, hname, hpair⟩ := Option.map_eq_some_iff.mp hfirst
          obtain ⟨rfl, rfl⟩ := Prod.mk.inj hpair
          exact hname
      · exact nomatch hfirst
    · exact ih hrest _ hlater

end Step

/-! ## The theorem -/

/-- A nested statement without a name is read under the first number that neither statement has
    used. -/
theorem Query.resolve_readFrom {inner q : Query} (h : q.scope.resolve inner.slot = none) :
    (q.readFrom (.query inner)).scope.resolve inner.slot =
      some (subqueryName (max q.subqueryCount inner.subqueryCount)) := by
  have hslot : q.unnamedSlot? (.query inner) = some inner.slot :=
    Option.filter_eq_some_iff.mpr ⟨rfl, Option.isNone_iff_eq_none.mpr h⟩
  have hscope : (q.readFrom (.query inner)).scope = q.scope.assign inner.slot.identity
      (subqueryName (max q.subqueryCount inner.subqueryCount)) := by
    simp only [readFrom, hslot]
    rfl
  rw [hscope, Scope.resolve_assigned h]

namespace Step

/-- **Names of nested statements are unique and stay.** Let calls on a statement succeed.
    * What had a name in the statement has the same name afterwards.
    * The nested statements and set operations that the calls name go, in the order of the calls, by
      `sq` and numbers that go up and are below the counter of the statement; these names are theirs
      at the end.
    * A nested statement that has no name at the end, and then is read in FROM, goes by a number
      greater than those of all names that calls on the nested statement have given. -/
theorem names_unique {steps : List Step} {q r : Query} (h : run q steps = .ok r) :
    (∀ {slot : Slot} {aliasName : String}, q.scope.resolve slot = some aliasName →
      r.scope.resolve slot = some aliasName) ∧
    (∃ numbers : List Nat, (namings q steps).map Prod.snd = numbers.map Query.subqueryName ∧
      numbers.Pairwise (· < ·) ∧ ∀ n ∈ numbers, n < r.subqueryCount) ∧
    (∀ entry ∈ namings q steps, r.scope.resolve entry.1 = some entry.2) ∧
    ∀ {innerSteps : List Step} {start inner : Query}, run start innerSteps = .ok inner →
      r.scope.resolve inner.slot = none →
        ∃ n, (r.readFrom (.query inner)).scope.resolve inner.slot = some (Query.subqueryName n) ∧
          ∀ m, Query.subqueryName m ∈ (namings start innerSteps).map Prod.snd → m < n := by
  obtain ⟨-, numbers, hnumbers, hsorted, hbounds⟩ := namings_numbered h
  refine ⟨resolve_run h, ⟨numbers, hnumbers, hsorted, fun n hn => (hbounds n hn).2⟩,
    resolve_of_namings h, ?_⟩
  intro innerSteps start inner hinner hnone
  refine ⟨_, Query.resolve_readFrom hnone, ?_⟩
  intro m hm
  obtain ⟨-, used, hused, -, hbelow⟩ := namings_numbered hinner
  rw [hused] at hm
  obtain ⟨k, hk, hname⟩ := List.mem_map.mp hm
  obtain rfl : k = m := Query.subqueryName_injective hname
  have := (hbelow k hk).2
  omega

/-- Two statements are read, the first of them twice. Then a third one is read, which itself reads
    one of them, a set operation and a table that is joined to itself. -/
theorem names_unique_of_three :
    let t : Table := .named 1 "t"
    let first := (Query.start 2 .generic).readFrom (.table t)
    let second := first.withAlias 3 none
    let start := Query.start 4 .generic
    let q := Query.start 5 .generic
    let both := first.combine 6 .union second
    let innerSteps := [readFrom (.query second), readFrom (.setOperation both), readFrom (.table t),
      join (.table (.named 7 "t")) .cross .cross]
    let steps := [readFrom (.query first), join (.query second) .cross .cross,
      readFrom (.query first)]
    ∃ r inner : Query, run q steps = .ok r ∧ run start innerSteps = .ok inner ∧
      namings q steps = [(⟨2, none⟩, "sq0"), (⟨3, none⟩, "sq1")] ∧
      inner.scope = [(7, "t2"), (6, "sq1"), (3, "sq0")] ∧
      ∃ n, (r.readFrom (.query inner)).scope.resolve inner.slot = some (Query.subqueryName n) ∧
        ∀ m, Query.subqueryName m ∈ (namings start innerSteps).map Prod.snd → m < n := by
  intro t first second start q both innerSteps steps
  have hr : (run q steps).toOption.map Query.scope = some [(3, "sq1"), (2, "sq0")] := by
    decide +kernel
  have hinner : (run start innerSteps).toOption.map (fun inner => (inner.slot, inner.scope)) =
      some (⟨4, none⟩, [(7, "t2"), (6, "sq1"), (3, "sq0")]) := by decide +kernel
  obtain ⟨r, hr, hscope⟩ := exists_ok_of_map hr
  obtain ⟨inner, hinner, hparts⟩ := exists_ok_of_map hinner
  obtain ⟨hslot, hinnerScope⟩ := Prod.mk.inj hparts
  refine ⟨r, inner, hr, hinner, by decide +kernel, hinnerScope, ?_⟩
  refine (names_unique hr).2.2.2 hinner ?_
  rw [hslot, hscope]
  rfl

end Step

end SqlCompose
