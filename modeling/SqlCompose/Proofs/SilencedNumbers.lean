import SqlCompose.Proofs.Numbering

/-! # Silenced numbers — infinities and what is no number, alone and inside lists

    A number that is not finite has no literal, and a constant that is such a number is refused. A
    list is written as JSON text, and JSON text has `null` for such a number: a list is never
    refused, however many of them it has in it, and nobody can tell it from the list that had `null`
    in these places.

    * `Value.numbers` — the floating-point numbers of a constant, at any depth of lists.
    * `Value.silenced` — the constant with `null` in the place of those that are not finite.
    * `Value.toJson_silenced`, `Value.numbers_silenced` — both stand for one document, and only one
      of them has the numbers.
    * `Value.literal_refused_iff` — the theorem. -/

namespace SqlCompose

namespace Value

/-! ## Numbers at any depth -/

mutual

/-- The floating-point numbers of a constant, at any depth of lists. -/
def numbers : Value → List Binary64
  | .float x => [x]
  | .list items => listNumbers items
  | _ => []

/-- The floating-point numbers of a list of constants. -/
def listNumbers : List Value → List Binary64
  | [] => []
  | item :: rest => item.numbers ++ listNumbers rest

end

mutual

/-- The constant with null in the place of every number that is not finite, at any depth of
    lists. -/
def silenced : Value → Value
  | .float x => if x.isFinite then .float x else .null
  | .list items => .list (listSilenced items)
  | v => v

/-- The constants of a list with null in the place of every number that is not finite. -/
def listSilenced : List Value → List Value
  | [] => []
  | item :: rest => item.silenced :: listSilenced rest

end

mutual

/-- Silencing keeps the document that a constant stands for. -/
theorem toJson_silenced : (v : Value) → v.silenced.toJson = v.toJson
  | .float x => by
    rw [silenced, toJson]
    split
    case isTrue h => exact if_pos h
    case isFalse => rfl
  | .list items => congrArg Json.array (listToJson_silenced items)
  | .null | .bool _ | .int _ | .str _ | .date _ | .time _ | .dateTime _ _ | .dateTimeTz _ _ _
  | .uuid _ | .json _ | .part _ => rfl

theorem listToJson_silenced :
    (items : List Value) → listToJson (listSilenced items) = listToJson items
  | [] => rfl
  | item :: rest => by
    rw [listSilenced, listToJson, listToJson, toJson_silenced item, listToJson_silenced rest]

end

mutual

/-- The finite numbers are those that are left. -/
theorem numbers_silenced : (v : Value) → v.silenced.numbers = v.numbers.filter Binary64.isFinite
  | .float x => by
    rw [silenced]
    split
    case isTrue h =>
      show [x] = [x].filter Binary64.isFinite
      rw [List.filter_cons_of_pos h, List.filter_nil]
    case isFalse h =>
      show [] = [x].filter Binary64.isFinite
      rw [List.filter_cons_of_neg h, List.filter_nil]
  | .list items => listNumbers_silenced items
  | .null | .bool _ | .int _ | .str _ | .date _ | .time _ | .dateTime _ _ | .dateTimeTz _ _ _
  | .uuid _ | .json _ | .part _ => rfl

theorem listNumbers_silenced :
    (items : List Value) →
      listNumbers (listSilenced items) = (listNumbers items).filter Binary64.isFinite
  | [] => rfl
  | item :: rest => by
    rw [listSilenced, listNumbers, listNumbers, List.filter_append, numbers_silenced item,
      listNumbers_silenced rest]

end

/-! ## Literals -/

/-- A constant has a literal, or it is a number that is not finite. -/
theorem literal_cases (v : Value) :
    (∃ t, v.literal = Draft.tokens [t]) ∧ (∀ x, v = .float x → x.isFinite = true) ∨
      ∃ x, v = .float x ∧ x.isFinite = false ∧ v.literal = Draft.fail (.notFinite x) := by
  cases v with
  | float x =>
    cases hx : x.isFinite with
    | true =>
      refine .inl ⟨⟨.float x, if_pos hx⟩, ?_⟩
      rintro y ⟨⟩
      exact hx
    | false => exact .inr ⟨x, rfl, hx, if_neg (Bool.eq_false_iff.mp hx)⟩
  | _ => exact .inl ⟨⟨_, rfl⟩, nofun⟩

/-- The literal of a list is that of the list with null in it. -/
theorem literal_silenced (items : List Value) :
    (silenced (.list items)).literal = (Value.list items).literal :=
  congrArg (fun d => Draft.token (.json (Json.write Json.spaced d))) (toJson_silenced (.list items))

/-- **Only a bare number is refused.** Let a constant be written where constants are not bound.
    * It is refused exactly if it is itself a number that is not finite, and that number is the
      reason; every other constant has a literal.
    * So of constants other than lists exactly those are refused that have such a number.
    * A list is written, however deep in it there are such numbers, and it is written as the list
      that has null in their places and only its finite numbers. -/
theorem literal_refused_iff {ctx : Context} (hctx : ctx.binding = false) (v : Value)
    (mayBind : Bool) (p : Parameters) :
    (∀ e, ((v.draft ctx mayBind).render ctx p).1 = .error e ↔
      ∃ x, v = .float x ∧ x.isFinite = false ∧ e = .notFinite x) ∧
    ((∀ items, v ≠ .list items) →
      ((∃ e, ((v.draft ctx mayBind).render ctx p).1 = .error e) ↔
        ∃ x ∈ v.numbers, x.isFinite = false)) ∧
    (∀ items, v = .list items →
      ∃ text, (v.draft ctx mayBind).render ctx p = (.ok text, p) ∧
        (v.silenced.draft ctx mayBind).render ctx p = (.ok text, p) ∧
        v.silenced.numbers = v.numbers.filter Binary64.isFinite) := by
  -- nothing is captured, so every value is written as a literal
  have hdraft : ∀ v : Value, v.draft ctx mayBind = v.literal := by
    intro v
    simp only [draft, hctx, Bool.false_and, Bool.false_eq_true, if_false]
  have hrefused : ∀ e, ((v.draft ctx mayBind).render ctx p).1 = .error e ↔
      ∃ x, v = .float x ∧ x.isFinite = false ∧ e = .notFinite x := by
    intro e
    rw [hdraft]
    obtain ⟨⟨t, ht⟩, hfinite⟩ | ⟨x, rfl, hx, hfail⟩ := literal_cases v
    · rw [ht, Draft.render_tokens_eq]
      refine iff_of_false nofun ?_
      rintro ⟨x, hv, hx, -⟩
      exact Bool.false_ne_true (hx.symm.trans (hfinite x hv))
    · rw [hfail]
      constructor
      · intro h
        exact ⟨x, rfl, hx, (Except.error.inj h).symm⟩
      · rintro ⟨y, hy, -, rfl⟩
        obtain rfl := float.inj hy
        rfl
  refine ⟨hrefused, ?_, ?_⟩
  · intro hlist
    simp only [hrefused]
    cases v with
    | list items => exact absurd rfl (hlist items)
    | _ => simp [numbers]
  · rintro items rfl
    have hwritten : (Value.list items).literal.render ctx p = (.ok _, p) :=
      Draft.render_tokens_eq [.json (jsonText (.list items))] ctx p
    refine ⟨Token.texts ctx [.json (jsonText (.list items))], ?_, ?_, numbers_silenced _⟩
    · rw [hdraft, hwritten]
    · rw [hdraft, literal_silenced, hwritten]

/-- Infinity two lists deep, behind a number that is finite. -/
theorem literal_refused_nested :
    let x := Binary64.ofInt 2
    let v := Value.list [.float x, .list [.float (.infinity true), .int 1]]
    let ctx := Context.ofDialect .postgres
    ctx.binding = false ∧ v.silenced = .list [.float x, .list [.null, .int 1]] ∧
      (v.draft ctx true).render ctx {} = (.ok "'[2.0, [null, 1]]'", {}) ∧
      v.silenced.numbers = [x] := by
  intro x v ctx
  have htext : ((v.draft ctx true).render ctx {}).1.toOption = some "'[2.0, [null, 1]]'" := by
    decide +kernel
  have hplain : ctx.binding = false := rfl
  obtain ⟨-, -, hlist⟩ := literal_refused_iff hplain v true {}
  obtain ⟨text, hwritten, -, hnumbers⟩ := hlist _ rfl
  rw [hwritten] at htext
  obtain rfl : text = "'[2.0, [null, 1]]'" := Option.some.inj htext
  have hfinite : x.isFinite = true := by decide +kernel
  have hinfinite : (Binary64.infinity true).isFinite = false := by decide +kernel
  have hsilenced : v.silenced = .list [.float x, .list [.null, .int 1]] := by
    simp [v, silenced, listSilenced, hfinite, hinfinite]
  exact ⟨hplain, hsilenced, hwritten, hnumbers.trans (by decide +kernel)⟩

/-- What is no number in a list: the list is written, and as the one with null in it. -/
theorem list_silences_nan :
    let v := Value.list [.float (.nan false)]
    let ctx := Context.ofDialect .generic
    ctx.binding = false ∧ (∃ x ∈ v.numbers, x.isFinite = false) ∧
      ((v.draft ctx true).render ctx {}).1.toOption = some "'[null]'" ∧
      (((Value.list [.null]).draft ctx true).render ctx {}).1.toOption = some "'[null]'" := by
  intro v ctx
  exact ⟨rfl, ⟨_, List.mem_singleton_self _, by decide +kernel⟩, by decide +kernel,
    by decide +kernel⟩

end Value

end SqlCompose
