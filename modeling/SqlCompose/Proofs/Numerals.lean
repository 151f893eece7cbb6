import SqlCompose.Decimal.Reading

/-! # Numerals — the digits of whole numbers

    What is true of the decimal digits of every whole number, whoever reads them: they are digits,
    the first one is not a zero unless the number is, no fewer of them stand for the number, and the
    number and where it ends are known from them where no digit is behind. -/

namespace SqlCompose.Decimal

/-- The first digit of a number that is not zero is not a zero. -/
theorem toDigits_eq_cons {n : Nat} (h : n ≠ 0) :
    ∃ d ds, Nat.toDigits 10 n = d :: ds ∧ d ≠ '0' := by
  induction n using Nat.strongRecOn with
  | ind n ih =>
    by_cases hsmall : n < 10
    · refine ⟨n.digitChar, [], Nat.toDigits_of_lt_base hsmall, fun hzero => h ?_⟩
      exact Nat.digitChar_eq_zero.mp hzero
    · have hten : 10 ≤ n := Nat.le_of_not_lt hsmall
      obtain ⟨d, ds, hdigits, hd⟩ := ih (n / 10) (by omega) (by omega)
      rw [Nat.toDigits_of_base_le (by omega) hten, hdigits]
      exact ⟨d, ds ++ [(n % 10).digitChar], rfl, hd⟩

/-- The digits of a number are digits, each with the value that its place in the alphabet gives
    it. -/
theorem digitValue?_of_mem_toDigits {n : Nat} {c : Char} (hc : c ∈ Nat.toDigits 10 n) :
    digitValue? c = some (c.toNat - '0'.toNat) := by
  have hdigit : c.isDigit = true := Nat.isDigit_of_mem_toDigits (by omega) (by omega) hc
  exact if_pos hdigit

theorem isDigit_of_mem_toDigits {n : Nat} {c : Char} (hc : c ∈ Nat.toDigits 10 n) :
    isDigit c = true := by
  rw [isDigit, digitValue?_of_mem_toDigits hc]
  rfl

/-- Every number has a first digit. -/
theorem exists_digit (n : Nat) :
    ∃ d ds, Nat.toDigits 10 n = d :: ds ∧ isDigit d = true := by
  obtain ⟨d, ds, hdigits⟩ := List.exists_cons_of_ne_nil (Nat.toDigits_ne_nil (n := n) (b := 10))
  exact ⟨d, ds, hdigits, isDigit_of_mem_toDigits (hdigits ▸ List.mem_cons_self)⟩

/-- The digits of a number stand for it. -/
theorem number_toDigits (n : Nat) : number (Nat.toDigits 10 n) = n := by
  have hfold : ∀ (cs : List Char) (start : Nat), cs ⊆ Nat.toDigits 10 n →
      cs.foldl (fun n c => 10 * n + (digitValue? c).getD 0) start
        = Nat.ofDigitChars 10 cs start := by
    intro cs
    induction cs with
    | nil => intros; rfl
    | cons c cs ih =>
      intro start hcs
      obtain ⟨hc, hrest⟩ := List.cons_subset.mp hcs
      rw [List.foldl_cons, digitValue?_of_mem_toDigits hc, ih _ hrest, Nat.ofDigitChars_cons]
      rfl
  rw [number, hfold _ 0 (List.Subset.refl _), Nat.ofDigitChars_toDigits (by omega) (by omega)]

/-- A number is below the power of ten that has one place more than it has digits. -/
theorem number_lt (digits : List Char) : number digits < Nat.pow 10 digits.length := by
  have hfold : ∀ (cs : List Char) (start : Nat),
      cs.foldl (fun n c => 10 * n + (digitValue? c).getD 0) start
        < (start + 1) * Nat.pow 10 cs.length := by
    intro cs
    induction cs with
    | nil => simp
    | cons c cs ih =>
      intro start
      have hdigit : (digitValue? c).getD 0 ≤ 9 := by
        rw [digitValue?]
        split
        next h =>
          obtain ⟨-, hnine⟩ := Bool.and_eq_true_iff.mp h
          have hle : c.toNat ≤ '9'.toNat := of_decide_eq_true hnine
          exact Nat.sub_le_sub_right hle '0'.toNat
        next => exact Nat.zero_le 9
      calc cs.foldl _ (10 * start + (digitValue? c).getD 0)
          < (10 * start + (digitValue? c).getD 0 + 1) * Nat.pow 10 cs.length := ih _
        _ ≤ ((start + 1) * 10) * Nat.pow 10 cs.length := Nat.mul_le_mul_right _ (by omega)
        _ = (start + 1) * (Nat.pow 10 cs.length * 10) := by rw [Nat.mul_assoc, Nat.mul_comm 10]
  simpa [number] using hfold digits 0

/-- Digits are no fewer than those of the number that they stand for. -/
theorem length_toDigits_number_le {digits : List Char} (h : digits ≠ []) :
    (Nat.toDigits 10 (number digits)).length ≤ digits.length :=
  (Nat.length_toDigits_le_iff (by decide) (List.length_pos_iff.mpr h)).mpr (number_lt digits)

/-- The digits of a number end where no digit is behind them. -/
theorem takeWhile_digits (n : Nat) {tail : List Char}
    (htail : ∀ c ∈ tail.head?, isDigit c = false) :
    (Nat.toDigits 10 n ++ tail).takeWhile isDigit = Nat.toDigits 10 n
      ∧ (Nat.toDigits 10 n ++ tail).dropWhile isDigit = tail := by
  have hdigits : ∀ c ∈ Nat.toDigits 10 n, isDigit c = true :=
    fun c hc => isDigit_of_mem_toDigits hc
  have hnone : tail.takeWhile isDigit = [] ∧ tail.dropWhile isDigit = tail := by
    cases tail with
    | nil => exact ⟨rfl, rfl⟩
    | cons c tail => simp [htail c rfl]
  constructor
  · rw [List.takeWhile_append_of_pos hdigits, hnone.1, List.append_nil]
  · rw [List.dropWhile_append_of_pos hdigits, hnone.2]

/-- A number below zero is a minus in front of the digits of its opposite. -/
theorem toString_toList (n : Int) :
    (toString n).toList = (if n < 0 then ['-'] else []) ++ Nat.toDigits 10 n.natAbs := by
  cases n with
  | ofNat m =>
    show m.repr.toList = _
    rw [if_neg (by simp), Nat.toList_repr]
    rfl
  | negSucc m =>
    show ("-" ++ (m + 1).repr).toList = _
    rw [if_pos (Int.negSucc_lt_zero m), String.toList_append, Nat.toList_repr]
    rfl

/-- A whole number is written with digits and a minus. -/
theorem digit_or_minus_of_mem {n : Int} {c : Char} (hc : c ∈ (toString n).toList) :
    isDigit c = true ∨ c = '-' := by
  rw [toString_toList, List.mem_append] at hc
  rcases hc with hc | hc
  · split at hc
    · exact .inr (List.mem_singleton.mp hc)
    · exact nomatch hc
  · exact .inl (isDigit_of_mem_toDigits hc)

/-- It is known where a whole number ends, and which one it is, if no digit is behind it. -/
theorem toString_append_inj {m n : Int} {cs ds : List Char}
    (hcs : ∀ c ∈ cs.head?, isDigit c = false) (hds : ∀ c ∈ ds.head?, isDigit c = false)
    (h : (toString m).toList ++ cs = (toString n).toList ++ ds) : m = n ∧ cs = ds := by
  have hdigits {k l : Nat} (h : Nat.toDigits 10 k ++ cs = Nat.toDigits 10 l ++ ds) :
      k = l ∧ cs = ds := by
    obtain ⟨htake, hdrop⟩ := takeWhile_digits k hcs
    obtain ⟨htake', hdrop'⟩ := takeWhile_digits l hds
    rw [h] at htake hdrop
    have hsame : Nat.toDigits 10 k = Nat.toDigits 10 l := htake.symm.trans htake'
    refine ⟨?_, hdrop.symm.trans hdrop'⟩
    rw [← number_toDigits k, hsame, number_toDigits]
  have hminus (k : Nat) : ∀ {as bs : List Char}, '-' :: as ≠ Nat.toDigits 10 k ++ bs := by
    obtain ⟨d, ds, hk, hd⟩ := exists_digit k
    intro as bs h
    rw [hk] at h
    obtain ⟨rfl, -⟩ := List.cons.inj h
    exact absurd hd (by decide)
  rw [toString_toList, toString_toList] at h
  -- numbers of different signs differ in the first character, of equal signs in the digits
  by_cases hm : m < 0 <;> by_cases hn : n < 0 <;>
    simp only [hm, hn, if_true, if_false, List.cons_append, List.nil_append] at h
  · obtain ⟨habs, htail⟩ := hdigits (List.cons.inj h).2
    exact ⟨by omega, htail⟩
  · exact absurd h (hminus _)
  · exact absurd h.symm (hminus _)
  · obtain ⟨habs, htail⟩ := hdigits h
    exact ⟨by omega, htail⟩

end SqlCompose.Decimal
