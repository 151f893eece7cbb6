import Mathlib.Data.List.GetD
import Mathlib.Data.List.TakeWhile
import Mathlib.Data.Nat.Find
import SqlCompose.Proofs.Numerals
import SqlCompose.Proofs.TrimPattern

/-! # Trimmed intervals — from the largest amount to the smallest

    The template of an interval is the digits of seven amounts with separators between them. What
    the trimming cuts off may be zeros and separators alike, so it could go on into an amount that
    ends in zeros, or stop at a zero between two others. It does neither: the first digit of an
    amount that is not zero ends what is cut off in front, and its last digits are never behind the
    separator at which the back is cut off.

    * `Interval.written` — amounts with separators between them.
    * `Interval.cutFront_written`, `Interval.cutBack_written` — what is cut off are whole amounts.
    * `Interval.Spans` — the first and the last amount that is not zero.
    * `Interval.cut_template`, `Interval.unit_of_spans` — the amount and the unit.
    * `Interval.written_inj` — what is written between the same separators determines the amounts.
    * `Interval.trimmed` — the theorem. -/

namespace SqlCompose

namespace Interval

/-! ## Digits -/

/-- The magnitude of an amount is written in decimal digits. -/
theorem magnitude_toList (n : Int64) :
    (magnitude n).toList = Nat.toDigits 10 n.toInt.natAbs := by
  rw [magnitude, Nat.toString_eq_ofList_toDigits, String.toList_ofList]

/-- The magnitude of zero is one digit, which may be cut off. -/
theorem magnitude_zero : (magnitude 0).toList = ['0'] := by
  rw [magnitude_toList]
  rfl

/-- There is at least one digit. -/
theorem magnitude_ne_nil (n : Int64) : (magnitude n).toList ≠ [] := by
  rw [magnitude_toList]
  exact Nat.toDigits_ne_nil

/-- Digits are no separators. -/
theorem startsBack_of_mem_magnitude {n : Int64} {c : Char} (hc : c ∈ (magnitude n).toList) :
    startsBack c = false := by
  rw [magnitude_toList] at hc
  have hdigit := Decimal.isDigit_of_mem_toDigits hc
  by_contra hsep
  simp only [startsBack, Bool.not_eq_false, Bool.or_eq_true, beq_iff_eq] at hsep
  rcases hsep with ((rfl | rfl) | rfl) | rfl <;> exact absurd hdigit (by decide)

/-- What may stand at the back may be cut off. -/
theorem isCuttable_of_startsBack (c : Char) (h : startsBack c = true) : isCuttable c = true := by
  simp only [startsBack, isCuttable, Bool.or_eq_true] at h ⊢
  rcases h with ((h | h) | h) | h <;> simp [h]

/-- A digit that is not a zero is not cut off. -/
theorem isCuttable_of_digit {c : Char} (hsep : startsBack c = false) (hzero : c ≠ '0') :
    isCuttable c = false := by
  simp only [startsBack, isCuttable, Bool.or_eq_false_iff, beq_eq_false_iff_ne] at hsep ⊢
  obtain ⟨⟨⟨hdash, hcolon⟩, hpoint⟩, hspace⟩ := hsep
  exact ⟨⟨⟨⟨hzero, hdash⟩, hpoint⟩, hcolon⟩, hspace⟩

/-- The first digit of an amount that is not zero is not cut off. -/
theorem magnitude_eq_cons {n : Int64} (h : n ≠ 0) :
    ∃ d ds, (magnitude n).toList = d :: ds ∧ isCuttable d = false := by
  have habs : n.toInt.natAbs ≠ 0 := by
    intro hzero
    exact h (Int64.toInt_inj.mp (Int.natAbs_eq_zero.mp hzero))
  obtain ⟨d, ds, hdigits, hd⟩ := Decimal.toDigits_eq_cons habs
  rw [← magnitude_toList] at hdigits
  have hmem : d ∈ (magnitude n).toList := hdigits ▸ List.mem_cons_self
  exact ⟨d, ds, hdigits, isCuttable_of_digit (startsBack_of_mem_magnitude hmem) hd⟩

/-- The digits of an amount are those of no other one but its opposite. -/
theorem magnitude_inj {m n : Int64} (h : (magnitude m).toList = (magnitude n).toList) :
    m.toInt.natAbs = n.toInt.natAbs := by
  rw [magnitude_toList, magnitude_toList] at h
  have hnumber := congrArg Decimal.number h
  rwa [Decimal.number_toDigits, Decimal.number_toDigits] at hnumber

/-! ## Amounts with separators between them -/

/-- Amounts without their signs, with separators between them. -/
def written : List Int64 → List Char → List Char
  | n :: m :: ns, sep :: seps => (magnitude n).toList ++ sep :: written (m :: ns) seps
  | n :: _, _ => (magnitude n).toList
  | [], _ => []

/-- The separators of the template. -/
def separators : List Char := ['-', '-', ' ', ':', ':', '.']

/-- The template is the amounts with separators between them. -/
theorem template_toList (i : Interval) : i.template.toList = written i.amounts separators := by
  simp [template, written, amounts, separators]

variable {n : Int64} {ns kept zeros : List Int64} {sep : Char} {seps : List Char}

/-- The first amount and its separator stand in front of the others. -/
theorem written_cons (n : Int64) (hne : ns ≠ []) (sep : Char) (seps : List Char) :
    written (n :: ns) (sep :: seps) = (magnitude n).toList ++ sep :: written ns seps := by
  cases ns with
  | nil => exact absurd rfl hne
  | cons m ns => rfl

/-- Something is written of every amount. -/
theorem written_ne_nil (hne : ns ≠ []) : written ns seps ≠ [] := by
  intro h
  cases ns with
  | nil => exact hne rfl
  | cons n ns =>
    have hdigits : (magnitude n).toList = [] := by
      cases ns <;> cases seps <;> simp_all [written]
    exact magnitude_ne_nil n hdigits

/-- An amount that is not zero starts with a digit that stays. -/
theorem written_eq_cons (hn : n ≠ 0) (ns : List Int64) (seps : List Char) :
    ∃ d ds, written (n :: ns) seps = d :: ds ∧ isCuttable d = false := by
  obtain ⟨d, ds, hdigits, hd⟩ := magnitude_eq_cons hn
  cases ns with
  | nil => exact ⟨d, ds, hdigits, hd⟩
  | cons m ns =>
    cases seps with
    | nil => exact ⟨d, ds, hdigits, hd⟩
    | cons sep seps =>
      exact ⟨d, ds ++ sep :: written (m :: ns) seps, by simp [written, hdigits], hd⟩

/-! ### The back -/

/-- What is cut off at the back may begin with any separator. -/
theorem startsBack_of_mem_drop {first : Nat} {sep : Char} (h : sep ∈ separators.drop first) :
    startsBack sep = true := by
  have hall : ∀ sep ∈ separators, startsBack sep = true := List.all_eq_true.mp (by decide)
  exact hall sep (List.mem_of_mem_drop h)

/-- Of amounts that are all zero, everything may be cut off. -/
theorem isCuttable_of_mem_written (hzeros : ∀ n ∈ zeros, n = 0)
    (hseps : ∀ sep ∈ seps, startsBack sep = true) :
    ∀ c ∈ written zeros seps, isCuttable c = true := by
  have hzero : ∀ c ∈ (magnitude 0).toList, isCuttable c = true := by
    rw [magnitude_zero]
    exact List.all_eq_true.mp (by decide)
  induction zeros generalizing seps with
  | nil => simp [written]
  | cons z zeros ih =>
    obtain ⟨rfl, hrest⟩ := List.forall_mem_cons.mp hzeros
    by_cases hlast : zeros = [] ∨ seps = []
    · have hdigits : written (0 :: zeros) seps = (magnitude 0).toList := by
        rcases hlast with rfl | rfl
        · rfl
        · cases zeros <;> rfl
      rwa [hdigits]
    · obtain ⟨hne, hsome⟩ := not_or.mp hlast
      obtain ⟨sep, seps, rfl⟩ := List.exists_cons_of_ne_nil hsome
      obtain ⟨hsep, hseps⟩ := List.forall_mem_cons.mp hseps
      intro c hc
      rw [written_cons _ hne, List.mem_append, List.mem_cons] at hc
      rcases hc with hc | rfl | hc
      · exact hzero c hc
      · exact isCuttable_of_startsBack c hsep
      · exact ih hrest hseps c hc

/-- Where an amount is not zero, not everything may be cut off. -/
theorem exists_not_cuttable (hlength : (kept ++ n :: ns).length = seps.length + 1) (hn : n ≠ 0) :
    ∃ c ∈ written (kept ++ n :: ns) seps, isCuttable c = false := by
  obtain ⟨d, ds, hdigits, hd⟩ := magnitude_eq_cons hn
  induction kept generalizing seps with
  | nil =>
    refine ⟨d, ?_, hd⟩
    cases ns <;> cases seps <;> simp [written, hdigits]
  | cons k kept ih =>
    cases seps with
    | nil => simp at hlength
    | cons sep seps =>
      obtain ⟨c, hc, hcut⟩ := ih (by simpa using hlength)
      refine ⟨c, ?_, hcut⟩
      rw [List.cons_append, written_cons _ (by simp)]
      exact List.mem_append_right _ (List.mem_cons_of_mem _ hc)

/-- Digits stay. -/
theorem cutBack_append {digits : List Char} (hdigits : ∀ c ∈ digits, startsBack c = false)
    (cs : List Char) : cutBack (digits ++ cs) = digits ++ cutBack cs := by
  induction digits with
  | nil => rfl
  | cons d digits ih =>
    obtain ⟨hd, hrest⟩ := List.forall_mem_cons.mp hdigits
    rw [List.cons_append, cutBack, hd, ih hrest]
    rfl

/-- **The back.** The zeros behind the last amount that is not zero are cut off, with their
    separators, and nothing else is. -/
theorem cutBack_written (hlength : (kept ++ n :: zeros).length = seps.length + 1) (hn : n ≠ 0)
    (hzeros : ∀ m ∈ zeros, m = 0) (hseps : ∀ sep ∈ seps, startsBack sep = true) :
    cutBack (written (kept ++ n :: zeros) seps) = written (kept ++ [n]) seps := by
  have hdigits : ∀ k : Int64, ∀ c ∈ (magnitude k).toList, startsBack c = false :=
    fun _ _ => startsBack_of_mem_magnitude
  induction kept generalizing seps with
  | nil =>
    by_cases hnone : zeros = []
    · subst hnone
      have hall := cutBack_append (hdigits n) []
      rwa [List.append_nil, cutBack, List.append_nil] at hall
    · obtain ⟨sep, seps, rfl⟩ := List.exists_cons_of_ne_nil (l := seps) (by
        rintro rfl
        simp_all)
      obtain ⟨hsep, hrest⟩ := List.forall_mem_cons.mp hseps
      have hall : (written zeros seps).all isCuttable = true :=
        List.all_eq_true.mpr (isCuttable_of_mem_written hzeros hrest)
      have hsome : (written zeros seps).isEmpty = false :=
        List.isEmpty_eq_false_iff.mpr (written_ne_nil hnone)
      rw [List.nil_append, written_cons n hnone, cutBack_append (hdigits n), cutBack, hsep, hsome,
        hall]
      exact List.append_nil _
  | cons k kept ih =>
    obtain ⟨sep, seps, rfl⟩ := List.exists_cons_of_ne_nil (l := seps) (by
      rintro rfl
      simp at hlength)
    have hlength' : (kept ++ n :: zeros).length = seps.length + 1 := by simpa using hlength
    obtain ⟨c, hc, hcut⟩ := exists_not_cuttable hlength' hn
    have hsome : (written (kept ++ n :: zeros) seps).all isCuttable = false := by
      rw [List.all_eq_false]
      exact ⟨c, hc, by simp [hcut]⟩
    rw [List.cons_append, List.cons_append, written_cons k (by simp), written_cons k (by simp),
      cutBack_append (hdigits k), cutBack, hsome, Bool.and_false,
      ih hlength' (List.forall_mem_cons.mp hseps).2]
    rfl

/-! ### The front -/

/-- Zeros in front are written as zeros, each with the separator behind it. -/
theorem written_zeros (hlength : zeros.length ≤ seps.length) (hzeros : ∀ m ∈ zeros, m = 0) :
    written (zeros ++ n :: ns) seps
      = (seps.take zeros.length).flatMap (fun sep => ['0', sep])
        ++ written (n :: ns) (seps.drop zeros.length) := by
  induction zeros generalizing seps with
  | nil => rfl
  | cons z zeros ih =>
    obtain ⟨rfl, hrest⟩ := List.forall_mem_cons.mp hzeros
    cases seps with
    | nil => simp at hlength
    | cons sep seps =>
      rw [List.cons_append, written_cons _ (by simp), ih (by simpa using hlength) hrest,
        magnitude_zero]
      simp

/-- In front, as many characters are in reach as belong to the zeros. -/
theorem reach_zeros {ends : List Char} {c : Char} {cs : List Char}
    (hends : ∀ sep ∈ ends, endsFront sep = true) (hc : isCuttable c = false) :
    Pattern.reach isCuttable endsFront (ends.flatMap (fun sep => ['0', sep]) ++ c :: cs)
      = 2 * ends.length := by
  induction ends with
  | nil => exact Pattern.reach_cons_of_neg endsFront hc cs
  | cons sep ends ih =>
    obtain ⟨hsep, hrest⟩ := List.forall_mem_cons.mp hends
    have hcut : isCuttable sep = true := isCuttable_of_endsFront sep hsep
    -- the separator is in reach, whether there are zeros behind it or not
    have hreach : Pattern.reach isCuttable endsFront
        (sep :: (ends.flatMap (fun sep => ['0', sep]) ++ c :: cs)) = 2 * ends.length + 1 := by
      rw [Pattern.reach_cons_of_pos endsFront hcut, ih hrest, if_pos hsep]
      split <;> omega
    simp only [List.flatMap_cons, List.cons_append, List.nil_append]
    rw [Pattern.reach_cons_of_pos endsFront (by decide), hreach, if_neg (Nat.succ_ne_zero _),
      List.length_cons]
    omega

/-- **The front.** The zeros in front of the first amount that is not zero are cut off, with their
    separators, and nothing else is. -/
theorem cutFront_written (hlength : zeros.length ≤ seps.length) (hn : n ≠ 0)
    (hzeros : ∀ m ∈ zeros, m = 0) (hseps : ∀ sep ∈ seps.take zeros.length, endsFront sep = true) :
    cutFront (written (zeros ++ n :: ns) seps) = written (n :: ns) (seps.drop zeros.length) := by
  rw [written_zeros hlength hzeros]
  obtain ⟨d, ds, hd, hcut⟩ := written_eq_cons hn ns (seps.drop zeros.length)
  rw [hd]
  generalize seps.take zeros.length = ends at hseps ⊢
  -- no point stands in front, so what is cut is zeros with what ends them
  have hpoint : pointFront.ends true (ends.flatMap (fun sep => ['0', sep]) ++ d :: ds) = [] := by
    rw [ends_pointFront]
    cases ends with
    | nil =>
      have hzero : ¬ (d == '0') = true := fun h => absurd hcut (by rw [eq_of_beq h]; decide)
      simp [hzero]
    | cons sep ends =>
      have hsep := hseps sep List.mem_cons_self
      have hzero : ¬ (sep == '0') = true := fun h => absurd hsep (by rw [eq_of_beq h]; decide)
      have hpoint : ¬ (sep == '.') = true := fun h => absurd hsep (by rw [eq_of_beq h]; decide)
      simp [hzero, hpoint]
  rw [cutFront_eq, hpoint, List.nil_append, head?_front, reach_zeros hseps hcut]
  have hlong : (ends.flatMap fun sep => ['0', sep]).length = 2 * ends.length := by
    simp [List.map_const', Nat.mul_comm]
  split
  case isTrue => exact List.drop_left' hlong
  case isFalse hnone =>
    have hnil : ends = [] := List.eq_nil_of_length_eq_zero (by omega)
    subst hnil
    rfl

/-! ## The first amount and the last one -/

/-- The amount at a place of the template, the largest unit at place 0. -/
def amount (i : Interval) (k : Nat) : Int64 := i.amounts.getD k 0

/-- The unit at a place of the template. -/
def unitName (k : Nat) : String := unitNames.getD k ""

/-- The places of the first and the last amount that is not zero. -/
structure Spans (i : Interval) (first last : Nat) : Prop where
  first_ne : i.amount first ≠ 0
  before : ∀ k < first, i.amount k = 0
  last_ne : i.amount last ≠ 0
  behind : ∀ k, last < k → i.amount k = 0

/-- The sign of an interval that begins with an amount. -/
def sign (n : Int64) : String := if n < 0 then "-" else ""

/-- What is written of the amounts from one place to another: their digits, with the separators of
    the template between them. -/
def spanText (i : Interval) (first last : Nat) : String :=
  String.ofList
    (written ((i.amounts.drop first).take (last + 1 - first)) (separators.drop first))

/-- The unit of the amounts from one place to another. -/
def spanUnit (first last : Nat) : String :=
  if first = last then unitName first else unitName first ++ "_" ++ unitName last

variable {i j : Interval} {first last : Nat}

/-- There are seven amounts. -/
theorem amounts_length (i : Interval) : i.amounts.length = 7 := rfl

theorem amount_eq_getElem {k : Nat} (hk : k < i.amounts.length) : i.amount k = i.amounts[k] :=
  List.getD_eq_getElem _ _ hk

theorem lt_of_amount_ne {k : Nat} (h : i.amount k ≠ 0) : k < 7 := by
  by_contra hge
  exact h (List.getD_eq_default _ _ (by rw [amounts_length]; omega))

/-- The amounts from a place on begin with the one at that place. -/
theorem drop_amounts {k : Nat} (hk : k < 7) :
    i.amounts.drop k = i.amount k :: i.amounts.drop (k + 1) := by
  rw [List.drop_eq_getElem_cons (by rwa [amounts_length]), amount_eq_getElem]

/-- What is there from a place on, up to a place behind it and from that on. -/
theorem drop_eq_append {α : Type} {xs rest : List α} {x : α} {a b : Nat} (hle : a ≤ b)
    (h : xs.drop b = x :: rest) : xs.drop a = (xs.drop a).take (b - a) ++ x :: rest := by
  have hdrop : (xs.drop a).drop (b - a) = xs.drop b := by
    rw [List.drop_drop, Nat.add_sub_cancel' hle]
  rw [← h, ← hdrop, List.take_append_drop]

namespace Spans

variable (h : i.Spans first last)
include h

/-- The first unit that is left is not behind the last one. -/
theorem le : first ≤ last := by
  by_contra hlt
  exact h.first_ne (h.behind first (by omega))

theorem last_lt : last < 7 := lt_of_amount_ne h.last_ne

/-- Amounts in front of the first unit that is left are zero. -/
theorem eq_zero_of_mem_take : ∀ n ∈ i.amounts.take first, n = 0 := by
  intro n hn
  obtain ⟨k, hk, rfl⟩ := List.mem_take_iff_getElem.mp hn
  rw [← amount_eq_getElem]
  exact h.before k (by omega)

/-- So are those behind the last one. -/
theorem eq_zero_of_mem_drop : ∀ n ∈ i.amounts.drop (last + 1), n = 0 := by
  intro n hn
  obtain ⟨k, hk, rfl⟩ := List.mem_drop_iff_getElem.mp hn
  rw [← amount_eq_getElem]
  exact h.behind _ (by omega)

end Spans

/-- An interval with an amount that is not zero has a first and a last one. -/
theorem exists_spans (h : ∃ n ∈ i.amounts, n ≠ 0) : ∃ first last, i.Spans first last := by
  have hplace : ∃ k, i.amount k ≠ 0 := by
    obtain ⟨n, hn, hne⟩ := h
    obtain ⟨k, hk, rfl⟩ := List.mem_iff_getElem.mp hn
    exact ⟨k, by rwa [amount_eq_getElem hk]⟩
  have hfirst := Nat.find_spec hplace
  have hsix : Nat.find hplace ≤ 6 := by
    have := lt_of_amount_ne hfirst
    omega
  refine ⟨Nat.find hplace, Nat.findGreatest (i.amount · ≠ 0) 6, ?_⟩
  constructor
  case first_ne => exact hfirst
  case before =>
    intro m hm
    exact not_not.mp (Nat.find_min hplace hm)
  case last_ne => exact Nat.findGreatest_spec (P := fun k => i.amount k ≠ 0) hsix hfirst
  case behind =>
    intro m hm
    by_contra hne
    have hlt := lt_of_amount_ne hne
    exact Nat.findGreatest_is_greatest hm (by omega) hne

/-- What the template comes to when its zeros are cut off. -/
theorem cut_template (h : i.Spans first last) (hsix : first ≠ 6) :
    cut i.template = i.spanText first last := by
  have hle := h.le
  have hlast := h.last_lt
  -- units before the first and behind the last are zero, and are cut with their separators
  have hfront : cutFront (written i.amounts separators)
      = written (i.amounts.drop first) (separators.drop first) := by
    have hzeros : (i.amounts.take first).length = first := by
      rw [List.length_take, amounts_length]
      omega
    have hends : ∀ sep ∈ separators.take (i.amounts.take first).length, endsFront sep = true := by
      have hfive : ∀ sep ∈ separators.take 5, endsFront sep = true :=
        List.all_eq_true.mp (by decide)
      intro sep hsep
      exact hfive sep (List.take_subset_take_left _ (by omega) hsep)
    have hlength : (i.amounts.take first).length ≤ separators.length := by
      rw [hzeros]
      show first ≤ 6
      omega
    have hcut : cutFront (written (i.amounts.take first
        ++ i.amount first :: i.amounts.drop (first + 1)) separators) = _ :=
      cutFront_written hlength h.first_ne h.eq_zero_of_mem_take hends
    rwa [hzeros, ← drop_amounts (by omega), List.take_append_drop] at hcut
  have hback : cutBack (written (i.amounts.drop first) (separators.drop first))
      = written ((i.amounts.drop first).take (last + 1 - first)) (separators.drop first) := by
    have hkept : ((i.amounts.drop first).take (last - first)).length = last - first := by
      rw [List.length_take, List.length_drop, amounts_length]
      omega
    have hbegins : ∀ sep ∈ separators.drop first, startsBack sep = true :=
      fun _ => startsBack_of_mem_drop
    have hdrop := drop_eq_append hle (drop_amounts (i := i) hlast)
    have hlength : ((i.amounts.drop first).take (last - first)
        ++ i.amount last :: i.amounts.drop (last + 1)).length
        = (separators.drop first).length + 1 := by
      rw [← hdrop, List.length_drop, List.length_drop, amounts_length]
      show 7 - first = 6 - first + 1
      omega
    have hspan : (i.amounts.drop first).take (last + 1 - first)
        = (i.amounts.drop first).take (last - first) ++ [i.amount last] := by
      have hone : ((i.amounts.drop first).take (last - first)
          ++ i.amount last :: i.amounts.drop (last + 1)).take
            (((i.amounts.drop first).take (last - first)).length + 1)
          = (i.amounts.drop first).take (last - first) ++ [i.amount last] :=
        List.take_length_add_append 1
      rwa [← hdrop, hkept, ← Nat.sub_add_comm hle] at hone
    have hcut := cutBack_written hlength h.last_ne h.eq_zero_of_mem_drop hbegins
    rwa [← hdrop, ← hspan] at hcut
  rw [cut, template_toList, hfront, hback]
  rfl

/-! ### The unit -/

/-- The amounts with their units. -/
def units (i : Interval) : List (String × Int64) := unitNames.zip i.amounts

/-- There are seven units. -/
theorem units_length (i : Interval) : i.units.length = 7 := rfl

theorem drop_units {k : Nat} (hk : k < 7) :
    i.units.drop k = (unitName k, i.amount k) :: i.units.drop (k + 1) := by
  have hlength : k < i.units.length := by rwa [units_length]
  have hunit : i.units[k] = (unitName k, i.amount k) := by
    have hname : k < unitNames.length := hk
    simp only [units, unitName, List.getElem_zip, List.getD_eq_getElem _ _ hname,
      amount_eq_getElem (i := i) (by rwa [amounts_length])]
  rw [List.drop_eq_getElem_cons hlength, hunit]

/-- Units of zeros are left out. -/
theorem filter_units {zs : List (String × Int64)} (h : ∀ z ∈ zs, z.2 = 0) :
    zs.filter (fun z => z.2 != 0) = [] := by
  rw [List.filter_eq_nil_iff]
  intro z hz
  rw [h z hz]
  decide

/-- The first of the amounts that are not zero, and the last one of the others. -/
theorem present_of_spans (h : i.Spans first last) :
    ∃ rest, i.present = (unitName first, i.amount first) :: rest
      ∧ rest.getLast? = if first = last then none else some (unitName last, i.amount last) := by
  have hle := h.le
  have hlast := h.last_lt
  have hbefore : ∀ z ∈ i.units.take first, z.2 = 0 := by
    rintro ⟨name, n⟩ hz
    rw [units, List.zip_eq_zipWith, List.take_zipWith, ← List.zip_eq_zipWith] at hz
    exact h.eq_zero_of_mem_take n (List.of_mem_zip hz).2
  have hbehind : ∀ z ∈ i.units.drop (last + 1), z.2 = 0 := by
    rintro ⟨name, n⟩ hz
    rw [units, List.zip_eq_zipWith, List.drop_zipWith, ← List.zip_eq_zipWith] at hz
    exact h.eq_zero_of_mem_drop n (List.of_mem_zip hz).2
  -- what is zero is left out, so what is left starts with the first and ends with the last
  have hkept : ∀ {name : String} {n : Int64} (zs : List (String × Int64)), n ≠ 0 →
      ((name, n) :: zs).filter (fun z => z.2 != 0) = (name, n) :: zs.filter (fun z => z.2 != 0) :=
    fun _ hne => List.filter_cons_of_pos (bne_iff_ne.mpr hne)
  refine ⟨(i.units.drop (first + 1)).filter (fun z => z.2 != 0), ?_, ?_⟩
  · calc i.units.filter (fun z => z.2 != 0)
        = (i.units.take first ++ (unitName first, i.amount first)
            :: i.units.drop (first + 1)).filter (fun z => z.2 != 0) := by
          rw [← drop_units (by omega), List.take_append_drop]
      _ = _ := by rw [List.filter_append, filter_units hbefore, hkept _ h.first_ne]; rfl
  · by_cases hone : first = last
    · rw [if_pos hone, hone, filter_units hbehind]
      rfl
    · have hdrop := drop_eq_append (a := first + 1) (by omega) (drop_units (i := i) hlast)
      rw [if_neg hone, hdrop, List.filter_append, hkept _ h.last_ne, filter_units hbehind]
      exact List.getLast?_concat

/-- The amount and the unit of an interval go from the first amount that is not zero to the
    last. -/
theorem amountAndUnit_of_spans (hquarters : i.quarters = 0) (hweeks : i.weeks = 0)
    (h : i.Spans first last) :
    i.amountAndUnit = (sign (i.amount first) ++ i.spanText first last, spanUnit first last) := by
  obtain ⟨rest, hpresent, hrest⟩ := present_of_spans h
  have hnames : ∀ k < 6, unitName k ≠ "MICROSECOND" := by decide
  simp only [amountAndUnit, hquarters, hweeks, hpresent, bne_self_eq_false, Bool.false_eq_true,
    if_false]
  by_cases hsix : first = 6
  · obtain rfl : last = 6 := by
      have := h.le
      have := h.last_lt
      omega
    subst hsix
    have htext : i.spanText 6 6 = magnitude (i.amount 6) := String.ofList_toList
    rw [htext]
    rfl
  · have hlt : first < 6 := by
      have := h.le
      have := h.last_lt
      omega
    rw [if_neg (hnames first hlt), hrest, cut_template h hsix]
    by_cases hone : first = last
    · simp [hone, sign, spanUnit]
    · simp [hone, sign, spanUnit]

/-! ## Reading the amounts off -/

/-- What stands in front of a separator, and what behind it. -/
theorem eq_of_append_sep {xs ys us vs : List Char} (hxs : sep ∉ xs) (hys : sep ∉ ys)
    (h : xs ++ sep :: us = ys ++ sep :: vs) : xs = ys ∧ us = vs := by
  induction xs generalizing ys with
  | nil =>
    cases ys with
    | nil => exact ⟨rfl, (List.cons.inj h).2⟩
    | cons y ys =>
      obtain ⟨rfl, -⟩ := List.cons.inj h
      exact absurd List.mem_cons_self hys
  | cons x xs ih =>
    cases ys with
    | nil =>
      obtain ⟨rfl, -⟩ := List.cons.inj h
      exact absurd List.mem_cons_self hxs
    | cons y ys =>
      obtain ⟨rfl, hrest⟩ := List.cons.inj h
      obtain ⟨rfl, hus⟩ := ih (fun hx => hxs (List.mem_cons_of_mem _ hx))
        (fun hy => hys (List.mem_cons_of_mem _ hy)) hrest
      exact ⟨rfl, hus⟩

/-- What is written between the same separators determines the amounts, but for their signs. -/
theorem written_inj {ms : List Int64} (hlength : ms.length = ns.length)
    (hmany : ns.length ≤ seps.length + 1) (hseps : ∀ sep ∈ seps, startsBack sep = true)
    (h : written ms seps = written ns seps) :
    ms.map (fun n => n.toInt.natAbs) = ns.map (fun n => n.toInt.natAbs) := by
  have hnotMem : ∀ sep : Char, startsBack sep = true → ∀ n : Int64, sep ∉ (magnitude n).toList := by
    intro sep hsep n hmem
    rw [startsBack_of_mem_magnitude hmem] at hsep
    exact Bool.false_ne_true hsep
  -- no separator is a digit, so the digits in front of the first one are the first number
  induction ns generalizing ms seps with
  | nil =>
    obtain rfl := List.eq_nil_of_length_eq_zero hlength
    rfl
  | cons n ns ih =>
    obtain ⟨m, ms, rfl⟩ := List.exists_cons_of_length_eq_add_one hlength
    have hrest : ms.length = ns.length := by simpa using hlength
    by_cases hnone : ns = []
    · subst hnone
      obtain rfl := List.eq_nil_of_length_eq_zero hrest
      simp [magnitude_inj h]
    · have hmany' : ns.length ≤ seps.length := by simpa using hmany
      have hne : ms ≠ [] := by
        rintro rfl
        exact hnone (List.eq_nil_of_length_eq_zero hrest.symm)
      obtain ⟨sep, seps, rfl⟩ := List.exists_cons_of_ne_nil (l := seps) (by
        rintro rfl
        exact hnone (List.eq_nil_of_length_eq_zero (Nat.le_zero.mp hmany')))
      obtain ⟨hsep, hseps⟩ := List.forall_mem_cons.mp hseps
      rw [written_cons m hne, written_cons n hnone] at h
      obtain ⟨hdigits, hbehind⟩ := eq_of_append_sep (hnotMem sep hsep m) (hnotMem sep hsep n) h
      rw [List.map_cons, List.map_cons, magnitude_inj hdigits, ih hrest hmany' hseps hbehind]

/-- The name of a span tells the first unit and the last. -/
theorem spanUnit_inj {first' last' : Nat} (hle : first ≤ last) (hlt : last < 7)
    (hle' : first' ≤ last') (hlt' : last' < 7) (h : spanUnit first last = spanUnit first' last') :
    first = first' ∧ last = last' := by
  have hall : ∀ f l f' l' : Fin 7, f ≤ l → f' ≤ l' →
      spanUnit f l = spanUnit f' l' → f = f' ∧ l = l' := by
    decide +kernel
  obtain ⟨hfirst, hlast⟩ := hall ⟨first, by omega⟩ ⟨last, hlt⟩ ⟨first', by omega⟩ ⟨last', hlt'⟩
    hle hle' h
  exact ⟨congrArg Fin.val hfirst, congrArg Fin.val hlast⟩

/-- A sign is no digit, so it is known where an amount with a sign begins. -/
theorem sign_append_inj {m n : Int64} {xs ys : List Char} (hxs : xs.head? ≠ some '-')
    (hys : ys.head? ≠ some '-')
    (h : sign m ++ String.ofList xs = sign n ++ String.ofList ys) :
    (m < 0 ↔ n < 0) ∧ xs = ys := by
  have hchars := congrArg String.toList h
  simp only [String.toList_append, String.toList_ofList] at hchars
  by_cases hm : m < 0 <;> by_cases hn : n < 0 <;> simp [sign, hm, hn] at hchars ⊢
  · exact hchars
  · exact absurd (by rw [← hchars]; rfl) hys
  · exact absurd (by rw [hchars]; rfl) hxs
  · exact hchars

/-- Whether no amount has the opposite sign of another. -/
def OneSign (i : Interval) : Prop := (∀ n ∈ i.amounts, 0 ≤ n) ∨ ∀ n ∈ i.amounts, n ≤ 0

/-- The sign of an interval of one sign is that of each of its amounts. -/
theorem OneSign.all (h : i.OneSign) (hspans : i.Spans first last) :
    ∀ n ∈ i.amounts, if i.amount first < 0 then n.toInt ≤ 0 else 0 ≤ n.toInt := by
  have hmem : i.amount first ∈ i.amounts := by
    have hlt : first < i.amounts.length := lt_of_amount_ne hspans.first_ne
    rw [amount_eq_getElem hlt]
    exact List.getElem_mem hlt
  have hne : (i.amount first).toInt ≠ 0 := fun h => hspans.first_ne (Int64.toInt_inj.mp h)
  simp only [OneSign, Int64.le_iff_toInt_le, Int64.toInt_zero] at h
  have hneg : i.amount first < 0 ↔ (i.amount first).toInt < 0 := Int64.lt_iff_toInt_lt
  intro n hn
  rcases h with h | h
  · have hfirst := h _ hmem
    rw [if_neg (fun hlt => by have := hneg.mp hlt; omega)]
    exact h n hn
  · have hfirst := h _ hmem
    rw [if_pos (hneg.mpr (by omega))]
    exact h n hn

/-- Amounts of one sign are known by what they are without it. -/
theorem eq_of_natAbs {ms ns : List Int64} {negative : Prop} [Decidable negative]
    (hms : ∀ n ∈ ms, if negative then n.toInt ≤ 0 else 0 ≤ n.toInt)
    (hns : ∀ n ∈ ns, if negative then n.toInt ≤ 0 else 0 ≤ n.toInt)
    (h : ms.map (fun n => n.toInt.natAbs) = ns.map (fun n => n.toInt.natAbs)) : ms = ns := by
  induction ms generalizing ns with
  | nil => exact (List.map_eq_nil_iff.mp h.symm).symm
  | cons m ms ih =>
    cases ns with
    | nil => exact nomatch h
    | cons n ns =>
      rw [List.map_cons, List.map_cons] at h
      obtain ⟨habs, hrest⟩ := List.cons.inj h
      obtain ⟨hm, hms⟩ := List.forall_mem_cons.mp hms
      obtain ⟨hn, hns⟩ := List.forall_mem_cons.mp hns
      have heq : m.toInt = n.toInt := by
        split at hm <;> split at hn <;> first | omega | contradiction
      rw [Int64.toInt_inj.mp heq, ih hms hns hrest]

/-- The amounts of two intervals between the same places are the same if what is written of them
    is and they have the same sign. -/
theorem eq_of_written (hi : i.Spans first last) (hj : j.Spans first last) (hone : i.OneSign)
    (hone' : j.OneSign) (hsign : i.amount first < 0 ↔ j.amount first < 0)
    (h : written ((i.amounts.drop first).take (last + 1 - first)) (separators.drop first)
      = written ((j.amounts.drop first).take (last + 1 - first)) (separators.drop first)) :
    i.amounts = j.amounts := by
  have hle := hi.le
  have hlast := hi.last_lt
  have hseps : ∀ sep ∈ separators.drop first, startsBack sep = true :=
    fun _ => startsBack_of_mem_drop
  have hlength : ∀ k : Interval,
      ((k.amounts.drop first).take (last + 1 - first)).length = last + 1 - first := by
    intro k
    rw [List.length_take, List.length_drop, amounts_length]
    omega
  have hmany : last + 1 - first ≤ (separators.drop first).length + 1 := by
    rw [List.length_drop]
    show last + 1 - first ≤ 6 - first + 1
    omega
  have habs := written_inj (by rw [hlength, hlength]) (by rwa [hlength]) hseps h
  have hsub : ∀ (k : Interval) n, n ∈ (k.amounts.drop first).take (last + 1 - first) →
      n ∈ k.amounts := fun k n hn => List.mem_of_mem_drop (List.mem_of_mem_take hn)
  -- one sign for all makes the numbers known from their digits
  have hsigns := hone'.all hj
  simp only [← hsign] at hsigns
  have hspan := eq_of_natAbs (fun n hn => hone.all hi n (hsub i n hn))
    (fun n hn => hsigns n (hsub j n hn)) habs
  have hfront : i.amounts.take first = j.amounts.take first := by
    rw [List.eq_replicate_of_mem hi.eq_zero_of_mem_take,
      List.eq_replicate_of_mem hj.eq_zero_of_mem_take, List.length_take, List.length_take]
    rfl
  have hback : i.amounts.drop (last + 1) = j.amounts.drop (last + 1) := by
    rw [List.eq_replicate_of_mem hi.eq_zero_of_mem_drop,
      List.eq_replicate_of_mem hj.eq_zero_of_mem_drop, List.length_drop, List.length_drop]
    rfl
  have hparts : ∀ k : Interval, k.amounts = k.amounts.take first
      ++ ((k.amounts.drop first).take (last + 1 - first) ++ k.amounts.drop (last + 1)) := by
    intro k
    have hdrop : k.amounts.drop (last + 1) = (k.amounts.drop first).drop (last + 1 - first) := by
      rw [List.drop_drop, Nat.add_sub_cancel' (by omega)]
    rw [hdrop, List.take_append_drop, List.take_append_drop]
  rw [hparts i, hparts j, hfront, hspan, hback]

/-- What is written of an amount that is not zero does not begin with a minus. -/
theorem head?_written (hn : n ≠ 0) (ns : List Int64) (seps : List Char) :
    (written (n :: ns) seps).head? ≠ some '-' := by
  obtain ⟨d, ds, hd, hcut⟩ := written_eq_cons hn ns seps
  rw [hd]
  intro h
  obtain rfl := Option.some.inj h
  exact absurd hcut (by decide)

/-- Amount and unit determine the interval, if it has one sign and neither quarters nor weeks. -/
theorem eq_of_amountAndUnit (hquarters : i.quarters = 0) (hweeks : i.weeks = 0)
    (hi : i.Spans first last) (hone : i.OneSign) (hquarters' : j.quarters = 0)
    (hweeks' : j.weeks = 0) {first' last' : Nat} (hj : j.Spans first' last') (hone' : j.OneSign)
    (h : i.amountAndUnit = j.amountAndUnit) : i = j := by
  rw [amountAndUnit_of_spans hquarters hweeks hi, amountAndUnit_of_spans hquarters' hweeks' hj] at h
  obtain ⟨htext, hunit⟩ := Prod.mk.inj h
  obtain ⟨rfl, rfl⟩ := spanUnit_inj hi.le hi.last_lt hj.le hj.last_lt hunit
  have hhead : ∀ {k : Interval}, k.Spans first last →
      (written ((k.amounts.drop first).take (last + 1 - first)) (separators.drop first)).head?
        ≠ some '-' := by
    intro k hk
    have hlast := hk.last_lt
    have hle := hk.le
    rw [drop_amounts (by omega), Nat.sub_add_comm hle, List.take_succ_cons]
    exact head?_written hk.first_ne _ _
  obtain ⟨hsign, hwritten⟩ := sign_append_inj (hhead hi) (hhead hj) htext
  have hamounts := eq_of_written hi hj hone hone' hsign hwritten
  obtain ⟨_, _, _, _, _, _, _, _, _⟩ := i
  obtain ⟨_, _, _, _, _, _, _, _, _⟩ := j
  simp_all [amounts]

/-- **Trimming.** An interval with neither quarters nor weeks whose first and last amounts that are
    not zero are at given places of the template: if the first one is microseconds, it is written by
    itself; if not, what erasing the matches of the pattern leaves of the template is exactly the
    digits of the amounts from the first to the last, with their separators, it is written with the
    sign of the first one, and the unit names the first and the last. So the amount and the unit
    determine all amounts, if none has the opposite sign of another. -/
theorem trimmed (hquarters : i.quarters = 0) (hweeks : i.weeks = 0)
    (hsome : ∃ n ∈ i.amounts, n ≠ 0) :
    (∃ first last, i.Spans first last
      ∧ (first = 6 → i.amountAndUnit
          = (sign i.microseconds ++ magnitude i.microseconds, "MICROSECOND"))
      ∧ (first ≠ 6 → trimPattern.erase i.template = i.spanText first last
          ∧ i.amountAndUnit = (sign (i.amount first) ++ trimPattern.erase i.template,
              spanUnit first last)))
      ∧ ∀ j : Interval, j.quarters = 0 → j.weeks = 0 → (∃ n ∈ j.amounts, n ≠ 0) →
          i.OneSign → j.OneSign → j.amountAndUnit = i.amountAndUnit → j = i := by
  obtain ⟨first, last, hspans⟩ := exists_spans hsome
  have hboth := amountAndUnit_of_spans hquarters hweeks hspans
  constructor
  · refine ⟨first, last, hspans, ?_, ?_⟩
    · rintro rfl
      obtain rfl : last = 6 := by
        have := hspans.le
        have := hspans.last_lt
        omega
      have htext : i.spanText 6 6 = magnitude (i.amount 6) := String.ofList_toList
      rw [hboth, htext]
      rfl
    · intro hsix
      have htext := cut_template hspans hsix
      rw [cut_eq_erase] at htext
      exact ⟨htext, by rw [htext, hboth]⟩
  · intro j hquarters' hweeks' hsome' hone hone' h
    obtain ⟨first', last', hspans'⟩ := exists_spans hsome'
    exact eq_of_amountAndUnit hquarters' hweeks' hspans' hone' hquarters hweeks hspans hone h

/-- Ten days back and more, the least number of hours there is, no minutes and a hundred
    seconds. -/
def longAgo : Interval := { days := -10, hours := Int64.minValue, seconds := -100 }

/-- Neither the zeros that amounts end in nor those between two amounts are lost. -/
theorem trimmed_longAgo :
    longAgo.amountAndUnit = ("-10 9223372036854775808:0:100", "DAY_SECOND")
      ∧ ∀ j : Interval, j.quarters = 0 → j.weeks = 0 → (∃ n ∈ j.amounts, n ≠ 0) → j.OneSign →
          j.amountAndUnit = longAgo.amountAndUnit → j = longAgo := by
  have hnegative : (longAgo.amounts.all fun n => decide (n ≤ 0)) = true := by decide
  have hone : longAgo.OneSign :=
    .inr fun n hn => of_decide_eq_true (List.all_eq_true.mp hnegative n hn)
  obtain ⟨-, hunique⟩ := trimmed (i := longAgo) rfl rfl ⟨-10, by decide, by decide⟩
  refine ⟨by decide +kernel, fun j hquarters hweeks hsome hone' h => ?_⟩
  exact hunique j hquarters hweeks hsome hone hone' h

end Interval

end SqlCompose
