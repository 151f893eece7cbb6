import Mathlib.Data.List.TakeWhile
import SqlCompose.Term.Interval

/-! # The pattern of the zeros — cutting is erasing what a regular expression matches

    What is cut off the template of an interval is said by a regular expression: every match in the
    template is erased, the leftmost one first, and of the matches at one place the one that trying
    the alternatives in their order and repeating as often as possible finds first. Here such
    expressions have their own meaning, by the places a match can end at in the order in which they
    are tried, and the cutting of `Term.Interval` is shown to be that erasing, for every text.

    * `Pattern.ends` — where the matches at a place end, the preferred one first.
    * `Pattern.erase` — a text without its matches.
    * `Interval.trimPattern` — `(^0+\.)|(\.0+$)|(^[0\-.: ]+[\-: ])|([\-:. ][0\-.: ]+$)`.
    * `Interval.cut_eq_erase` — the theorem. -/

namespace SqlCompose

/-! ## Regular expressions -/

/-- A regular expression: the two ends of the text, one character of a class, one or more of
    them, one expression behind another, one or else another. -/
inductive Pattern where
  | start
  | finish
  | one (isIn : Char → Bool)
  | many (isIn : Char → Bool)
  | seq (first second : Pattern)
  | or (first second : Pattern)

namespace Pattern

/-- What can be left behind one or more characters of a class, the least first. -/
def runs (isIn : Char → Bool) : List Char → List (List Char)
  | [] => []
  | c :: cs => if isIn c then runs isIn cs ++ [cs] else []

/-- What is left of the text behind each match that begins here, the preferred one first. The flag
    says whether here is the beginning of the text. -/
def ends : Pattern → Bool → List Char → List (Bool × List Char)
  | .start, atStart, cs => if atStart then [(atStart, cs)] else []
  | .finish, atStart, cs => if cs.isEmpty then [(atStart, cs)] else []
  | .one _, _, [] => []
  | .one isIn, _, c :: cs => if isIn c then [(false, cs)] else []
  | .many isIn, _, cs => (runs isIn cs).map (false, ·)
  | .seq first second, atStart, cs =>
    (first.ends atStart cs).flatMap fun (atStart, cs) => second.ends atStart cs
  | .or first second, atStart, cs => first.ends atStart cs ++ second.ends atStart cs

/-- The length of the match that begins here; without a match, zero. -/
def taken (p : Pattern) (atStart : Bool) (cs : List Char) : Nat :=
  match p.ends atStart cs with
  | [] => 0
  | (_, rest) :: _ => cs.length - rest.length

/-- A text without its matches, of which as many characters as the number says belong to a match
    already. -/
def eraseFrom (p : Pattern) : Bool → Nat → List Char → List Char
  | _, _, [] => []
  | _, skipped + 1, _ :: cs => eraseFrom p false skipped cs
  | atStart, 0, c :: cs =>
    match p.taken atStart (c :: cs) with
    | 0 => c :: eraseFrom p false 0 cs
    | more + 1 => eraseFrom p false more cs

/-- A text without the matches that are found in it from left to right. -/
def erase (p : Pattern) (text : String) : String :=
  String.ofList (p.eraseFrom true 0 text.toList)

/-! ## What is left behind a match -/

variable {p q : Pattern} {isIn : Char → Bool} {atStart : Bool} {cs rest : List Char}

/-- What belongs to a match is passed over. -/
theorem eraseFrom_drop (p : Pattern) (n : Nat) (cs : List Char) :
    p.eraseFrom false n cs = p.eraseFrom false 0 (cs.drop n) := by
  induction cs generalizing n with
  | nil => simp [eraseFrom]
  | cons c cs ih =>
    cases n with
    | zero => rfl
    | succ n =>
      rw [List.drop_succ_cons, ← ih n]
      rfl

/-- Without a match the first character stays. -/
theorem eraseFrom_of_none {c : Char} (h : p.ends atStart (c :: cs) = []) :
    p.eraseFrom atStart 0 (c :: cs) = c :: p.eraseFrom false 0 cs := by
  simp [eraseFrom, taken, h]

/-- A match that is not empty goes. -/
theorem eraseFrom_of_match {c : Char} {flag : Bool}
    (h : (p.ends atStart (c :: cs)).head? = some (flag, rest)) (hsuffix : rest <:+ cs) :
    p.eraseFrom atStart 0 (c :: cs) = p.eraseFrom false 0 rest := by
  obtain ⟨others, hends⟩ := List.head?_eq_some_iff.mp h
  obtain ⟨front, rfl⟩ := hsuffix
  have htaken : p.taken atStart (c :: (front ++ rest)) = front.length + 1 := by
    simp only [taken, hends, List.length_cons, List.length_append]
    omega
  simp only [eraseFrom, htaken]
  rw [eraseFrom_drop, List.drop_left]

/-- One or more characters up to the end of the text: all of it, and only in one way. -/
theorem ends_many_finish (isIn : Char → Bool) (atStart : Bool) (cs : List Char) :
    (Pattern.seq (.many isIn) .finish).ends atStart cs
      = if !cs.isEmpty && cs.all isIn then [(false, [])] else [] := by
  have hruns : (runs isIn cs).flatMap (Pattern.finish.ends false)
      = if !cs.isEmpty && cs.all isIn then [(false, [])] else [] := by
    induction cs with
    | nil => rfl
    | cons c cs ih =>
      by_cases hc : isIn c = true
      · rw [runs, if_pos hc, List.flatMap_append, ih]
        cases cs <;> simp [ends, hc]
      · simp [runs, hc]
  simpa [ends, List.flatMap_map] using hruns

/-- Characters of a class, as many as there are, and one that is not of the class. -/
theorem ends_many_one {isIn isLast : Char → Bool} (hne : ∀ c, isLast c = true → isIn c = false)
    (atStart : Bool) (cs : List Char) :
    (Pattern.seq (.many isIn) (.one isLast)).ends atStart cs
      = match cs.takeWhile isIn, cs.dropWhile isIn with
        | _ :: _, c :: rest => if isLast c then [(false, rest)] else []
        | _, _ => [] := by
  have hruns : (runs isIn cs).flatMap ((Pattern.one isLast).ends false)
      = match cs.takeWhile isIn, cs.dropWhile isIn with
        | _ :: _, c :: rest => if isLast c then [(false, rest)] else []
        | _, _ => [] := by
    induction cs with
    | nil => rfl
    | cons c cs ih =>
      by_cases hc : isIn c = true
      · rw [runs, if_pos hc, List.flatMap_append, ih, List.takeWhile_cons_of_pos hc,
          List.dropWhile_cons_of_pos hc]
        cases cs with
        | nil => simp [ends]
        | cons d cs =>
          -- the run can only end where it cannot go on, since no last character is one of the run
          by_cases hd : isIn d = true
          · have hlast : isLast d = false := by
              by_contra h
              exact absurd hd (by simp [hne d (by simpa using h)])
            simp only [List.takeWhile_cons_of_pos hd, List.dropWhile_cons_of_pos hd, ends, hlast,
              Bool.false_eq_true, if_false, List.flatMap_singleton, List.append_nil]
            cases cs.dropWhile isIn <;> rfl
          · simp [hd, ends]
      · simp [runs, hc]
  simpa [ends, List.flatMap_map] using hruns

/-! ### A repetition that gives characters back -/

/-- Of the characters of a class that a text begins with, the number up to the last one that may
    end a match. -/
def reach (isIn isLast : Char → Bool) (cs : List Char) : Nat :=
  ((cs.takeWhile isIn).reverse.dropWhile (! isLast ·)).length

theorem reach_cons_of_pos {c : Char} (isLast : Char → Bool) (hc : isIn c = true)
    (cs : List Char) :
    reach isIn isLast (c :: cs)
      = if reach isIn isLast cs = 0 then (if isLast c then 1 else 0)
        else reach isIn isLast cs + 1 := by
  simp only [reach, List.takeWhile_cons_of_pos hc, List.reverse_cons, List.dropWhile_append]
  by_cases h : (cs.takeWhile isIn).reverse.dropWhile (! isLast ·) = []
  · cases hlast : isLast c <;> simp [h, hlast]
  · simp [h]

theorem reach_cons_of_neg {c : Char} (isLast : Char → Bool) (hc : isIn c = false)
    (cs : List Char) : reach isIn isLast (c :: cs) = 0 := by
  simp [reach, hc]

/-- A text with no more than one such character in reach begins with it or has none. -/
theorem head?_ends_one {isIn isLast : Char → Bool} (hsub : ∀ c, isLast c = true → isIn c = true)
    (h : reach isIn isLast cs < 2) :
    ((Pattern.one isLast).ends atStart cs).head?
      = if reach isIn isLast cs = 1 then some (false, cs.drop 1) else none := by
  cases cs with
  | nil => rfl
  | cons c cs =>
    by_cases hc : isIn c = true
    · rw [reach_cons_of_pos isLast hc] at h ⊢
      by_cases hnone : reach isIn isLast cs = 0
      · cases hlast : isLast c <;> simp [ends, hnone, hlast]
      · rw [if_neg hnone] at h
        omega
    · have hlast : isLast c = false := by
        by_contra hlast
        exact hc (hsub c (by simpa using hlast))
      simp [ends, hlast, reach_cons_of_neg isLast (by simpa using hc)]

/-- A character that may end a match, behind as many characters of a class as can be: the match
    found first reaches as far as one can. -/
theorem head?_ends_many_one {isIn isLast : Char → Bool}
    (hsub : ∀ c, isLast c = true → isIn c = true) (atStart : Bool) (cs : List Char) :
    ((Pattern.seq (.many isIn) (.one isLast)).ends atStart cs).head?
      = if 2 ≤ reach isIn isLast cs then some (false, cs.drop (reach isIn isLast cs))
        else none := by
  have hruns : ((runs isIn cs).flatMap ((Pattern.one isLast).ends false)).head?
      = if 2 ≤ reach isIn isLast cs then some (false, cs.drop (reach isIn isLast cs))
        else none := by
    induction cs with
    | nil => rfl
    | cons c cs ih =>
      by_cases hc : isIn c = true
      · rw [runs, if_pos hc, List.flatMap_append, List.head?_append, ih, List.flatMap_singleton,
          reach_cons_of_pos isLast hc]
        by_cases hmore : 2 ≤ reach isIn isLast cs
        · have hne : reach isIn isLast cs ≠ 0 := by omega
          have hmore' : 2 ≤ reach isIn isLast cs + 1 := by omega
          simp only [if_pos hmore, if_neg hne, if_pos hmore', Option.some_or, List.drop_succ_cons]
        · rw [if_neg hmore, Option.none_or, head?_ends_one hsub (by omega)]
          -- one character in reach is no match yet, the one in front of it makes it one
          by_cases hone : reach isIn isLast cs = 1
          · simp [hone]
          · have hnone : reach isIn isLast cs = 0 := by omega
            cases isLast c <;> simp [hnone]
      · simp [runs, hc, reach_cons_of_neg isLast (by simpa using hc)]
  simpa [ends, List.flatMap_map] using hruns

end Pattern

/-! ## The pattern of an interval's template -/

namespace Interval

open Pattern (eraseFrom reach)

/-- Zeros in front of a point, `^0+\.`. -/
def pointFront : Pattern := .seq .start (.seq (.many (· == '0')) (.one (· == '.')))

/-- A point and the zeros behind it, `\.0+$`. -/
def pointBack : Pattern := .seq (.one (· == '.')) (.seq (.many (· == '0')) .finish)

/-- Zeros and separators in front, `^[0\-.: ]+[\-: ]`. -/
def front : Pattern := .seq .start (.seq (.many isCuttable) (.one endsFront))

/-- A separator and the zeros and separators behind it, `[\-:. ][0\-.: ]+$`. -/
def back : Pattern := .seq (.one startsBack) (.seq (.many isCuttable) .finish)

/-- What is erased from the template of an interval:
    `(^0+\.)|(\.0+$)|(^[0\-.: ]+[\-: ])|([\-:. ][0\-.: ]+$)`. -/
def trimPattern : Pattern := .or pointFront (.or pointBack (.or front back))

variable {c : Char} {cs : List Char}

theorem ends_pointBack (atStart : Bool) (c : Char) (cs : List Char) :
    pointBack.ends atStart (c :: cs)
      = if c == '.' && !cs.isEmpty && cs.all (· == '0') then [(false, [])] else [] := by
  have h : pointBack.ends atStart (c :: cs)
      = if c == '.' then (Pattern.seq (.many (· == '0')) .finish).ends false cs else [] := by
    cases hc : c == '.' <;> simp [pointBack, Pattern.ends, hc]
  rw [h, Pattern.ends_many_finish]
  cases c == '.' <;> rfl

theorem ends_back (atStart : Bool) (c : Char) (cs : List Char) :
    back.ends atStart (c :: cs)
      = if startsBack c && !cs.isEmpty && cs.all isCuttable then [(false, [])] else [] := by
  have h : back.ends atStart (c :: cs)
      = if startsBack c then (Pattern.seq (.many isCuttable) .finish).ends false cs else [] := by
    cases hc : startsBack c <;> simp [back, Pattern.ends, hc]
  rw [h, Pattern.ends_many_finish]
  cases startsBack c <;> rfl

theorem isCuttable_of_endsFront (c : Char) (h : endsFront c = true) : isCuttable c = true := by
  simp only [endsFront, isCuttable, Bool.or_eq_true] at h ⊢
  rcases h with (h | h) | h <;> simp [h]

theorem head?_front (cs : List Char) :
    (front.ends true cs).head?
      = if 2 ≤ reach isCuttable endsFront cs then
          some (false, cs.drop (reach isCuttable endsFront cs))
        else none := by
  rw [← Pattern.head?_ends_many_one isCuttable_of_endsFront true]
  simp [front, Pattern.ends]

theorem ends_pointFront (cs : List Char) :
    pointFront.ends true cs
      = match cs.takeWhile (· == '0'), cs.dropWhile (· == '0') with
        | _ :: _, c :: rest => if c == '.' then [(false, rest)] else []
        | _, _ => [] := by
  have hpoint : ∀ c, (c == '.') = true → (c == '0') = false := by
    intro c hc
    rw [eq_of_beq hc]
    rfl
  rw [← Pattern.ends_many_one hpoint true]
  simp [pointFront, Pattern.ends]

/-- What the first alternative matches is cut off in front, and else what the third one does. -/
theorem cutFront_eq (cs : List Char) :
    cutFront cs
      = (((pointFront.ends true cs ++ front.ends true cs).head?).map Prod.snd).getD cs := by
  rw [List.head?_append, head?_front, ends_pointFront, cutFront]
  -- either a point closes the zeros in front, or the longest run of zeros and ends counts
  split
  case h_1 hzeros hbehind =>
    rw [hzeros, hbehind]
    rfl
  case h_2 hno =>
    have hnone : (match cs.takeWhile (· == '0'), cs.dropWhile (· == '0') with
        | _ :: _, c :: rest => if c == '.' then [(false, rest)] else []
        | _, _ => []) = [] := by
      split
      case h_1 zeros behind z zs c rest hzeros hbehind =>
        have hc : ¬ (c == '.') = true := by
          intro hc
          obtain rfl := eq_of_beq hc
          exact hno _ _ _ hzeros hbehind
        rw [if_neg hc]
      case h_2 => rfl
    rw [hnone, List.head?_nil, Option.none_or]
    show (if 2 ≤ reach isCuttable endsFront cs then cs.drop (reach isCuttable endsFront cs) else cs)
      = _
    by_cases hreach : 2 ≤ reach isCuttable endsFront cs
    · rw [if_pos hreach, if_pos hreach]
      rfl
    · rw [if_neg hreach, if_neg hreach]
      rfl

/-- What the first alternative leaves, it leaves of what is behind the first character. -/
theorem suffix_of_pointFront {found : Bool × List Char} {others : List (Bool × List Char)}
    (h : pointFront.ends true (c :: cs) = found :: others) : found.2 <:+ cs := by
  rw [ends_pointFront] at h
  split at h
  case h_1 zeros behind z zs d rest hzeros hbehind =>
    have hsuffix : d :: rest <:+ c :: cs := hbehind ▸ List.dropWhile_suffix _
    split at h
    case isTrue =>
      obtain ⟨rfl, -⟩ := List.cons.inj h
      rcases List.suffix_cons_iff.mp hsuffix with heq | htail
      · exact (List.cons.inj heq).2 ▸ List.suffix_rfl
      · exact (List.suffix_cons d rest).trans htail
    case isFalse => exact nomatch h
  case h_2 => exact nomatch h

/-- A point with nothing but zeros behind it is a separator with nothing but zeros and separators
    behind it, and no separator in front is. -/
theorem back_of_pointBack
    (h : (c == '.' && !cs.isEmpty && cs.all (· == '0')) = true) :
    (startsBack c && !cs.isEmpty && cs.all isCuttable) = true
      ∧ reach isCuttable endsFront (c :: cs) = 0 := by
  simp only [Bool.and_eq_true, beq_iff_eq, List.all_eq_true] at h ⊢
  obtain ⟨⟨rfl, hne⟩, hzeros⟩ := h
  refine ⟨⟨⟨rfl, hne⟩, fun d hd => ?_⟩, ?_⟩
  · rw [hzeros d hd]
    rfl
  · have hnone : ∀ d ∈ (('.' :: cs).takeWhile isCuttable).reverse, (! endsFront d) = true := by
      intro d hd
      rcases List.mem_cons.mp (List.takeWhile_subset _ (List.mem_reverse.mp hd)) with rfl | hd
      · rfl
      · rw [hzeros d hd]
        rfl
    rw [reach, List.dropWhile_eq_nil_iff.mpr hnone]
    rfl

/-- Behind the beginning of a text, erasing cuts off the back. -/
theorem eraseFrom_false (cs : List Char) : trimPattern.eraseFrom false 0 cs = cutBack cs := by
  induction cs with
  | nil => rfl
  | cons c cs ih =>
    have hends : trimPattern.ends false (c :: cs)
        = pointBack.ends false (c :: cs) ++ back.ends false (c :: cs) := rfl
    rw [ends_pointBack, ends_back] at hends
    by_cases hback : (startsBack c && !cs.isEmpty && cs.all isCuttable) = true
    · have hhead : (trimPattern.ends false (c :: cs)).head? = some (false, []) := by
        rw [hends, if_pos hback]
        split <;> rfl
      rw [Pattern.eraseFrom_of_match hhead (List.nil_suffix), cutBack, if_pos hback]
      rfl
    · have hpoint : ¬ (c == '.' && !cs.isEmpty && cs.all (· == '0')) = true :=
        fun h => hback (back_of_pointBack h).1
      rw [if_neg hpoint, if_neg hback] at hends
      rw [Pattern.eraseFrom_of_none hends, ih, cutBack, if_neg hback]

/-- From the beginning of a text, erasing cuts off the front and then the back. -/
theorem eraseFrom_true (cs : List Char) :
    trimPattern.eraseFrom true 0 cs = cutBack (cutFront cs) := by
  cases cs with
  | nil => rfl
  | cons c cs =>
    have hends : trimPattern.ends true (c :: cs)
        = pointFront.ends true (c :: cs) ++ (pointBack.ends true (c :: cs)
          ++ (front.ends true (c :: cs) ++ back.ends true (c :: cs))) := rfl
    -- the alternatives are tried in order: both points first, then front and back
    rw [cutFront_eq]
    cases hpointFront : pointFront.ends true (c :: cs) with
    | cons found others =>
      have hhead : (trimPattern.ends true (c :: cs)).head? = some (found.1, found.2) := by
        rw [hends, hpointFront]
        rfl
      rw [Pattern.eraseFrom_of_match hhead (suffix_of_pointFront hpointFront), eraseFrom_false]
      rfl
    | nil =>
      rw [hpointFront, List.nil_append, ends_pointBack, ends_back] at hends
      rw [List.nil_append, head?_front]
      by_cases hpointBack : (c == '.' && !cs.isEmpty && cs.all (· == '0')) = true
      · obtain ⟨hback, hreach⟩ := back_of_pointBack hpointBack
        have hhead : (trimPattern.ends true (c :: cs)).head? = some (false, []) := by
          rw [hends, if_pos hpointBack]
          rfl
        rw [Pattern.eraseFrom_of_match hhead List.nil_suffix, hreach, if_neg (by omega)]
        show [] = cutBack (c :: cs)
        rw [cutBack, if_pos hback]
      · rw [if_neg hpointBack, List.nil_append] at hends
        have hhead := congrArg List.head? hends
        rw [List.head?_append, head?_front] at hhead
        by_cases hreach : 2 ≤ reach isCuttable endsFront (c :: cs)
        · rw [if_pos hreach, Option.some_or] at hhead
          have hsuffix : (c :: cs).drop (reach isCuttable endsFront (c :: cs)) <:+ cs := by
            obtain ⟨n, hn⟩ := Nat.exists_eq_add_of_le' hreach
            rw [hn, List.drop_succ_cons]
            exact List.drop_suffix _ _
          rw [if_pos hreach, Pattern.eraseFrom_of_match hhead hsuffix, eraseFrom_false]
          rfl
        · rw [if_neg hreach, Option.none_or] at hhead
          rw [if_neg hreach]
          show _ = cutBack (c :: cs)
          by_cases hback : (startsBack c && !cs.isEmpty && cs.all isCuttable) = true
          · rw [if_pos hback] at hhead
            rw [Pattern.eraseFrom_of_match hhead List.nil_suffix, cutBack, if_pos hback]
            rfl
          · rw [if_neg hback] at hhead
            rw [Pattern.eraseFrom_of_none (List.head?_eq_none_iff.mp hhead), eraseFrom_false,
              cutBack, if_neg hback]

/-- **Cutting is erasing.** What is left of any text when its zeros are cut off both ends is what
    is left when the matches of the regular expression are erased. -/
theorem cut_eq_erase (text : String) : cut text = trimPattern.erase text := by
  rw [cut, Pattern.erase, eraseFrom_true]

end Interval

end SqlCompose
