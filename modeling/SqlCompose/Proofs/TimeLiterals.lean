import SqlCompose.Draft
import SqlCompose.Proofs.Numerals

/-! # Time literals — times of day as they are written and as they are read

    A time is documented as `HH:MM:SS`, with `.ffffff` behind it where there is a fraction. A reader
    of that form knows where each number ends from the number of its digits. A time outside of leap
    seconds is written in the form and read back, cut to whole microseconds. In a leap second the
    whole second is counted twice, in the seconds and in the fraction, which has a seventh digit
    then.

    * `isNumeral_padded`, `number_padded` — a number that is filled up with zeros has its digits and
      its value.
    * `Clock.Shaped`, `Clock.read?` — the form and its reader; `Clock.shaped_of_read?`.
    * `Clock.documentedText`, `Clock.read?_documentedText` — the text that the form asks for is read
      as the time it stands for, in leap seconds as well.
    * `Clock.shaped_literalText_iff`, `Clock.read?_literalText_iff` — where the literal is that
      text.
    * `timePart` — the time between the date and the offset of a literal.
    * `Value.time_read_iff` — the theorem. -/

namespace SqlCompose

open Decimal

/-! ## Numbers in so many digits -/

/-- A text of so many characters that all are digits. -/
def IsNumeral (width : Nat) (cs : List Char) : Prop :=
  cs.length = width ∧ ∀ c ∈ cs, isDigit c = true

section

variable {width n : Nat}

theorem padded_toList (width n : Nat) :
    (padded width n).toList
      = List.replicate (width - (Nat.toDigits 10 n).length) '0' ++ Nat.toDigits 10 n :=
  String.toList_ofList

/-- Whatever its width, a number that is filled up with zeros consists of digits. -/
theorem isDigit_of_mem_padded {c : Char} (hc : c ∈ (padded width n).toList) :
    isDigit c = true := by
  rw [padded_toList, List.mem_append] at hc
  rcases hc with hzero | hdigit
  · rw [List.eq_of_mem_replicate hzero]
    decide
  · exact isDigit_of_mem_toDigits hdigit

/-- A number below the power of ten is filled up to exactly that many digits. -/
theorem isNumeral_padded (hwidth : 0 < width) (h : n < Nat.pow 10 width) :
    IsNumeral width (padded width n).toList := by
  have hfits : (Nat.toDigits 10 n).length ≤ width :=
    (Nat.length_toDigits_le_iff (by decide) hwidth).mpr h
  refine ⟨?_, fun c hc => isDigit_of_mem_padded hc⟩
  rw [padded_toList, List.length_append, List.length_replicate]
  omega

/-- The zeros in front do not change the number. -/
theorem number_padded (width n : Nat) : number (padded width n).toList = n := by
  have hzeros : ∀ k : Nat, number (List.replicate k '0' ++ Nat.toDigits 10 n) = n := by
    intro k
    induction k with
    | zero => exact number_toDigits n
    | succ k ih => exact ih
  rw [padded_toList, hzeros]

/-- The last digit of a number stands behind the others, filled up or not. -/
theorem padded_succ (hwidth : 0 < width) (n : Nat) :
    (padded (width + 1) n).toList = (padded width (n / 10)).toList ++ [(n % 10).digitChar] := by
  rw [padded_toList, padded_toList]
  by_cases hsmall : n < 10
  · have hzero : Nat.toDigits 10 0 = ['0'] := by decide
    have hone : width = width - 1 + 1 := by omega
    rw [Nat.div_eq_of_lt hsmall, Nat.mod_eq_of_lt hsmall, Nat.toDigits_of_lt_base hsmall, hzero]
    show List.replicate width '0' ++ _ = List.replicate (width - 1) '0' ++ ['0'] ++ _
    rw [← List.replicate_succ', ← hone]
  · rw [Nat.toDigits_of_base_le (by decide) (Nat.le_of_not_lt hsmall), List.length_append,
      List.length_singleton, Nat.add_sub_add_right, List.append_assoc]

/-- What is below a power of ten is written behind the rest, filled up to that many digits. -/
theorem toDigits_block {a : Nat} (ha : 0 < a) (hwidth : 0 < width) (h : n < Nat.pow 10 width) :
    Nat.toDigits 10 (Nat.pow 10 width * a + n) = Nat.toDigits 10 a ++ (padded width n).toList := by
  induction width generalizing n with
  | zero => exact absurd hwidth (Nat.lt_irrefl 0)
  | succ width ih =>
    have hpower : Nat.pow 10 (width + 1) = Nat.pow 10 width * 10 := rfl
    rw [hpower] at h ⊢
    have hbase : 10 ≤ Nat.pow 10 width * 10 * a + n := by
      have : 0 < Nat.pow 10 width * a := Nat.mul_pos (Nat.pow_pos (by decide)) ha
      rw [Nat.mul_right_comm]
      omega
    have hfront : (Nat.pow 10 width * 10 * a + n) / 10 = Nat.pow 10 width * a + n / 10 := by
      rw [Nat.mul_right_comm]
      omega
    have hlast : (Nat.pow 10 width * 10 * a + n) % 10 = n % 10 := by
      rw [Nat.mul_right_comm]
      omega
    rw [Nat.toDigits_of_base_le (by decide) hbase, hfront, hlast]
    -- the last digit is taken off, and the block that is left is empty or shorter
    rcases Nat.eq_zero_or_pos width with rfl | hpos
    · have hsmall : n < 10 := by simpa using h
      rw [Nat.div_eq_of_lt hsmall, Nat.mod_eq_of_lt hsmall, padded_toList,
        Nat.toDigits_of_lt_base hsmall]
      simp
    · rw [ih hpos (by omega), padded_succ hpos, List.append_assoc]

end

/-! ## The form of a time and its reader -/

namespace Clock

/-- The form of a time: hours, minutes and seconds in two digits each with colons between them, and
    behind a point, if there is one, six digits. -/
inductive Shaped : List Char → Prop
  | whole {h m s : List Char} : IsNumeral 2 h → IsNumeral 2 m → IsNumeral 2 s →
      Shaped (h ++ ':' :: (m ++ ':' :: s))
  | fraction {h m s f : List Char} : IsNumeral 2 h → IsNumeral 2 m → IsNumeral 2 s →
      IsNumeral 6 f → Shaped (h ++ ':' :: (m ++ ':' :: (s ++ '.' :: f)))

/-- A text in the form of a time has eight characters or fifteen. -/
theorem Shaped.length {cs : List Char} (h : Shaped cs) : cs.length = 8 ∨ cs.length = 15 := by
  cases h with
  | whole hh hm hs => simp [hh.1, hm.1, hs.1]
  | fraction hh hm hs hf => simp [hh.1, hm.1, hs.1, hf.1]

/-- Takes a number of so many digits off the front. -/
def digits? (width : Nat) (cs : List Char) : Option (Nat × List Char) :=
  if (cs.take width).length = width ∧ (cs.take width).all isDigit then
    some (number (cs.take width), cs.drop width)
  else none

/-- Takes a sign off the front. -/
def sign? (sign : Char) : List Char → Option (List Char)
  | [] => none
  | c :: rest => if c = sign then some rest else none

/-- The nanoseconds at the end of a time: nothing, or a point and six digits. -/
def fraction? : List Char → Option Nat
  | [] => some 0
  | c :: cs => do
    let (micros, rest) ← digits? 6 (← sign? '.' (c :: cs))
    if rest.isEmpty then some (1000 * micros) else none

/-- The time that a whole text stands for. Second 60 is the leap second, which goes on from the end
    of the fifty-ninth. -/
def read? (cs : List Char) : Option Clock := do
  let (hour, rest) ← digits? 2 cs
  let (minute, rest) ← digits? 2 (← sign? ':' rest)
  let (second, rest) ← digits? 2 (← sign? ':' rest)
  let nano ← fraction? rest
  if second = 60 then of? hour minute 59 (nanosPerSecond + nano) else of? hour minute second nano

section

variable {width n : Nat} {cs ds rest : List Char}

/-- A number of the expected width is read, and what is behind it is left. -/
theorem digits?_append (h : IsNumeral width ds) (rest : List Char) :
    digits? width (ds ++ rest) = some (number ds, rest) := by
  obtain ⟨rfl, hdigits⟩ := h
  rw [digits?, List.take_left, List.drop_left]
  exact if_pos ⟨rfl, List.all_eq_true.mpr hdigits⟩

/-- What is taken off the front as a number is one of that width. -/
theorem eq_of_digits? (h : digits? width cs = some (n, rest)) :
    ∃ ds, IsNumeral width ds ∧ cs = ds ++ rest := by
  rw [digits?] at h
  split at h
  next hnumeral =>
    obtain ⟨-, rfl⟩ := Prod.mk.inj (Option.some.inj h)
    exact ⟨cs.take width, ⟨hnumeral.1, List.all_eq_true.mp hnumeral.2⟩,
      (List.take_append_drop width cs).symm⟩
  next => exact nomatch h

theorem eq_of_sign? {sign : Char} (h : sign? sign cs = some rest) : cs = sign :: rest := by
  cases cs with
  | nil => exact nomatch h
  | cons c cs =>
    rw [sign?] at h
    split at h
    next hc => rw [hc, Option.some.inj h]
    next => exact nomatch h

theorem eq_of_fraction? (h : fraction? cs = some n) :
    cs = [] ∨ ∃ ds, IsNumeral 6 ds ∧ cs = '.' :: ds := by
  cases cs with
  | nil => exact .inl rfl
  | cons c cs =>
    obtain ⟨behind, hsign, hrest⟩ := Option.bind_eq_some_iff.mp h
    obtain ⟨⟨micros, rest⟩, hdigits, hend⟩ := Option.bind_eq_some_iff.mp hrest
    obtain ⟨ds, hds, rfl⟩ := eq_of_digits? hdigits
    cases rest with
    | nil => exact .inr ⟨ds, hds, by rw [eq_of_sign? hsign, List.append_nil]⟩
    | cons _ _ => exact absurd hend (by simp)

/-- Whatever is read as a time has the form of one. -/
theorem shaped_of_read? {t : Clock} (h : read? cs = some t) : Shaped cs := by
  obtain ⟨⟨hour, cs₁⟩, hhour, h⟩ := Option.bind_eq_some_iff.mp h
  obtain ⟨cs₂, hfirst, h⟩ := Option.bind_eq_some_iff.mp h
  obtain ⟨⟨minute, cs₃⟩, hminute, h⟩ := Option.bind_eq_some_iff.mp h
  obtain ⟨cs₄, hsecondSign, h⟩ := Option.bind_eq_some_iff.mp h
  obtain ⟨⟨second, cs₅⟩, hsecond, h⟩ := Option.bind_eq_some_iff.mp h
  obtain ⟨nano, hnano, -⟩ := Option.bind_eq_some_iff.mp h
  obtain ⟨hs, hhs, rfl⟩ := eq_of_digits? hhour
  obtain rfl := eq_of_sign? hfirst
  obtain ⟨ms, hms, rfl⟩ := eq_of_digits? hminute
  obtain rfl := eq_of_sign? hsecondSign
  obtain ⟨ss, hss, rfl⟩ := eq_of_digits? hsecond
  rcases eq_of_fraction? hnano with rfl | ⟨fs, hfs, rfl⟩
  · rw [List.append_nil]
    exact .whole hhs hms hss
  · exact .fraction hhs hms hss hfs

end

/-! ## The text that the form asks for -/

/-- The time cut to whole microseconds. -/
def toMicros (t : Clock) : Clock :=
  { t with
    nano := 1000 * (t.nano / 1000)
    inSecond := Nat.lt_of_le_of_lt (Nat.mul_div_le t.nano 1000) t.inSecond }

/-- The second that is shown: in a leap second one more than the second it follows. -/
def shownSecond (t : Clock) : Nat :=
  if nanosPerSecond ≤ t.nano then t.second + 1 else t.second

/-- A fraction in the form of a time: six digits behind a point, or nothing. -/
def fractionText (micros : Nat) : String :=
  if micros = 0 then "" else "." ++ padded 6 micros

/-- What the form asks for: the whole seconds of a leap second are not part of the fraction. -/
def documentedText (t : Clock) : String :=
  t.wholeText ++ fractionText (t.nano % nanosPerSecond / 1000)

theorem wholeText_toList (t : Clock) :
    t.wholeText.toList = (padded 2 t.hour).toList ++ ':' ::
      ((padded 2 t.minute).toList ++ ':' :: (padded 2 t.shownSecond).toList) := by
  simp [wholeText, shownSecond]

/-- A fraction that is not zero is a point and six digits. -/
theorem fractionText_toList {micros : Nat} (h : micros ≠ 0) :
    (fractionText micros).toList = '.' :: (padded 6 micros).toList := by
  rw [fractionText, if_neg h, String.toList_append]
  rfl

/-- A fraction of less than a second is read back. -/
theorem fraction?_fractionText {micros : Nat} (h : micros < 1000000) :
    fraction? (fractionText micros).toList = some (1000 * micros) := by
  by_cases hzero : micros = 0
  · subst hzero
    rfl
  · have hread : digits? 6 ((padded 6 micros).toList ++ []) = some (micros, []) := by
      rw [digits?_append (isNumeral_padded (by decide) h), number_padded]
    rw [List.append_nil] at hread
    simp [fractionText_toList hzero, fraction?, sign?, hread]

section

variable (t : Clock)

theorem isNumeral_hour : IsNumeral 2 (padded 2 t.hour).toList :=
  isNumeral_padded (by decide) (Nat.lt_trans t.inDay.1 (by decide))

theorem isNumeral_minute : IsNumeral 2 (padded 2 t.minute).toList :=
  isNumeral_padded (by decide) (Nat.lt_trans t.inDay.2.1 (by decide))

theorem shownSecond_le : t.shownSecond ≤ 60 := by
  have hsecond := t.inDay.2.2
  rw [shownSecond]
  split <;> omega

theorem isNumeral_shownSecond : IsNumeral 2 (padded 2 t.shownSecond).toList :=
  isNumeral_padded (by decide) (Nat.lt_of_le_of_lt t.shownSecond_le (by decide))

/-- The microseconds of the second that is shown have six digits at most. -/
theorem micros_lt : t.nano % nanosPerSecond / 1000 < 1000000 := by
  have hrest : t.nano % nanosPerSecond < nanosPerSecond := Nat.mod_lt _ (by decide)
  have hsecond : nanosPerSecond = 1000000000 := rfl
  omega

/-- The whole seconds are read back, and what is behind them is read as a fraction. -/
theorem read?_wholeText_append (rest : List Char) :
    read? (t.wholeText.toList ++ rest) = (do
      let nano ← fraction? rest
      if t.shownSecond = 60 then of? t.hour t.minute 59 (nanosPerSecond + nano)
      else of? t.hour t.minute t.shownSecond nano) := by
  rw [wholeText_toList, read?]
  simp [digits?_append t.isNumeral_hour, digits?_append t.isNumeral_minute,
    digits?_append t.isNumeral_shownSecond, sign?, number_padded]

/-- What the form asks for has the form. -/
theorem shaped_documentedText : Shaped t.documentedText.toList := by
  rw [documentedText, String.toList_append, wholeText_toList]
  by_cases hzero : t.nano % nanosPerSecond / 1000 = 0
  · have hnone : (fractionText 0).toList = [] := rfl
    rw [hzero, hnone, List.append_nil]
    exact .whole t.isNumeral_hour t.isNumeral_minute t.isNumeral_shownSecond
  · rw [fractionText_toList hzero]
    simp only [List.append_assoc, List.cons_append]
    exact .fraction t.isNumeral_hour t.isNumeral_minute t.isNumeral_shownSecond
      (isNumeral_padded (by decide) t.micros_lt)

end

/-- What the form asks for is read as the time it stands for, to the microsecond. A leap second is
    known as one where it ends its minute. -/
theorem read?_documentedText {t : Clock} (h : nanosPerSecond ≤ t.nano → t.second = 59) :
    read? t.documentedText.toList = some t.toMicros := by
  have hsecond : nanosPerSecond = 1000000000 := rfl
  have hnano := t.inSecond
  obtain ⟨hhour, hminute, hlast⟩ := t.inDay
  rw [documentedText, String.toList_append, read?_wholeText_append,
    fraction?_fractionText t.micros_lt]
  by_cases hleap : nanosPerSecond ≤ t.nano
  · have hrest : t.nano % nanosPerSecond = t.nano - nanosPerSecond := by
      rw [Nat.mod_eq_sub_mod hleap, Nat.mod_eq_of_lt (by omega)]
    have hcut : nanosPerSecond + 1000 * (t.nano % nanosPerSecond / 1000)
        = 1000 * (t.nano / 1000) := by omega
    simp only [Option.bind_eq_bind, Option.bind_some, shownSecond, if_pos hleap, h hleap, hcut,
      if_true]
    rw [of?, dif_pos ⟨⟨hhour, hminute, by decide⟩, by omega, fun _ => rfl⟩]
    simp [toMicros, h hleap]
  · have hrest : t.nano % nanosPerSecond = t.nano := Nat.mod_eq_of_lt (by omega)
    simp only [Option.bind_eq_bind, Option.bind_some, shownSecond, if_neg hleap, hrest]
    rw [if_neg (by omega), of?, dif_pos ⟨⟨hhour, hminute, hlast⟩, by omega, by omega⟩]
    rfl

/-! ## The text of the literal -/

section

variable {t : Clock}

/-- Outside of leap seconds the literal is what the form asks for. -/
theorem literalText_of_lt (h : t.nano < nanosPerSecond) : t.literalText = t.documentedText := by
  rw [literalText, documentedText, fractionText, Nat.mod_eq_of_lt h]
  by_cases hzero : t.nano / 1000 = 0
  · simp [hzero]
  · simp [hzero, String.append_assoc]

/-- In a leap second the fraction has a one in front of its six digits. -/
theorem literalText_of_le (h : nanosPerSecond ≤ t.nano) :
    t.literalText = t.wholeText ++ ".1" ++ padded 6 (t.nano % nanosPerSecond / 1000) := by
  have hsecond : nanosPerSecond = 1000000000 := rfl
  have hnano := t.inSecond
  have hrest : t.nano % nanosPerSecond = t.nano - nanosPerSecond := by
    rw [Nat.mod_eq_sub_mod h, Nat.mod_eq_of_lt (by omega)]
  have hmicros : t.nano / 1000 = 1000000 * 1 + t.nano % nanosPerSecond / 1000 := by omega
  have hsix : IsNumeral 6 (padded 6 (t.nano % nanosPerSecond / 1000)).toList :=
    isNumeral_padded (by decide) t.micros_lt
  have hdigits : Nat.toDigits 10 (t.nano / 1000)
      = '1' :: (padded 6 (t.nano % nanosPerSecond / 1000)).toList := by
    rw [hmicros]
    exact toDigits_block Nat.one_pos (Nat.succ_pos 5) t.micros_lt
  have hseven : padded 6 (t.nano / 1000) = "1" ++ padded 6 (t.nano % nanosPerSecond / 1000) := by
    apply String.toList_inj.mp
    rw [padded_toList, hdigits, List.length_cons, hsix.1, String.toList_append]
    rfl
  have hone : ".1" = "." ++ "1" := rfl
  rw [literalText, if_neg (by omega), hseven, hone]
  simp only [String.append_assoc]

/-- A literal has the form of a time exactly outside of leap seconds. -/
theorem shaped_literalText_iff : Shaped t.literalText.toList ↔ t.nano < nanosPerSecond := by
  constructor
  · intro hshaped
    rcases Nat.lt_or_ge t.nano nanosPerSecond with hlt | hle
    · exact hlt
    exfalso
    have hlength : t.literalText.toList.length = 16 := by
      rw [literalText_of_le hle, String.toList_append, String.toList_append, wholeText_toList]
      simp [t.isNumeral_hour.1, t.isNumeral_minute.1, t.isNumeral_shownSecond.1,
        (isNumeral_padded (by decide) t.micros_lt : IsNumeral 6 _).1]
    rcases hshaped.length with h | h <;> omega
  · intro h
    rw [literalText_of_lt h]
    exact t.shaped_documentedText

/-- A literal is read back to the microsecond exactly outside of leap seconds. -/
theorem read?_literalText_iff :
    read? t.literalText.toList = some t.toMicros ↔ t.nano < nanosPerSecond := by
  constructor
  · intro hread
    exact shaped_literalText_iff.mp (shaped_of_read? hread)
  · intro h
    rw [literalText_of_lt h]
    exact read?_documentedText fun hleap => absurd h (Nat.not_lt.mpr hleap)

/-- No time is read from the literal of a leap second. -/
theorem read?_literalText_of_le (h : nanosPerSecond ≤ t.nano) :
    read? t.literalText.toList = none := by
  rw [Option.eq_none_iff_forall_not_mem]
  intro u hread
  exact Nat.not_lt.mpr h (shaped_literalText_iff.mp (shaped_of_read? hread))

end

/-- A time is written with digits, colons and a point. -/
theorem digit_or_sign_of_mem {t : Clock} {c : Char} (hc : c ∈ t.literalText.toList) :
    isDigit c = true ∨ c = ':' ∨ c = '.' := by
  have hwhole : c ∈ t.wholeText.toList → isDigit c = true ∨ c = ':' ∨ c = '.' := by
    intro hc
    rw [wholeText_toList] at hc
    simp only [List.mem_append, List.mem_cons] at hc
    rcases hc with hhour | rfl | hminute | rfl | hsecond
    · exact .inl (isDigit_of_mem_padded hhour)
    · exact .inr (.inl rfl)
    · exact .inl (isDigit_of_mem_padded hminute)
    · exact .inr (.inl rfl)
    · exact .inl (isDigit_of_mem_padded hsecond)
  by_cases hzero : t.nano / 1000 = 0
  · rw [literalText, if_pos hzero] at hc
    exact hwhole hc
  · rw [literalText, if_neg hzero, String.toList_append, String.toList_append] at hc
    simp only [List.mem_append] at hc
    rcases hc with (hc | hpoint) | hdigit
    · exact hwhole hc
    · exact .inr (.inr (List.mem_singleton.mp hpoint))
    · exact .inl (isDigit_of_mem_padded hdigit)

end Clock

/-! ## The time in a literal -/

/-- The time in the body of a literal: what stands behind the `T`, if there is one, up to the sign
    of an offset. -/
def timePart (body : String) : List Char :=
  let behind :=
    if 'T' ∈ body.toList then (body.toList.dropWhile (· != 'T')).tail else body.toList
  behind.takeWhile fun c => c != '+' && c != '-'

/-- A day is written with digits and signs. -/
theorem Date.digit_or_sign_of_mem {d : Date} {c : Char} (hc : c ∈ d.text.toList) :
    isDigit c = true ∨ c = '-' ∨ c = '+' := by
  have hyear : c ∈ (Date.yearText d.year).toList → isDigit c = true ∨ c = '-' ∨ c = '+' := by
    intro hc
    rw [Date.yearText] at hc
    split at hc
    · exact .inl (isDigit_of_mem_padded hc)
    · rw [String.toList_append, List.mem_append] at hc
      rcases hc with hsign | hdigit
      · split at hsign
        · exact .inr (.inl (List.mem_singleton.mp hsign))
        · exact .inr (.inr (List.mem_singleton.mp hsign))
      · exact .inl (isDigit_of_mem_padded hdigit)
  simp only [Date.text, String.toList_append, List.mem_append] at hc
  rcases hc with (((hc | hyphen) | hmonth) | hyphen) | hday
  · exact hyear hc
  · exact .inr (.inl (List.mem_singleton.mp hyphen))
  · exact .inl (isDigit_of_mem_padded hmonth)
  · exact .inr (.inl (List.mem_singleton.mp hyphen))
  · exact .inl (isDigit_of_mem_padded hday)

/-- An offset starts with its sign. -/
theorem offsetText_eq_cons (seconds : Int) :
    ∃ c cs, (offsetText seconds).toList = c :: cs ∧ (c = '+' ∨ c = '-') := by
  simp only [offsetText, String.toList_append]
  split
  · exact ⟨'-', _, rfl, .inr rfl⟩
  · exact ⟨'+', _, rfl, .inl rfl⟩

section

variable (d : Date) (t : Clock)

/-- A time ends in front of the sign of an offset. -/
theorem takeWhile_literalText (tail : List Char)
    (htail : ∀ c ∈ tail.head?, c = '+' ∨ c = '-') :
    (t.literalText.toList ++ tail).takeWhile (fun c => c != '+' && c != '-')
      = t.literalText.toList := by
  rw [List.takeWhile_append_of_pos]
  · cases tail with
    | nil => exact List.append_nil _
    | cons c tail =>
      rcases htail c rfl with rfl | rfl
      · exact List.append_nil _
      · exact List.append_nil _
  · intro c hc
    rcases t.digit_or_sign_of_mem hc with hdigit | rfl | rfl
    · have hplus : c ≠ '+' := fun h => absurd (h ▸ hdigit) (by decide)
      have hminus : c ≠ '-' := fun h => absurd (h ▸ hdigit) (by decide)
      simp [hplus, hminus]
    · decide
    · decide

theorem timePart_time : timePart t.literalText = t.literalText.toList := by
  have hnone : 'T' ∉ t.literalText.toList := by
    intro h
    rcases t.digit_or_sign_of_mem h with h | h | h <;> exact absurd h (by decide)
  have hwhole := takeWhile_literalText t [] nofun
  rw [List.append_nil] at hwhole
  rw [timePart, if_neg hnone]
  exact hwhole

theorem timePart_dateTime (tail : String) (htail : ∀ c ∈ tail.toList.head?, c = '+' ∨ c = '-') :
    timePart (d.text ++ "T" ++ t.literalText ++ tail) = t.literalText.toList := by
  have hbody : (d.text ++ "T" ++ t.literalText ++ tail).toList
      = d.text.toList ++ 'T' :: (t.literalText.toList ++ tail.toList) := by
    simp
  have hdate : ∀ c ∈ d.text.toList, (c != 'T') = true := by
    intro c hc
    rcases d.digit_or_sign_of_mem hc with hdigit | rfl | rfl
    · have : c ≠ 'T' := fun h => absurd (h ▸ hdigit) (by decide)
      simp [this]
    · decide
    · decide
  have hbehind : ((d.text.toList ++ 'T' :: (t.literalText.toList ++ tail.toList)).dropWhile
      (· != 'T')).tail = t.literalText.toList ++ tail.toList := by
    rw [List.dropWhile_append_of_pos hdate]
    rfl
  rw [timePart, hbody, if_pos (by simp), hbehind]
  exact takeWhile_literalText t _ htail

end

namespace Value

/-- The time of day in a constant. -/
def clock? : Value → Option Clock
  | .time t => some t
  | .dateTime _ t => some t
  | .dateTimeTz _ t _ => some t
  | _ => none

/-- The time is the same part of the literal with a day in front of it and an offset behind. -/
theorem timePart_of_clock? {v : Value} {t : Clock} (h : v.clock? = some t) :
    ∃ body, v.literal = .token (.string body) ∧ timePart body = t.literalText.toList := by
  cases v with
  | time u =>
    obtain rfl := Option.some.inj h
    exact ⟨_, rfl, timePart_time u⟩
  | dateTime d u =>
    obtain rfl := Option.some.inj h
    have hnone := timePart_dateTime d u "" nofun
    rw [String.append_empty] at hnone
    exact ⟨_, rfl, hnone⟩
  | dateTimeTz d u offset =>
    obtain rfl := Option.some.inj h
    obtain ⟨c, cs, hoffset, hc⟩ := offsetText_eq_cons offset
    refine ⟨_, rfl, timePart_dateTime d u _ ?_⟩
    rintro _ hhead
    rw [hoffset] at hhead
    obtain rfl := Option.some.inj hhead
    exact hc
  | _ => exact nomatch h

/-- **A time is written in its form, and read back to the microsecond, exactly outside of leap
    seconds**, alone as well as behind a day and in front of an offset. In a leap second there is a
    one in front of the six digits of the fraction, and no time is read. -/
theorem time_read_iff {v : Value} {t : Clock} (h : v.clock? = some t) :
    ∃ body, v.literal = .token (.string body)
      ∧ (Clock.Shaped (timePart body) ↔ t.nano < nanosPerSecond)
      ∧ (Clock.read? (timePart body) = some t.toMicros ↔ t.nano < nanosPerSecond)
      ∧ (nanosPerSecond ≤ t.nano →
        timePart body
            = (t.wholeText ++ ".1" ++ padded 6 (t.nano % nanosPerSecond / 1000)).toList
          ∧ Clock.read? (timePart body) = none) := by
  obtain ⟨body, hliteral, hpart⟩ := timePart_of_clock? h
  refine ⟨body, hliteral, ?_, ?_, ?_⟩
  · rw [hpart]
    exact Clock.shaped_literalText_iff
  · rw [hpart]
    exact Clock.read?_literalText_iff
  · intro hleap
    rw [hpart]
    exact ⟨congrArg String.toList (Clock.literalText_of_le hleap),
      Clock.read?_literalText_of_le hleap⟩

/-- A time ahead of universal time is read without what it has below the microsecond. -/
theorem time_read_offset :
    Clock.read? (timePart "2016-12-31T23:59:59.123456+01:00")
      = some ⟨23, 59, 59, 123456000, by decide, by decide⟩ := by
  obtain ⟨body, hliteral, -, hread, -⟩ :=
    time_read_iff (v := .dateTimeTz ⟨2016, 12, 31, by decide, by decide⟩
      ⟨23, 59, 59, 123456789, by decide, by decide⟩ 3600) rfl
  have hsame := Piece.token.inj (List.cons.inj (congrArg Draft.pieces hliteral)).1
  have hbody : "2016-12-31T23:59:59.123456+01:00" = body :=
    Eq.trans (by decide +kernel) (Token.string.inj hsame)
  rw [hbody]
  exact hread.mpr (by decide)

/-- The time of a leap second is written so that nothing reads it; with the whole second counted
    once it would be read. -/
theorem leap_second_misread :
    ∃ t, Clock.of? 23 59 59 1500000000 = some t
      ∧ (time t).literal = .token (.string "23:59:60.1500000")
      ∧ ¬ Clock.Shaped (timePart "23:59:60.1500000")
      ∧ Clock.read? (timePart "23:59:60.1500000") = none
      ∧ Clock.read? (timePart "23:59:60.500000") = some t.toMicros := by
  refine ⟨⟨23, 59, 59, 1500000000, by decide, by decide⟩, by decide, ?_, ?_, ?_, ?_⟩
  · exact congrArg (Draft.token ∘ Token.string) (by decide +kernel)
  · intro hshaped
    exact absurd hshaped.length (by decide +kernel)
  · decide +kernel
  · decide +kernel

end Value

end SqlCompose
