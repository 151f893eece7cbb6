/-! # Dates and times of day — and the two ways to write them

    A `Clock` may be inside a leap second: its fraction then starts at one whole second, on top of
    the second it follows. `Clock.of?` has it behind the fifty-ninth only; a shift by an offset may
    leave it behind any other.

    * `Date.text` — year, month and day. A year from 0 to 9999 has four digits, any other a sign and
      at least four.
    * `Clock.literalText` — the form inside SQL literals: six places, or none when the fraction is
      less than a microsecond.
    * `Clock.interchangeText` — the form for data exchange: no places, three, six or nine, as few as
      are exact, and the leap second written as second 60. -/

namespace SqlCompose

/-- A number in decimal, filled up with zeros on the left to at least `width` digits. -/
def padded (width n : Nat) : String :=
  let digits := Nat.toDigits 10 n
  String.ofList (List.replicate (width - digits.length) '0' ++ digits)

/-! ## Dates -/

/-- Whether a year has a twenty-ninth of February. -/
def isLeapYear (year : Int) : Bool :=
  year % 4 == 0 && (year % 100 != 0 || year % 400 == 0)

/-- The number of days in a month; none for a number that is no month. -/
def daysIn (year : Int) (month : Nat) : Nat :=
  match month with
  | 1 | 3 | 5 | 7 | 8 | 10 | 12 => 31
  | 4 | 6 | 9 | 11 => 30
  | 2 => if isLeapYear year then 29 else 28
  | _ => 0

/-- A day of the calendar. -/
structure Date where
  year  : Int
  month : Nat
  day   : Nat
  inMonth : 1 ≤ day ∧ day ≤ daysIn year month
  inReach : -262143 ≤ year ∧ year ≤ 262142
deriving DecidableEq

namespace Date

/-- The day with these numbers, if the calendar has it. -/
def of? (year : Int) (month day : Nat) : Option Date :=
  if h : (1 ≤ day ∧ day ≤ daysIn year month) ∧ (-262143 ≤ year ∧ year ≤ 262142) then
    some ⟨year, month, day, h.1, h.2⟩
  else none

/-- A year: four digits, with a sign when they do not suffice or when it is negative. -/
def yearText (year : Int) : String :=
  if 0 ≤ year ∧ year ≤ 9999 then padded 4 year.toNat
  else (if year < 0 then "-" else "+") ++ padded 4 year.natAbs

/-- Year, month and day between hyphens. -/
def text (d : Date) : String :=
  yearText d.year ++ "-" ++ padded 2 d.month ++ "-" ++ padded 2 d.day

end Date

/-! ## Times of day -/

/-- One second in nanoseconds. -/
def nanosPerSecond : Nat := 1000000000

/-- A time of day to the nanosecond. -/
structure Clock where
  hour   : Nat
  minute : Nat
  second : Nat
  nano   : Nat
  inDay  : hour < 24 ∧ minute < 60 ∧ second < 60
  inSecond : nano < 2 * nanosPerSecond
deriving DecidableEq

namespace Clock

/-- The time with these numbers, if a day has it; a leap second ends its minute. -/
def of? (hour minute second nano : Nat) : Option Clock :=
  if h : (hour < 24 ∧ minute < 60 ∧ second < 60) ∧
      (nano < 2 * nanosPerSecond ∧ (nanosPerSecond ≤ nano → second = 59)) then
    some ⟨hour, minute, second, nano, h.1, h.2.1⟩
  else none

/-- Hours, minutes and seconds between colons; second 60 is the leap second. -/
def wholeText (t : Clock) : String :=
  let second := if nanosPerSecond ≤ t.nano then t.second + 1 else t.second
  padded 2 t.hour ++ ":" ++ padded 2 t.minute ++ ":" ++ padded 2 second

/-- The form inside SQL literals. -/
def literalText (t : Clock) : String :=
  let micros := t.nano / 1000
  if micros = 0 then t.wholeText else t.wholeText ++ "." ++ padded 6 micros

/-- The form for data exchange. -/
def interchangeText (t : Clock) : String :=
  let nano := t.nano % nanosPerSecond
  let fraction :=
    if nano = 0 then ""
    else if nano % 1000000 = 0 then "." ++ padded 3 (nano / 1000000)
    else if nano % 1000 = 0 then "." ++ padded 6 (nano / 1000)
    else "." ++ padded 9 nano
  t.wholeText ++ fraction

end Clock

/-! ## Offsets from universal time -/

/-- Hours and minutes of an offset given in seconds, rounded to the nearest minute. -/
def offsetText (seconds : Int) : String :=
  let minutes := (seconds.natAbs + 30) / 60
  (if seconds < 0 then "-" else "+") ++ padded 2 (minutes / 60) ++ ":" ++ padded 2 (minutes % 60)

/-- As `offsetText`, with `Z` for no offset at all. -/
def zuluText (seconds : Int) : String :=
  if seconds = 0 then "Z" else offsetText seconds

end SqlCompose
