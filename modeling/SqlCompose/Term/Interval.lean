/-! # Intervals — a span of time as an amount and a unit

    An interval of quarters, or else of weeks, is written by itself. Any other is written as the
    amounts of seven units in the template `Y-M-D h:m:s.f`, of which the zeros at both ends are cut
    off; its unit names the first and the last unit that is left, and its sign is that of the
    first. -/

namespace SqlCompose

/-- A span of time, given by the amount of each unit. -/
structure Interval where
  years        : Int64 := 0
  months       : Int64 := 0
  days         : Int64 := 0
  hours        : Int64 := 0
  minutes      : Int64 := 0
  seconds      : Int64 := 0
  microseconds : Int64 := 0
  quarters     : Int64 := 0
  weeks        : Int64 := 0
deriving DecidableEq

namespace Interval

/-! ## Cutting zeros off the template -/

/-- A character that may be cut off: a zero or a separator. -/
def isCuttable (c : Char) : Bool :=
  c == '0' || c == '-' || c == '.' || c == ':' || c == ' '

/-- A separator that ends what is cut off in front. -/
def endsFront (c : Char) : Bool := c == '-' || c == ':' || c == ' '

/-- A separator that begins what is cut off behind. -/
def startsBack (c : Char) : Bool := c == '-' || c == ':' || c == '.' || c == ' '

/-- Cuts off zeros and the point after them or else, of the cuttable characters in front, all up
    to the last separator that is not the point. -/
def cutFront (cs : List Char) : List Char :=
  match cs.takeWhile (· == '0'), cs.dropWhile (· == '0') with
  | _ :: _, '.' :: rest => rest
  | _, _ =>
    let front := (cs.takeWhile isCuttable).reverse.dropWhile (! endsFront ·)
    if 2 ≤ front.length then cs.drop front.length else cs

/-- Cuts off the first separator that only cuttable characters follow, and those. -/
def cutBack : List Char → List Char
  | [] => []
  | c :: rest =>
    if startsBack c && !rest.isEmpty && rest.all isCuttable then [] else c :: cutBack rest

/-- Cuts zeros off both ends. -/
def cut (template : String) : String := String.ofList (cutBack (cutFront template.toList))

/-! ## Amount and unit -/

/-- The units of the template, the largest first. -/
def unitNames : List String :=
  ["YEAR", "MONTH", "DAY", "HOUR", "MINUTE", "SECOND", "MICROSECOND"]

/-- The amounts of the template's units. -/
def amounts (i : Interval) : List Int64 :=
  [i.years, i.months, i.days, i.hours, i.minutes, i.seconds, i.microseconds]

/-- The names of the units whose amount is not zero, with those amounts. -/
def present (i : Interval) : List (String × Int64) :=
  (unitNames.zip i.amounts).filter fun (_, n) => n != 0

/-- The digits of an amount without its sign. -/
def magnitude (n : Int64) : String := toString n.toInt.natAbs

/-- All seven amounts in their places, without signs. -/
def template (i : Interval) : String :=
  magnitude i.years ++ "-" ++ magnitude i.months ++ "-" ++ magnitude i.days ++ " " ++
    magnitude i.hours ++ ":" ++ magnitude i.minutes ++ ":" ++ magnitude i.seconds ++ "." ++
    magnitude i.microseconds

/-- The amount and the unit of an interval; an empty one is zero days. -/
def amountAndUnit (i : Interval) : String × String :=
  if i.quarters != 0 then (toString i.quarters.toInt, "QUARTER")
  else if i.weeks != 0 then (toString i.weeks.toInt, "WEEK")
  else
    match i.present with
    | [] => (cut i.template, "DAY")
    | (largest, n) :: rest =>
      let sign := if n < 0 then "-" else ""
      if largest = "MICROSECOND" then (sign ++ magnitude n, largest)
      else
        let unit := match rest.getLast? with
          | some (smallest, _) => largest ++ "_" ++ smallest
          | none => largest
        (sign ++ cut i.template, unit)

end Interval

end SqlCompose
