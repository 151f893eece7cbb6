import SqlCompose.Decimal.Binary64

/-! # Shortest decimals — the fewest digits that read back as the same number

    The reals that round to `m · 2 ^ q` form an interval around it, with its ends included when `m`
    is even. Its lower half is half as wide when `m` is the least normal significand. Of the decimal
    grids `10 ^ k`, the coarsest with a point in the interval is taken; of that grid only the two
    neighbours of the number itself matter, and the nearer of them wins.

    Everything is scaled to integers: `Interval` holds four times the number and both ends over a
    common denominator. -/

namespace SqlCompose.Decimal

/-- Which of two equally near neighbours is taken. -/
inductive Tie
  | toEven
  | up
deriving DecidableEq

/-- The reals that read back as one number: `low / den` to `high / den` around `mid / den`. -/
structure Interval where
  low    : Nat
  mid    : Nat
  high   : Nat
  den    : Nat
  closed : Bool

/-- The interval of a finite number that is not zero. -/
def intervalOf (x : Binary64) : Interval :=
  let m := x.significand
  let q := x.scale - 2
  let up := if 0 ≤ q then Nat.pow 2 q.toNat else 1
  let below := if m = Binary64.leadingBit ∧ 1 < x.exponentField then 1 else 2
  { low := (4 * m - below) * up, mid := 4 * m * up, high := (4 * m + 2) * up,
    den := if 0 ≤ q then 1 else Nat.pow 2 (-q).toNat, closed := m % 2 == 0 }

namespace Interval

/-- Whether `n / unit` lies in the interval, for a grid of `num / unit`. -/
def holds (r : Interval) (num unit : Nat) : Bool :=
  let point := num * r.den
  let low := r.low * unit
  let high := r.high * unit
  if r.closed then low ≤ point && point ≤ high else low < point && point < high

/-- The point of the grid `10 ^ k` that stands for the number, if one does. -/
def pointAt? (tie : Tie) (r : Interval) (k : Int) : Option Nat :=
  let grid := if 0 ≤ k then Nat.pow 10 k.toNat else 1
  let unit := if 0 ≤ k then 1 else Nat.pow 10 (-k).toNat
  let below := r.mid * unit / (r.den * grid)
  let remainder := r.mid * unit % (r.den * grid)
  let takeLow := r.holds (below * grid) unit
  let takeHigh := r.holds ((below + 1) * grid) unit
  let nearer :=
    if 2 * remainder < r.den * grid then below
    else if r.den * grid < 2 * remainder then below + 1
    else match tie with
      | .toEven => if below % 2 = 0 then below else below + 1
      | .up => below + 1
  if takeLow && takeHigh then some nearer
  else if takeLow then some below
  else if takeHigh then some (below + 1)
  else none

/-- A grid exponent so large that no finer digit of the number is at or above it. -/
def topExponent (r : Interval) : Int :=
  if r.den ≤ r.mid then ((Nat.toDigits 10 (r.mid / r.den)).length : Int) + 1
  else 2 - ((Nat.toDigits 10 (r.den / r.mid)).length : Int)

/-- The first grid at or below `10 ^ k` that has a point, tried in at most `steps` steps. -/
def search (tie : Tie) (r : Interval) (k : Int) : Nat → Nat × Int
  | 0 => (r.mid / r.den, 0)
  | steps + 1 =>
    match r.pointAt? tie k with
    | some digits => (digits, k)
    | none => r.search tie (k - 1) steps

end Interval

/-- The shortest decimal `digits · 10 ^ exponent` of a finite number that is not zero.
    Seventeen digits always suffice, and the search starts at most three grids too high. -/
def shortest (tie : Tie) (x : Binary64) : Nat × Int :=
  let r := intervalOf x
  r.search tie r.topExponent 24

end SqlCompose.Decimal
