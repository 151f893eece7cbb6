/-! # Double-precision numbers — the 64-bit binary format, read exactly

    A finite number is `± significand · 2 ^ scale`. Every operation here takes natural numbers apart
    and puts them together again, so each result is the exact one rounded once:

    * `ofQuotient` — the number nearest to a quotient; a tie goes to the even significand, and what
      is too large is infinite;
    * `mul`, `div` — the product and the quotient of the magnitudes, through `ofQuotient`. -/

namespace SqlCompose

/-- A double-precision number, given by its 64 bits: sign, eleven bits of exponent and fifty-two
    of fraction. -/
structure Binary64 where
  bits : UInt64
deriving DecidableEq, Inhabited

namespace Binary64

/-! ## Fields -/

/-- The weight of the sign bit. -/
abbrev signBit : Nat := 0x8000000000000000

/-- The weight of the bit that leads a significand and is not stored, the lowest of the
    exponent's. -/
abbrev leadingBit : Nat := 0x10000000000000

/-- Whether the sign bit is set. -/
def isNegative (x : Binary64) : Bool := signBit ≤ x.bits.toNat

/-- The stored exponent, from 0 to 2047. -/
def exponentField (x : Binary64) : Nat := x.bits.toNat / leadingBit % 2048

/-- The stored fraction, below `2 ^ 52`. -/
def fractionField (x : Binary64) : Nat := x.bits.toNat % leadingBit

/-- Whether the number is neither infinite nor not a number. -/
def isFinite (x : Binary64) : Bool := x.exponentField != 2047

/-- Whether the bits stand for no number. -/
def isNaN (x : Binary64) : Bool := x.exponentField == 2047 && x.fractionField != 0

/-- The integer factor of a finite number; the leading bit is not stored unless the exponent
    field is zero. -/
def significand (x : Binary64) : Nat :=
  if x.exponentField = 0 then x.fractionField else x.fractionField + leadingBit

/-- The power of two that scales the significand. -/
def scale (x : Binary64) : Int :=
  (if x.exponentField = 0 then 1 else (x.exponentField : Int)) - 1075

/-- The number with the given sign and with the other sixty-three bits from `rest`. -/
def pack (negative : Bool) (rest : Nat) : Binary64 :=
  ⟨UInt64.ofNat ((if negative then signBit else 0) + rest)⟩

/-- Infinity with the given sign. -/
def infinity (negative : Bool) : Binary64 := pack negative (2047 * leadingBit)

/-- The usual pattern that stands for no number. -/
def nan (negative : Bool) : Binary64 := pack negative (2047 * leadingBit + leadingBit / 2)

/-- Zero with the given sign. -/
def zero (negative : Bool) : Binary64 := pack negative 0

/-! ## Rounding -/

/-- The quotient to the nearest integer, a tie going to the even one. -/
def roundQuotient (num den : Nat) : Nat :=
  let low := num / den
  let twice := 2 * (num % den)
  if twice < den then low
  else if den < twice then low + 1
  else if low % 2 = 0 then low else low + 1

/-- The exponent `e` with `2 ^ e ≤ num / den < 2 ^ (e + 1)`. -/
def binaryExponent (num den : Nat) : Int :=
  let guess : Int := (num.log2 : Int) - den.log2
  let reached :=
    if 0 ≤ guess then den * Nat.pow 2 guess.toNat ≤ num else den ≤ num * Nat.pow 2 (-guess).toNat
  if reached then guess else guess - 1

/-- The number nearest to `num / den`. The significand takes fifty-three bits, or fewer if the
    scale would fall below `-1074`. -/
def ofQuotient (negative : Bool) (num den : Nat) : Binary64 :=
  if num = 0 then zero negative
  else
    let q : Int := max (binaryExponent num den - 52) (-1074)
    let m :=
      if 0 ≤ q then roundQuotient num (den * Nat.pow 2 q.toNat)
      else roundQuotient (num * Nat.pow 2 (-q).toNat) den
    let (m, q) := if m = 2 * leadingBit then (leadingBit, q + 1) else (m, q)
    if 971 < q then infinity negative
    else if m < leadingBit then pack negative m
    else pack negative ((q + 1074).toNat * leadingBit + m)

/-- The number nearest to `m · 2 ^ q`. -/
def ofScaled (negative : Bool) (m : Nat) (q : Int) : Binary64 :=
  if 0 ≤ q then ofQuotient negative (m * Nat.pow 2 q.toNat) 1
  else ofQuotient negative m (Nat.pow 2 (-q).toNat)

/-- The number nearest to a natural number. -/
def ofNat (n : Nat) : Binary64 := ofQuotient false n 1

/-- The number nearest to an integer. -/
def ofInt (n : Int) : Binary64 := ofQuotient (decide (n < 0)) n.natAbs 1

/-! ## Decimal scale -/

/-- The number nearest to `digits · 10 ^ exponent`. Exponents that leave the range of finite
    numbers on either side are settled without computing the power. -/
def ofDecimal (negative : Bool) (digits : Nat) (exponent : Int) : Binary64 :=
  let reach : Int := (Nat.toDigits 10 digits).length + exponent
  if digits = 0 then zero negative
  else if 310 < reach then infinity negative
  else if reach < -330 then zero negative
  else if 0 ≤ exponent then ofQuotient negative (digits * Nat.pow 10 exponent.toNat) 1
  else ofQuotient negative digits (Nat.pow 10 (-exponent).toNat)

/-! ## Arithmetic on magnitudes -/

/-- The rounded product of two finite magnitudes, with the given sign. -/
def mul (negative : Bool) (x y : Binary64) : Binary64 :=
  ofScaled negative (x.significand * y.significand) (x.scale + y.scale)

/-- The rounded quotient of a finite magnitude by another that is not zero, with the given
    sign. -/
def div (negative : Bool) (x y : Binary64) : Binary64 :=
  let q := x.scale - y.scale
  if 0 ≤ q then ofQuotient negative (x.significand * Nat.pow 2 q.toNat) y.significand
  else ofQuotient negative x.significand (y.significand * Nat.pow 2 (-q).toNat)

end Binary64

end SqlCompose
