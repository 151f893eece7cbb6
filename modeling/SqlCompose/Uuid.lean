import SqlCompose.Json.Printer

/-! # Universally unique identifiers — 128 bits and their hyphenated text -/

namespace SqlCompose

/-- A universally unique identifier. -/
structure Uuid where
  bits : BitVec 128
deriving DecidableEq

namespace Uuid

/-- The hexadecimal digits from the most significant down, as many as asked for. -/
def hexDigits (n : Nat) : Nat → List Char
  | 0 => []
  | count + 1 => hexDigits (n / 16) count ++ [Json.hexDigit (n % 16)]

/-- Thirty-two lower-case digits in groups of eight, four, four, four and twelve. -/
def text (u : Uuid) : String :=
  let digits := hexDigits u.bits.toNat 32
  let group (start count : Nat) := String.ofList ((digits.drop start).take count)
  "-".intercalate [group 0 8, group 8 4, group 12 4, group 16 4, group 20 12]

/-- The value of a digit in either case of letters. -/
def digit? (c : Char) : Option Nat :=
  if '0' ≤ c && c ≤ '9' then some (c.toNat - '0'.toNat)
  else if 'a' ≤ c.toLower && c.toLower ≤ 'f' then some (c.toLower.toNat - 'a'.toNat + 10)
  else none

/-- Reads thirty-two digits, with the four hyphens in their places or with none. -/
def read? (text : String) : Option Uuid :=
  let cs := text.toList
  let hyphenated :=
    cs.length == 36 && [8, 13, 18, 23].all fun i => cs[i]? == some '-'
  let digits := if hyphenated then cs.filter (· != '-') else cs
  if digits.length != 32 then none
  else (digits.mapM digit?).map fun values => ⟨BitVec.ofNat 128 (values.foldl (16 * · + ·) 0)⟩

end Uuid

end SqlCompose
