import SqlCompose.Decimal.Binary64

/-! # Reading decimals — text to the nearest double-precision number

    The accepted texts are a sign or none, then `inf`, `infinity` or `nan` in any case of letters,
    or digits with at most one point among or beside them and an optional power of ten. -/

namespace SqlCompose.Decimal

/-- The value of a decimal digit. -/
def digitValue? (c : Char) : Option Nat :=
  if '0' ≤ c && c ≤ '9' then some (c.toNat - '0'.toNat) else none

/-- Whether the character is a decimal digit. -/
def isDigit (c : Char) : Bool := (digitValue? c).isSome

/-- The number that a run of digits writes; other characters count as zero. -/
def number (digits : List Char) : Nat :=
  digits.foldl (fun n c => 10 * n + (digitValue? c).getD 0) 0

/-- Takes a sign off the front; `true` stands for a minus. -/
def takeSign : List Char → Bool × List Char
  | '-' :: rest => (true, rest)
  | '+' :: rest => (false, rest)
  | rest => (false, rest)

/-- A whole text that is a sign or none and at least one digit. -/
def integer? (cs : List Char) : Option Int :=
  let (negative, digits) := takeSign cs
  if digits.isEmpty || !digits.all isDigit then none
  else some (if negative then -(number digits) else number digits)

/-- The power of ten at the end of a number: nothing, or `e` and an integer. -/
def exponent? : List Char → Option Int
  | [] => some 0
  | c :: rest => if c == 'e' || c == 'E' then integer? rest else none

/-- An unsigned decimal: its digits as one integer and the power of ten that scales them. -/
def magnitude? (cs : List Char) : Option (Nat × Int) :=
  let whole := cs.takeWhile isDigit
  let rest := cs.dropWhile isDigit
  let (places, rest) :=
    match rest with
    | '.' :: tail => (tail.takeWhile isDigit, tail.dropWhile isDigit)
    | tail => ([], tail)
  if whole.isEmpty && places.isEmpty then none
  else (exponent? rest).map fun e => (number (whole ++ places), e - places.length)

/-- The names that are not digits. -/
def named? (negative : Bool) (cs : List Char) : Option Binary64 :=
  match String.ofList (cs.map Char.toLower) with
  | "inf" | "infinity" => some (.infinity negative)
  | "nan" => some (.nan negative)
  | _ => none

/-- The number nearest to what the text writes. -/
def read? (text : String) : Option Binary64 :=
  let (negative, rest) := takeSign text.toList
  match named? negative rest with
  | some x => some x
  | none => (magnitude? rest).map fun (digits, e) => .ofDecimal negative digits e

end SqlCompose.Decimal
