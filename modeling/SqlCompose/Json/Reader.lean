import SqlCompose.Decimal.Reading
import SqlCompose.Json.Document

/-! # Reading JSON — text to document

    Reading is recursive descent over a list of characters. Every call is bounded by a number of
    steps that the length of the text exceeds, so the bound is never what ends a reading.

    A number with a point or a power of ten, or too long for a word, is read in two parts: of its
    digits as many as fit an unsigned 64-bit word, and the power of ten that scales them. Its value
    is that word, rounded, times or divided by that power, rounded: two roundings, not one. -/

namespace SqlCompose.Json

open SqlCompose.Decimal (isDigit digitValue? number takeSign)

/-! ## Numbers -/

/-- One more than the largest unsigned 64-bit word. -/
def wordLimit : Nat := 0x10000000000000000

/-- Appends digits to a word while it does not overflow; returns the word and the number of
    digits taken. -/
def absorb (word : Nat) : List Char → Nat × Nat
  | [] => (word, 0)
  | c :: rest =>
    let next := 10 * word + (digitValue? c).getD 0
    if next < wordLimit then
      let (final, taken) := absorb next rest
      (final, taken + 1)
    else (word, 0)

/-- The number nearest to a power of ten. -/
def powerOfTen (n : Nat) : Binary64 := .ofDecimal false 1 n

/-- A word scaled by a power of ten: rounded to a double-precision number first, then multiplied
    or divided once for every step of at most 308 places. What is too large has no value. -/
def scaled? (negative : Bool) (word : Nat) (exponent : Int) : Option Binary64 :=
  let x := Binary64.ofNat word
  if word = 0 then some (.zero negative)
  else if 308 < exponent then none
  else if 0 ≤ exponent then
    let y := x.mul negative (powerOfTen exponent.toNat)
    if y.isFinite then some y else none
  else if -308 ≤ exponent then some (x.div negative (powerOfTen (-exponent).toNat))
  else if -616 ≤ exponent then
    some ((x.div false (powerOfTen 308)).div negative (powerOfTen (-exponent - 308).toNat))
  else some (.zero negative)

/-- The exponent at the end of a number, without its letter. -/
def exponentPart? (cs : List Char) : Option (Int × List Char) :=
  let (negative, rest) := takeSign cs
  let digits := rest.takeWhile isDigit
  if digits.isEmpty then none
  else some (if negative then -(number digits) else number digits, rest.dropWhile isDigit)

/-- The places after a point, which must be there if the point is. -/
def places? : List Char → Option (List Char × List Char)
  | '.' :: rest =>
    let digits := rest.takeWhile isDigit
    if digits.isEmpty then none else some (digits, rest.dropWhile isDigit)
  | rest => some ([], rest)

/-- The power of ten after the digits, if the text goes on with one. -/
def power? : List Char → Option (Option Int × List Char)
  | 'e' :: rest | 'E' :: rest => (exponentPart? rest).map fun (e, tail) => (some e, tail)
  | rest => some (none, rest)

/-- An unsigned whole number has no leading zero. -/
def wholeDigits? (cs : List Char) : Option (List Char × List Char) :=
  match cs.takeWhile isDigit with
  | [] => none
  | '0' :: _ :: _ => none
  | digits => some (digits, cs.dropWhile isDigit)

/-- Puts the parts of a number together. -/
def assemble? (negative : Bool) (digits places : List Char) (power : Option Int) : Option Json :=
  let (word, taken) := absorb 0 digits
  let lost := digits.length - taken
  let value : Int := if negative then -(number digits) else number digits
  match places, power, WholeNumber.ofInt? value, negative && value == 0 with
  | [], none, some n, false => some (.whole n)
  | _, _, _, _ =>
    let (word, kept) := absorb word places
    let exponent : Int := lost - kept + power.getD 0
    (scaled? negative word exponent).map .float

/-- Reads a number, its minus sign already taken. -/
def readNumber? (negative : Bool) (cs : List Char) : Option (Json × List Char) := do
  let (digits, rest) ← wholeDigits? cs
  let (places, rest) ← places? rest
  let (power, rest) ← power? rest
  let value ← assemble? negative digits places power
  return (value, rest)

/-! ## Strings -/

/-- The value of a hexadecimal digit. -/
def hexValue? (c : Char) : Option Nat :=
  if '0' ≤ c && c ≤ '9' then some (c.toNat - '0'.toNat)
  else if 'a' ≤ c && c ≤ 'f' then some (c.toNat - 'a'.toNat + 10)
  else if 'A' ≤ c && c ≤ 'F' then some (c.toNat - 'A'.toNat + 10)
  else none

/-- The unit that four hexadecimal digits write. -/
def unit? (a b c d : Char) : Option Nat := do
  let a ← hexValue? a
  let b ← hexValue? b
  let c ← hexValue? c
  let d ← hexValue? d
  return ((a * 16 + b) * 16 + c) * 16 + d

/-- The character that a one-letter escape stands for. -/
def shortEscape? : Char → Option Char
  | '"' => some '"'
  | '\\' => some '\\'
  | '/' => some '/'
  | 'b' => some (Char.ofNat 8)
  | 'f' => some (Char.ofNat 12)
  | 'n' => some '\n'
  | 'r' => some '\r'
  | 't' => some '\t'
  | _ => none

/-- Reads the inside of a string and its closing quotation mark. -/
def readString? : List Char → Option (List Char × List Char)
  | [] => none
  | '"' :: rest => some ([], rest)
  | '\\' :: 'u' :: a :: b :: c :: d :: rest =>
    match unit? a b c d with
    | none => none
    | some n =>
      if n < 0xD800 || 0xDFFF < n then
        (readString? rest).map fun (cs, tail) => (Char.ofNat n :: cs, tail)
      else if 0xDBFF < n then none
      else
        match rest with
        | '\\' :: 'u' :: e :: f :: g :: h :: rest =>
          match unit? e f g h with
          | none => none
          | some m =>
            if 0xDC00 ≤ m && m ≤ 0xDFFF then
              (readString? rest).map fun (cs, tail) =>
                (Char.ofNat (0x10000 + (n - 0xD800) * 1024 + (m - 0xDC00)) :: cs, tail)
            else none
        | _ => none
  | '\\' :: c :: rest =>
    match shortEscape? c with
    | some c => (readString? rest).map fun (cs, tail) => (c :: cs, tail)
    | none => none
  | c :: rest =>
    if c.toNat < 32 || c == '\\' then none
    else (readString? rest).map fun (cs, tail) => (c :: cs, tail)

/-! ## Documents -/

/-- The blanks that JSON allows between its parts. -/
def isBlank (c : Char) : Bool := c == ' ' || c == '\n' || c == '\r' || c == '\t'

/-- Drops blanks. -/
def skipBlanks (cs : List Char) : List Char := cs.dropWhile isBlank

mutual

/-- Reads one value, blanks before it allowed. -/
def readValue? : Nat → List Char → Option (Json × List Char)
  | 0, _ => none
  | steps + 1, cs =>
    match skipBlanks cs with
    | 'n' :: 'u' :: 'l' :: 'l' :: rest => some (.null, rest)
    | 't' :: 'r' :: 'u' :: 'e' :: rest => some (.bool true, rest)
    | 'f' :: 'a' :: 'l' :: 's' :: 'e' :: rest => some (.bool false, rest)
    | '"' :: rest => (readString? rest).map fun (s, tail) => (.string (String.ofList s), tail)
    | '-' :: rest => readNumber? true rest
    | '[' :: rest =>
      match skipBlanks rest with
      | ']' :: tail => some (.array [], tail)
      | _ => (readItems? steps rest).map fun (items, tail) => (.array items, tail)
    | '{' :: rest =>
      match skipBlanks rest with
      | '}' :: tail => some (.object [], tail)
      | _ => (readMembers? steps rest).map fun (members, tail) => (ofMembers members, tail)
    | rest => readNumber? false rest

/-- Reads the items of an array that has some, and its closing bracket. -/
def readItems? : Nat → List Char → Option (List Json × List Char)
  | 0, _ => none
  | steps + 1, cs => do
    let (item, rest) ← readValue? steps cs
    match skipBlanks rest with
    | ',' :: rest => (readItems? steps rest).map fun (items, tail) => (item :: items, tail)
    | ']' :: tail => some ([item], tail)
    | _ => none

/-- Reads the members of an object that has some, and its closing brace. -/
def readMembers? : Nat → List Char → Option (List (String × Json) × List Char)
  | 0, _ => none
  | steps + 1, cs =>
    match skipBlanks cs with
    | '"' :: rest => do
      let (name, rest) ← readString? rest
      match skipBlanks rest with
      | ':' :: rest => do
        let (value, rest) ← readValue? steps rest
        match skipBlanks rest with
        | ',' :: rest =>
          (readMembers? steps rest).map fun (members, tail) =>
            ((String.ofList name, value) :: members, tail)
        | '}' :: tail => some ([(String.ofList name, value)], tail)
        | _ => none
      | _ => none
    | _ => none

end

/-- The document that the whole text writes. -/
def read? (text : String) : Option Json :=
  let cs := text.toList
  match readValue? (2 * cs.length + 2) cs with
  | some (d, rest) => if (skipBlanks rest).isEmpty then some d else none
  | none => none

end SqlCompose.Json
