import SqlCompose.Decimal.Layout
import SqlCompose.Json.Document

/-! # Writing JSON — one printer, three spellings

    A `Spelling` fixes what stands between items, what stands after a name, and how a character
    inside quotation marks is written:

    * `compact` — no blanks, and every character but quotation marks, backslashes and control
      characters as itself;
    * `spaced` — a blank after commas and colons, and everything beyond ASCII as `\uXXXX`, one
      escape for each UTF-16 unit;
    * `bare` — as `compact`, with nothing escaped at all. -/

namespace SqlCompose.Json

/-! ## Characters -/

/-- A hexadecimal digit, lower case. -/
def hexDigit (n : Nat) : Char :=
  if n < 10 then Char.ofNat ('0'.toNat + n) else Char.ofNat ('a'.toNat + (n - 10))

/-- The escape of one UTF-16 unit. -/
def unitEscape (n : Nat) : List Char :=
  ['\\', 'u', hexDigit (n / 4096 % 16), hexDigit (n / 256 % 16), hexDigit (n / 16 % 16),
    hexDigit (n % 16)]

/-- The UTF-16 units of a code point. -/
def units (n : Nat) : List Nat :=
  if n < 0x10000 then [n]
  else [0xD800 + (n - 0x10000) / 1024, 0xDC00 + (n - 0x10000) % 1024]

/-- Quotation marks, backslashes and control characters escaped. -/
def escaped (c : Char) : List Char :=
  if c == '"' then ['\\', '"']
  else if c == '\\' then ['\\', '\\']
  else if c == '\n' then ['\\', 'n']
  else if c == '\r' then ['\\', 'r']
  else if c == '\t' then ['\\', 't']
  else if c.toNat == 8 then ['\\', 'b']
  else if c.toNat == 12 then ['\\', 'f']
  else if c.toNat < 32 then unitEscape c.toNat
  else [c]

/-- As `escaped`, and everything beyond ASCII by its units. -/
def asciiEscaped (c : Char) : List Char :=
  if c.toNat < 128 then escaped c else (units c.toNat).flatMap unitEscape

/-! ## Documents -/

/-- The choices of one way to write JSON. -/
structure Spelling where
  /-- What stands between two items or members. -/
  separator : List Char
  /-- What stands between a name and its value. -/
  colon : List Char
  /-- How a character inside quotation marks is written. -/
  character : Char → List Char

/-- No blanks, and no more escapes than needed. -/
def compact : Spelling := ⟨[','], [':'], escaped⟩

/-- A blank after commas and colons, ASCII only. -/
def spaced : Spelling := ⟨[',', ' '], [':', ' '], asciiEscaped⟩

/-- No blanks and no escapes. -/
def bare : Spelling := ⟨[','], [':'], fun c => [c]⟩

/-- Numbers are positional from `0.00001` to below `10 ^ 16`, and exponents carry their sign. -/
def numberLayout : Decimal.Layout := ⟨-5, 16, true, .toEven⟩

/-- A string between quotation marks. -/
def quoted (sp : Spelling) (s : String) : List Char :=
  '"' :: s.toList.flatMap sp.character ++ ['"']

mutual

/-- The characters of a document. -/
def chars (sp : Spelling) : Json → List Char
  | .null => ['n', 'u', 'l', 'l']
  | .bool true => ['t', 'r', 'u', 'e']
  | .bool false => ['f', 'a', 'l', 's', 'e']
  | .whole n => (toString n.val).toList
  | .float x =>
    if x.isFinite then (numberLayout.write x).toList else ['n', 'u', 'l', 'l']
  | .string s => quoted sp s
  | .array items => '[' :: itemChars sp items ++ [']']
  | .object members => '{' :: memberChars sp members ++ ['}']

/-- The characters of a list of items. -/
def itemChars (sp : Spelling) : List Json → List Char
  | [] => []
  | [item] => chars sp item
  | item :: rest => chars sp item ++ sp.separator ++ itemChars sp rest

/-- The characters of a list of members. -/
def memberChars (sp : Spelling) : List (String × Json) → List Char
  | [] => []
  | [(name, value)] => quoted sp name ++ sp.colon ++ chars sp value
  | (name, value) :: rest =>
    quoted sp name ++ sp.colon ++ chars sp value ++ sp.separator ++ memberChars sp rest

end

/-- The text of a document. -/
def write (sp : Spelling) (d : Json) : String := String.ofList (chars sp d)

end SqlCompose.Json
