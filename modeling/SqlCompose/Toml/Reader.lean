import SqlCompose.Calendar
import SqlCompose.Decimal.Reading
import SqlCompose.Toml.Document

/-! # Reading TOML — text to document

    A document is read line by line; keys, strings and nested values are read by recursive descent
    over a list of characters. Every call is bounded by a number of steps that exceeds what the
    length of the text allows, so the bound is never what ends a reading.

    How deep a document goes is limited: lists and tables between braces may be nested only so far,
    and a key may have only so many segments. -/

namespace SqlCompose.Toml

open SqlCompose.Decimal (isDigit number takeSign)

/-- How many lists and tables between braces may be open at once, and how many segments a key may
    have. -/
def depthLimit : Nat := 80

/-! ## Blanks, comments and line ends -/

/-- A blank inside a line. -/
def isBlank (c : Char) : Bool := c == ' ' || c == '\t'

/-- A character that may stand neither in a comment nor in a string. -/
def isControl (c : Char) : Bool := (c.toNat < 32 && c != '\t') || c.toNat == 127

/-- Drops the blanks in front. -/
def skipBlanks (cs : List Char) : List Char := cs.dropWhile isBlank

/-- Drops blanks, comments and line ends. -/
def skipLines? (inComment : Bool) : List Char → Option (List Char)
  | [] => some []
  | '\r' :: '\n' :: rest => skipLines? false rest
  | '\n' :: rest => skipLines? false rest
  | c :: rest =>
    if inComment then if isControl c then none else skipLines? true rest
    else if isBlank c then skipLines? false rest
    else if c == '#' then skipLines? true rest
    else some (c :: rest)

/-- Drops what may follow at the end of a line, and the line end. -/
def endLine? (inComment : Bool) : List Char → Option (List Char)
  | [] => some []
  | '\r' :: '\n' :: rest => some rest
  | '\n' :: rest => some rest
  | c :: rest =>
    if inComment then if isControl c then none else endLine? true rest
    else if isBlank c then endLine? false rest
    else if c == '#' then endLine? true rest
    else none

/-- Drops blanks and line ends. -/
def skipSpacing : List Char → List Char
  | [] => []
  | '\r' :: '\n' :: rest => skipSpacing rest
  | c :: rest => if isBlank c || c == '\n' then skipSpacing rest else c :: rest

/-- Drops a line end in front, if there is one. -/
def skipLineEnd : List Char → List Char
  | '\r' :: '\n' :: rest => rest
  | '\n' :: rest => rest
  | rest => rest

/-! ## Strings -/

/-- The value of a digit in a base of at most sixteen. -/
def digitIn? (base : Nat) (c : Char) : Option Nat :=
  let value? : Option Nat :=
    if '0' ≤ c && c ≤ '9' then some (c.toNat - '0'.toNat)
    else if 'a' ≤ c && c ≤ 'f' then some (c.toNat - 'a'.toNat + 10)
    else if 'A' ≤ c && c ≤ 'F' then some (c.toNat - 'A'.toNat + 10)
    else none
  value?.filter (· < base)

/-- The number that digits in a base write. -/
def numberIn (base : Nat) (digits : List Char) : Nat :=
  digits.foldl (fun n c => base * n + (digitIn? base c).getD 0) 0

/-- The character whose code the first so many characters write in hexadecimal. -/
def coded? (count : Nat) (cs : List Char) : Option (Char × List Char) :=
  let digits := cs.take count
  let code := numberIn 16 digits
  if digits.length = count && digits.all (fun c => (digitIn? 16 c).isSome) && code.isValidChar then
    some (Char.ofNat code, cs.drop count)
  else none

/-- The character that an escape stands for, the backslash already read. -/
def escaped? : List Char → Option (Char × List Char)
  | 'b' :: rest => some (Char.ofNat 8, rest)
  | 't' :: rest => some ('\t', rest)
  | 'n' :: rest => some ('\n', rest)
  | 'f' :: rest => some (Char.ofNat 12, rest)
  | 'r' :: rest => some ('\r', rest)
  | 'e' :: rest => some (Char.ofNat 27, rest)
  | '"' :: rest => some ('"', rest)
  | '\\' :: rest => some ('\\', rest)
  | 'x' :: rest => coded? 2 rest
  | 'u' :: rest => coded? 4 rest
  | 'U' :: rest => coded? 8 rest
  | _ => none

/-- Puts a character in front of what is read after it. -/
def prepend (c : Char) : Option (List Char × List Char) → Option (List Char × List Char) :=
  Option.map fun (cs, rest) => (c :: cs, rest)

/-- Reads the inside of a string on one line and its closing quote. A double quote allows
    escapes. -/
def lineText? (quote : Char) : Nat → List Char → Option (List Char × List Char)
  | 0, _ => none
  | _, [] => none
  | steps + 1, c :: rest =>
    if c == quote then some ([], rest)
    else if c == '\\' && quote == '"' then do
      let (d, rest) ← escaped? rest
      prepend d (lineText? quote steps rest)
    else if isControl c then none
    else prepend c (lineText? quote steps rest)

/-- Whether a backslash is followed by nothing else on its line. -/
def endsLine (cs : List Char) : Bool :=
  match skipBlanks cs with
  | '\n' :: _ | '\r' :: '\n' :: _ => true
  | _ => false

/-- Reads the inside of a string over several lines and its three closing quotes, in front of
    which up to two more may stand. A double quote allows escapes; line ends stay as they are. -/
def linesText? (quote : Char) : Nat → List Char → Option (List Char × List Char)
  | 0, _ => none
  | _, [] => none
  | steps + 1, c :: rest =>
    if c == quote && rest.take 2 == [quote, quote] then
      let more := ((rest.drop 2).take 2).takeWhile (· == quote)
      some (more, rest.drop (2 + more.length))
    else if c == '\\' && quote == '"' then
      if endsLine rest then linesText? quote steps (skipSpacing rest)
      else do
        let (d, rest) ← escaped? rest
        prepend d (linesText? quote steps rest)
    else if c == '\n' || (c == '\r' && rest.head? == some '\n') then
      prepend c (linesText? quote steps rest)
    else if isControl c then none
    else prepend c (linesText? quote steps rest)

/-- Reads a string of any kind, its first quote already read. -/
def text? (quote : Char) (steps : Nat) (cs : List Char) : Option (List Char × List Char) :=
  if cs.take 2 == [quote, quote] then linesText? quote steps (skipLineEnd (cs.drop 2))
  else lineText? quote steps cs

/-! ## Keys -/

/-- A character of a key without quotes. -/
def isBare (c : Char) : Bool :=
  ('a' ≤ c && c ≤ 'z') || ('A' ≤ c && c ≤ 'Z') || isDigit c || c == '_' || c == '-'

/-- Reads one key. -/
def key? (steps : Nat) : List Char → Option (String × List Char)
  | '"' :: rest => (lineText? '"' steps rest).map fun (cs, tail) => (String.ofList cs, tail)
  | '\'' :: rest => (lineText? '\'' steps rest).map fun (cs, tail) => (String.ofList cs, tail)
  | cs =>
    let name := cs.takeWhile isBare
    if name.isEmpty then none else some (String.ofList name, cs.dropWhile isBare)

/-- Reads the segments of a dotted key: those that lead to a table, and the one in it. -/
def segments? : Nat → List Char → Option (List String × String × List Char)
  | 0, _ => none
  | steps + 1, cs => do
    let (key, rest) ← key? steps (skipBlanks cs)
    match skipBlanks rest with
    | '.' :: rest => do
      let (path, last, rest) ← segments? steps rest
      return (key :: path, last, rest)
    | rest => return ([], key, rest)

/-- Reads a dotted key: the path to a table, and the key in it. -/
def keyPath? (steps : Nat) (cs : List Char) : Option (List String × String × List Char) :=
  (segments? steps cs).filter fun (path, _) => path.length < depthLimit

/-! ## Numbers -/

/-- Digits, single underscores between which are dropped. -/
def grouped? (isDigit : Char → Bool) : List Char → Option (List Char)
  | [] => none
  | [c] => if isDigit c then some [c] else none
  | c :: '_' :: rest => if isDigit c then (grouped? isDigit rest).map (c :: ·) else none
  | c :: rest => if isDigit c then (grouped? isDigit rest).map (c :: ·) else none

/-- Decimal digits without a zero in front. -/
def wholeDigits? (cs : List Char) : Option (List Char) :=
  match grouped? isDigit cs with
  | some ('0' :: _ :: _) => none
  | digits => digits

/-- The number in a base other than ten. -/
def based? (base : Nat) (digits : List Char) : Option Int :=
  (grouped? (fun c => (digitIn? base c).isSome) digits).map fun cs => (numberIn base cs : Nat)

/-- A whole number. -/
def wholeNumber? : List Char → Option Int
  | '0' :: 'x' :: digits => based? 16 digits
  | '0' :: 'o' :: digits => based? 8 digits
  | '0' :: 'b' :: digits => based? 2 digits
  | cs =>
    let (negative, digits) := takeSign cs
    (wholeDigits? digits).map fun ds => if negative then -(number ds : Int) else number ds

/-- An exponent, its letter already read. -/
def exponentDigits? : List Char → Option (List Char)
  | '+' :: rest => grouped? isDigit rest
  | '-' :: rest => (grouped? isDigit rest).map ('-' :: ·)
  | rest => grouped? isDigit rest

/-- The places after the point and the exponent behind them, as digits that `Decimal.read?`
    reads. -/
def fraction? : List Char → Option (List Char)
  | '.' :: rest => do
    let isLetter (c : Char) : Bool := c == 'e' || c == 'E'
    let places ← grouped? isDigit (rest.takeWhile (!isLetter ·))
    match rest.dropWhile (!isLetter ·) with
    | [] => return '.' :: places
    | _ :: power => return '.' :: places ++ 'e' :: (← exponentDigits? power)
  | 'e' :: power | 'E' :: power => (exponentDigits? power).map ('e' :: ·)
  | _ => none

/-- A number that is not whole; one that is too large has no value. -/
def floatNumber? (cs : List Char) : Option Node :=
  let (negative, rest) := takeSign cs
  if rest == ['i', 'n', 'f'] then some (.float (.infinity negative))
  else if rest == ['n', 'a', 'n'] then some (.float (.nan negative))
  else do
    let isStart (c : Char) : Bool := c == '.' || c == 'e' || c == 'E'
    let whole ← wholeDigits? (rest.takeWhile (!isStart ·))
    let places ← fraction? (rest.dropWhile (!isStart ·))
    let sign := if negative then ['-'] else []
    let x ← Decimal.read? (String.ofList (sign ++ whole ++ places))
    return if x.isFinite then .float x else .valueless

/-- Whole numbers may take up to 128 bits, with a sign or without. -/
def isInRange (n : Int) : Bool :=
  -0x80000000000000000000000000000000 ≤ n && n < 0x100000000000000000000000000000000

/-- The marks of the bases other than ten. -/
def baseMarks : List (List Char) := [['0', 'x'], ['0', 'o'], ['0', 'b']]

/-- Whether each underscore stands between two digits of some base. -/
def areJoined : List Char → Bool
  | c :: '_' :: d :: rest =>
    (digitIn? 16 c).isSome && (digitIn? 16 d).isSome && areJoined (d :: rest)
  | [_, '_'] => false
  | _ :: rest => areJoined rest
  | [] => true

/-- Whether a text passes for a whole number in groups: decimal digits without a zero in front, an
    underscore, and anything that is no space and no sign of a fraction or a power. Of the groups
    only the ends count. -/
def isGrouped (cs : List Char) : Bool :=
  let digits := (takeSign cs).2
  match digits.takeWhile isDigit, digits.dropWhile isDigit with
  | d :: _, '_' :: rest => d != '0' && !rest.any [' ', '.', 'e', 'E'].contains && areJoined digits
  | _, _ => false

/-- A number of any kind. -/
def number? (cs : List Char) : Option Node :=
  match wholeNumber? cs with
  | some n => some (if isInRange n then .integer n else .valueless)
  | none => if baseMarks.contains cs || isGrouped cs then some .valueless else floatNumber? cs

/-! ## Dates and times -/

/-- Two digits that write a number of at most `limit`. -/
def twoDigits? (limit : Nat) (cs : List Char) : Option (Nat × List Char) :=
  let digits := cs.take 2
  if digits.length = 2 && digits.all isDigit && number digits ≤ limit then
    some (number digits, cs.drop 2)
  else none

/-- Drops a date, which must exist, from the front. -/
def afterDate? (cs : List Char) : Option (List Char) :=
  let year := cs.take 4
  match cs.drop 4 with
  | '-' :: rest => do
    let (month, rest) ← twoDigits? 12 rest
    match rest with
    | '-' :: rest => do
      let (day, rest) ← twoDigits? 31 rest
      if year.length = 4 && year.all isDigit && (Date.of? (number year) month day).isSome then
        some rest
      else none
    | _ => none
  | _ => none

/-- Drops a time of day from the front. Seconds may be missing, and parts of them too. -/
def afterTime? (cs : List Char) : Option (List Char) := do
  let (_, rest) ← twoDigits? 23 cs
  match rest with
  | ':' :: rest => do
    let (_, rest) ← twoDigits? 59 rest
    match rest with
    | ':' :: rest => do
      let (_, rest) ← twoDigits? 60 rest
      match rest with
      | '.' :: rest => if (rest.takeWhile isDigit).isEmpty then none else rest.dropWhile isDigit
      | rest => some rest
    | rest => some rest
  | _ => none

/-- Whether the text is an offset from universal time, or empty. -/
def isOffset : List Char → Bool
  | [] | ['Z'] | ['z'] => true
  | ['+', a, b, ':', c, d] | ['-', a, b, ':', c, d] =>
    (twoDigits? 23 [a, b]).isSome && (twoDigits? 59 [c, d]).isSome
  | _ => false

/-- Whether the text is a date, a time of day, or both with or without an offset. -/
def isMoment (cs : List Char) : Bool :=
  match afterDate? cs with
  | some [] => true
  | some ('T' :: rest) | some ('t' :: rest) | some (' ' :: rest) =>
    (afterTime? rest).any isOffset
  | some _ => false
  | none => (afterTime? cs).any List.isEmpty

/-! ## Values -/

/-- A character that ends a value without quotes. -/
def endsScalar (c : Char) : Bool := ['\n', '\r', '#', '=', ',', '[', ']', '{', '}'].contains c

/-- Splits a value without quotes off the front. Blanks are part of it where more of it follows, as
    between a date and a time; a string behind them does not. -/
def splitScalar : List Char → List Char × List Char
  | [] => ([], [])
  | c :: rest =>
    let isQuoted := rest.head? == some '"' || rest.head? == some '\''
    if endsScalar c || (isBlank c && isQuoted) then ([], c :: rest)
    else
      let (scalar, tail) := splitScalar rest
      if isBlank c && scalar.isEmpty then ([], c :: rest) else (c :: scalar, tail)

/-- A value without quotes. -/
def scalar? (cs : List Char) : Option Node :=
  if cs == "true".toList then some (.boolean true)
  else if cs == "false".toList then some (.boolean false)
  else if isMoment cs then some .moment
  else number? cs

mutual

/-- Reads one value, in which so many lists and tables may be open at once. -/
def value? (depth : Nat) : Nat → List Char → Option (Node × List Char)
  | 0, _ => none
  | steps + 1, cs =>
    match depth, cs with
    | _, '"' :: rest =>
      (text? '"' steps rest).map fun (s, tail) => (.string (String.ofList s), tail)
    | _, '\'' :: rest =>
      (text? '\'' steps rest).map fun (s, tail) => (.string (String.ofList s), tail)
    | depth + 1, '[' :: rest =>
      (items? depth steps rest).map fun (items, tail) => (.list items, tail)
    | depth + 1, '{' :: rest =>
      (members? depth steps [] rest).map fun (entries, tail) => (.table .inline entries, tail)
    | _, cs =>
      let (scalar, rest) := splitScalar cs
      (scalar? scalar).map fun node => (node, rest)

/-- Reads the items of a list and its closing bracket. -/
def items? (depth : Nat) : Nat → List Char → Option (List Node × List Char)
  | 0, _ => none
  | steps + 1, cs => do
    match ← skipLines? false cs with
    | ']' :: rest => return ([], rest)
    | cs => do
      let (item, rest) ← value? depth steps cs
      match ← skipLines? false rest with
      | ',' :: rest => (items? depth steps rest).map fun (items, tail) => (item :: items, tail)
      | ']' :: rest => return ([item], rest)
      | _ => none

/-- Reads the members of a table between braces and its closing brace. A member may take several
    lines, its key only one. -/
def members? (depth : Nat) : Nat → Entries → List Char → Option (Entries × List Char)
  | 0, _, _ => none
  | steps + 1, entries, cs => do
    match ← skipLines? false cs with
    | '}' :: rest => return (entries, rest)
    | cs => do
      let (path, key, rest) ← keyPath? steps cs
      match ← skipLines? false rest with
      | '=' :: rest => do
        let (value, rest) ← value? depth steps (← skipLines? false rest)
        let (_, entries) ← Entries.set path key value .header entries
        match ← skipLines? false rest with
        | ',' :: rest => members? depth steps entries rest
        | '}' :: rest => return (entries, rest)
        | _ => none
      | _ => none

end

/-! ## Documents -/

/-- Drops the brackets that close a header. -/
def closing? (count : Nat) (cs : List Char) : Option (List Char) :=
  if cs.take count == List.replicate count ']' then endLine? false (cs.drop count) else none

/-- Reads the lines of a document, those below a header with its path in front. -/
def lines? : Nat → List String → Entries → List Char → Option Entries
  | 0, _, _, _ => none
  | steps + 1, header, entries, cs => do
    match ← skipLines? false cs with
    | [] => return entries
    | '[' :: '[' :: rest => do
      let (path, key, rest) ← keyPath? steps rest
      let rest ← closing? 2 rest
      let entries ← entries.addTable path key
      lines? steps (path ++ [key]) entries rest
    | '[' :: rest => do
      let (path, key, rest) ← keyPath? steps rest
      let rest ← closing? 1 rest
      let entries ← entries.addHeader path key
      lines? steps (path ++ [key]) entries rest
    | cs => do
      let (path, key, rest) ← keyPath? steps cs
      match rest with
      | '=' :: rest => do
        let (value, rest) ← value? depthLimit steps (skipBlanks rest)
        let rest ← endLine? false rest
        let entries ← entries.setBelow header path key value
        lines? steps header entries rest
      | _ => none

/-- The document that the whole text writes. A byte order mark may stand in front. -/
def read? (text : String) : Option Entries :=
  let cs := text.toList
  let cs := if cs.head? == some (Char.ofNat 0xFEFF) then cs.drop 1 else cs
  lines? (2 * cs.length + 2) [] [] cs

end SqlCompose.Toml
