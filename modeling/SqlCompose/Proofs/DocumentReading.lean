import SqlCompose.Json.Reader
import SqlCompose.Proofs.DocumentLiteral
import SqlCompose.Proofs.Numerals
import SqlCompose.Value

/-! # Documents read back — the text of a document is the document

    The text that a JSON document is written with is ASCII only: a character beyond is written by
    its UTF-16 units, one above the sixteen-bit ones by two of them. A reader of JSON gets the
    document back. What a reader takes for one value ends where the writer ended it, because a
    string ends at its quotation mark and a number at a comma, a bracket or the end of the text; the
    number of steps a reader may take is bounded by the length of the text, and twice the length is
    enough. All this is so for every spelling that has a comma between items and a colon behind
    names, wherever it keeps the strings of the document.

    * `Json.parts` — a document and all documents inside it.
    * `Json.readString?_quoted`, `Json.readNumber?_digits` — strings and numbers.
    * `Json.Legible`, `Json.Readable` — the spellings and the documents that are read back.
    * `Json.readValue?_chars` — a value, with what is behind it left over.
    * `Json.forall_mem_chars` — what holds of all characters of a text.
    * `Json.foldl_insertMember` — members in the order of their names are in their places.
    * `Value.read_jsonText` — the theorem. -/

namespace SqlCompose

namespace Json

/-! ## Documents -/

mutual

/-- A document and all documents inside it. -/
def parts : Json → List Json
  | .array items => .array items :: itemParts items
  | .object members => .object members :: memberParts members
  | d => [d]

/-- The items of a list and all documents inside them. -/
def itemParts : List Json → List Json
  | [] => []
  | item :: rest => item.parts ++ itemParts rest

/-- The values of members and all documents inside them. -/
def memberParts : List (String × Json) → List Json
  | [] => []
  | (_, value) :: rest => value.parts ++ memberParts rest

end

/-- Whether no number in a document is a floating-point one. -/
def FloatFree (d : Json) : Prop := ∀ x, .float x ∉ d.parts

/-- Whether the members of all objects in a document stand in the order of their names, each name
    once. -/
def Ordered (d : Json) : Prop :=
  ∀ members, .object members ∈ d.parts → (members.map Prod.fst).Pairwise (· < ·)

/-! ## Strings -/

/-- A hexadecimal digit is read back. -/
theorem hexValue?_hexDigit {n : Nat} (h : n < 16) : hexValue? (hexDigit n) = some n := by
  have hall : ∀ m < 16, hexValue? (hexDigit m) = some m := by decide
  exact hall n h

/-- The four digits of a unit are read back. -/
theorem unit?_digits {n : Nat} (h : n < 0x10000) :
    unit? (hexDigit (n / 4096 % 16)) (hexDigit (n / 256 % 16)) (hexDigit (n / 16 % 16))
      (hexDigit (n % 16)) = some n := by
  have hdigit : ∀ m, hexValue? (hexDigit (m % 16)) = some (m % 16) :=
    fun m => hexValue?_hexDigit (Nat.mod_lt m (by decide))
  have hsum : ((n / 4096 % 16 * 16 + n / 256 % 16) * 16 + n / 16 % 16) * 16 + n % 16 = n := by
    omega
  simp only [unit?, hdigit, Option.bind_eq_bind, Option.bind_some]
  exact congrArg some hsum

/-- A unit that is a character by itself. -/
theorem readString?_unit {n : Nat} (h : n < 0xD800 ∨ 0xDFFF < n) (hn : n < 0x10000)
    (cs : List Char) :
    readString? (unitEscape n ++ cs)
      = (readString? cs).map fun (text, tail) => (Char.ofNat n :: text, tail) := by
  have hplain : (decide (n < 0xD800) || decide (0xDFFF < n)) = true := by
    simpa using h
  simp only [unitEscape, List.cons_append, List.nil_append]
  rw [readString?, unit?_digits hn]
  simp only [hplain, if_true]

/-- Two units that are a character together. -/
theorem readString?_pair {n : Nat} (h : 0x10000 ≤ n) (hn : n < 0x110000) (cs : List Char) :
    readString? ((units n).flatMap unitEscape ++ cs)
      = (readString? cs).map fun (text, tail) => (Char.ofNat n :: text, tail) := by
  have hhigh : 0xD800 + (n - 0x10000) / 1024 < 0x10000 := by omega
  have hlow : 0xDC00 + (n - 0x10000) % 1024 < 0x10000 := by omega
  have hunits : (units n).flatMap unitEscape
      = unitEscape (0xD800 + (n - 0x10000) / 1024)
        ++ unitEscape (0xDC00 + (n - 0x10000) % 1024) := by
    rw [units, if_neg (by omega)]
    simp
  -- the first unit is a leading surrogate, and the second one is a trailing one
  have hsurrogate : (decide (0xD800 + (n - 0x10000) / 1024 < 0xD800)
      || decide (0xDFFF < 0xD800 + (n - 0x10000) / 1024)) = false := by
    simp only [Bool.or_eq_false_iff, decide_eq_false_iff_not]
    omega
  have hfirst : ¬ 0xDBFF < 0xD800 + (n - 0x10000) / 1024 := by omega
  have hsecond : (decide (0xDC00 ≤ 0xDC00 + (n - 0x10000) % 1024)
      && decide (0xDC00 + (n - 0x10000) % 1024 ≤ 0xDFFF)) = true := by
    simp only [Bool.and_eq_true, decide_eq_true_iff]
    omega
  have hsum : 0x10000 + (0xD800 + (n - 0x10000) / 1024 - 0xD800) * 1024
      + (0xDC00 + (n - 0x10000) % 1024 - 0xDC00) = n := by
    omega
  rw [hunits]
  simp only [unitEscape, List.cons_append, List.nil_append]
  rw [readString?, unit?_digits hhigh]
  simp only [hsurrogate, Bool.false_eq_true, if_false, if_neg hfirst, unit?_digits hlow, hsecond,
    if_true, hsum]

/-- A character of which one letter behind a backslash is written. -/
theorem readString?_short {c letter : Char} (h : shortEscape? letter = some c) (cs : List Char) :
    readString? ('\\' :: letter :: cs)
      = (readString? cs).map fun (text, tail) => (c :: text, tail) := by
  have hletter : letter ≠ 'u' := by
    rintro rfl
    exact nomatch h
  rw [readString?]
  · simp only [h]
  · exact fun _ _ _ _ _ hu _ => hletter hu

/-- A character that is written as itself. -/
theorem readString?_plain {c : Char} (hquote : c ≠ '"') (hback : c ≠ '\\')
    (hprintable : 32 ≤ c.toNat) (cs : List Char) :
    readString? (c :: cs) = (readString? cs).map fun (text, tail) => (c :: text, tail) := by
  have hallowed : (decide (c.toNat < 32) || c == '\\') = false := by
    simp only [Bool.or_eq_false_iff, decide_eq_false_iff_not, beq_eq_false_iff_ne]
    exact ⟨by omega, hback⟩
  rw [readString?]
  · simp only [hallowed, Bool.false_eq_true, if_false]
  · exact fun h => hquote h
  all_goals simp [hback]

/-- An ASCII character is read back from what it is written as. -/
theorem readString?_escaped (c : Char) (cs : List Char) :
    readString? (escaped c ++ cs)
      = (readString? cs).map fun (text, tail) => (c :: text, tail) := by
  have hcode : ∀ n, c.toNat = n → c = Char.ofNat n := by
    rintro n rfl
    exact (Char.ofNat_toNat c).symm
  simp only [escaped, beq_iff_eq]
  -- one case for each short escape, then units, then what stands for itself
  split
  case isTrue h =>
    subst h
    exact readString?_short rfl cs
  split
  case isTrue h =>
    subst h
    exact readString?_short rfl cs
  split
  case isTrue h =>
    subst h
    exact readString?_short rfl cs
  split
  case isTrue h =>
    subst h
    exact readString?_short rfl cs
  split
  case isTrue h =>
    subst h
    exact readString?_short rfl cs
  split
  case isTrue h =>
    rw [hcode 8 h]
    exact readString?_short rfl cs
  split
  case isTrue h =>
    rw [hcode 12 h]
    exact readString?_short rfl cs
  split
  case isTrue h =>
    rw [readString?_unit (Or.inl (by omega)) (by omega), Char.ofNat_toNat]
  case isFalse hquote hback _ _ _ _ _ hprintable =>
    exact readString?_plain hquote hback (by omega) cs

/-- A character is read back from what it is written as. -/
theorem readString?_character (c : Char) (cs : List Char) :
    readString? (asciiEscaped c ++ cs)
      = (readString? cs).map fun (text, tail) => (c :: text, tail) := by
  rw [asciiEscaped]
  split
  case isTrue => exact readString?_escaped c cs
  case isFalse hbeyond =>
    -- no character is one of the units that only stand in pairs
    have hvalid : c.toNat < 0xD800 ∨ 0xDFFF < c.toNat ∧ c.toNat < 0x110000 := c.valid
    by_cases hplane : c.toNat < 0x10000
    · have hunits : (units c.toNat).flatMap unitEscape = unitEscape c.toNat := by
        rw [units, if_pos hplane]
        simp
      rw [hunits, readString?_unit (by omega) hplane, Char.ofNat_toNat]
    · rw [readString?_pair (by omega) (by omega), Char.ofNat_toNat]

/-- A string is read back, up to its closing quotation mark. -/
theorem readString?_quoted (text rest : List Char) :
    readString? (text.flatMap asciiEscaped ++ '"' :: rest) = some (text, rest) := by
  induction text with
  | nil => simp [readString?]
  | cons c text ih =>
    rw [List.flatMap_cons, List.append_assoc, readString?_character, ih]
    rfl

/-! ## Numbers -/

/-- What can stand behind a value inside a document, or behind the document. -/
def Ends (tail : List Char) : Prop := ∀ c ∈ tail.head?, c = ',' ∨ c = ']' ∨ c = '}'

/-- At the end of the text a value ends. -/
theorem Ends.nil : Ends [] := by
  rintro c ⟨⟩

/-- In front of a separator a value ends. -/
theorem Ends.cons {c : Char} {tail : List Char} (h : c = ',' ∨ c = ']' ∨ c = '}') :
    Ends (c :: tail) := by
  rintro d hd
  obtain rfl : c = d := by simpa using hd
  exact h

/-- Where a value ends, its digits do. -/
theorem Ends.no_digit {tail : List Char} (h : Ends tail) :
    ∀ c ∈ tail.head?, Decimal.isDigit c = false := by
  intro c hc
  rcases h c hc with rfl | rfl | rfl <;> decide

section Numbers

variable {tail : List Char} (htail : Ends tail)
include htail

open Decimal (isDigit number)

/-- The digits of a number have no leading zero. -/
theorem wholeDigits?_append (n : Nat) :
    wholeDigits? (Nat.toDigits 10 n ++ tail) = some (Nat.toDigits 10 n, tail) := by
  obtain ⟨hdigits, hbehind⟩ := Decimal.takeWhile_digits n htail.no_digit
  rw [wholeDigits?, hdigits, hbehind]
  by_cases hzero : n = 0
  · subst hzero
    rfl
  · obtain ⟨d, ds, hcons, hd⟩ := Decimal.toDigits_eq_cons hzero
    rw [hcons]
    split
    case h_1 h => exact nomatch h
    case h_2 h => exact absurd (List.cons.inj h).1 hd
    case h_3 => rfl

/-- Without a point there are no decimal places. -/
theorem places?_tail : places? tail = some ([], tail) := by
  cases tail with
  | nil => rfl
  | cons c tail => rcases htail c rfl with rfl | rfl | rfl <;> rfl

/-- Without an exponent there is no power. -/
theorem power?_tail : power? tail = some (none, tail) := by
  cases tail with
  | nil => rfl
  | cons c tail => rcases htail c rfl with rfl | rfl | rfl <;> rfl

omit htail in
/-- The digits of a whole number without point or power are that number. -/
theorem assemble?_digits (n : WholeNumber) :
    assemble? (decide (n.val < 0)) (Nat.toDigits 10 n.val.natAbs) [] none = some (.whole n) := by
  have hvalue : (if decide (n.val < 0) then -(number (Nat.toDigits 10 n.val.natAbs) : Int)
      else number (Nat.toDigits 10 n.val.natAbs)) = n.val := by
    rw [Decimal.number_toDigits]
    rcases Int.lt_or_le n.val 0 with hneg | hnonneg
    · rw [if_pos (decide_eq_true hneg)]
      omega
    · rw [if_neg (by simpa only [decide_eq_true_eq, Int.not_lt] using hnonneg)]
      omega
  have hfits : WholeNumber.ofInt? n.val = some n := dif_pos ⟨n.least, n.below⟩
  have hsign : (decide (n.val < 0) && n.val == 0) = false := by
    simp only [Bool.and_eq_false_iff, decide_eq_false_iff_not, beq_eq_false_iff_ne]
    omega
  simp only [assemble?]
  rw [hvalue, hfits, hsign]

/-- A number is read back, its minus sign already taken. -/
theorem readNumber?_digits (n : WholeNumber) :
    readNumber? (decide (n.val < 0)) (Nat.toDigits 10 n.val.natAbs ++ tail)
      = some (.whole n, tail) := by
  simp only [readNumber?, wholeDigits?_append htail, places?_tail htail, power?_tail htail,
    assemble?_digits, Option.bind_eq_bind, Option.bind_some]
  rfl

end Numbers

/-! ## Spellings -/

/-- A spelling with a comma between items, a colon behind a name and nothing but blanks beside
    them. -/
structure Legible (sp : Spelling) : Prop where
  separator : ∃ blanks, sp.separator = ',' :: blanks ∧ ∀ c ∈ blanks, isBlank c = true
  colon     : ∃ blanks, sp.colon = ':' :: blanks ∧ ∀ c ∈ blanks, isBlank c = true

/-- Text that is spaced out can be read. -/
theorem legible_spaced : Legible spaced :=
  ⟨⟨[' '], rfl, by simp [isBlank]⟩, [' '], rfl, by simp [isBlank]⟩

/-- Whether a string is read back from what its characters are written as. -/
def Spelling.Keeps (sp : Spelling) (s : String) : Prop :=
  ∀ rest, readString? (s.toList.flatMap sp.character ++ '"' :: rest) = some (s.toList, rest)

/-- It keeps every string. -/
theorem keeps_spaced (s : String) : spaced.Keeps s := readString?_quoted s.toList

/-- What is asked of all documents and strings inside a document that is to be read back. -/
structure Readable (sp : Spelling) (ds : List Json) (ss : List String) : Prop where
  floatFree : ∀ x, .float x ∉ ds
  ordered   : ∀ members, .object members ∈ ds → (members.map Prod.fst).Pairwise (· < ·)
  keeps     : ∀ s ∈ ss, sp.Keeps s

namespace Readable

variable {sp : Spelling} {ds es : List Json} {ss ts : List String}

/-- What can be read of documents and strings can be read of fewer. -/
theorem subset (h : Readable sp ds ss) (hds : es ⊆ ds) (hss : ts ⊆ ss) : Readable sp es ts :=
  ⟨fun x hx => h.floatFree x (hds hx), fun members hm => h.ordered members (hds hm),
    fun s hs => h.keeps s (hss hs)⟩

theorem left (h : Readable sp (ds ++ es) (ss ++ ts)) : Readable sp ds ss :=
  h.subset (List.subset_append_left _ _) (List.subset_append_left _ _)

theorem right (h : Readable sp (ds ++ es) (ss ++ ts)) : Readable sp es ts :=
  h.subset (List.subset_append_right _ _) (List.subset_append_right _ _)

/-- What can be read back is no floating-point number. -/
theorem ne_float {d : Json} (h : Readable sp d.parts ss) (x : Binary64) : d ≠ .float x := by
  rintro rfl
  exact h.floatFree x List.mem_cons_self

end Readable

/-! ## Values -/

variable {sp : Spelling} {steps : Nat} {cs tail blanks : List Char}

/-- Blanks in front are skipped with all that follow. -/
theorem skipBlanks_append (h : ∀ c ∈ blanks, isBlank c = true) (cs : List Char) :
    skipBlanks (blanks ++ cs) = skipBlanks cs := List.dropWhile_append_of_pos h

/-- Blanks in front of a value are passed over. -/
theorem readValue?_blanks (h : ∀ c ∈ blanks, isBlank c = true) (steps : Nat) (cs : List Char) :
    readValue? steps (blanks ++ cs) = readValue? steps cs := by
  cases steps with
  | zero => rfl
  | succ steps => rw [readValue?, readValue?, skipBlanks_append h]

/-- Items are read from behind blanks. -/
theorem readItems?_blanks (h : ∀ c ∈ blanks, isBlank c = true) (steps : Nat) (cs : List Char) :
    readItems? steps (blanks ++ cs) = readItems? steps cs := by
  cases steps with
  | zero => rfl
  | succ steps => rw [readItems?, readItems?, readValue?_blanks h]

/-- And so are members. -/
theorem readMembers?_blanks (h : ∀ c ∈ blanks, isBlank c = true) (steps : Nat) (cs : List Char) :
    readMembers? steps (blanks ++ cs) = readMembers? steps cs := by
  cases steps with
  | zero => rfl
  | succ steps => rw [readMembers?, readMembers?, skipBlanks_append h]

/-- No digit is blank. -/
theorem isBlank_of_digit {d : Char} (hd : Decimal.isDigit d = true) : isBlank d = false := by
  by_contra h
  simp only [isBlank, Bool.not_eq_false, Bool.or_eq_true, beq_iff_eq] at h
  rcases h with ((rfl | rfl) | rfl) | rfl <;> exact absurd hd (by decide)

/-- A value that begins with a digit is a number. -/
theorem readValue?_digit {d : Char} (hd : Decimal.isDigit d = true) (cs : List Char) :
    readValue? (steps + 1) (d :: cs) = readNumber? false (d :: cs) := by
  have hblank := isBlank_of_digit hd
  have hskip : skipBlanks (d :: cs) = d :: cs := by simp [skipBlanks, hblank]
  rw [readValue?, hskip]
  split
  case h_8 => rfl
  all_goals
    rename_i h
    obtain ⟨rfl, -⟩ := List.cons.inj h
    exact absurd hd (by decide)

/-- A whole number is read back. -/
theorem readValue?_whole (n : WholeNumber) (htail : Ends tail) :
    readValue? (steps + 1) (chars sp (.whole n) ++ tail) = some (.whole n, tail) := by
  have hnumber := readNumber?_digits htail n
  by_cases hneg : n.val < 0
  · have hchars : chars sp (.whole n) = '-' :: Nat.toDigits 10 n.val.natAbs := by
      rw [chars, Decimal.toString_toList, if_pos hneg]
      rfl
    rw [decide_eq_true hneg] at hnumber
    rw [hchars, List.cons_append, readValue?]
    exact hnumber
  · have hchars : chars sp (.whole n) = Nat.toDigits 10 n.val.natAbs := by
      rw [chars, Decimal.toString_toList, if_neg hneg]
      rfl
    rw [decide_eq_false hneg] at hnumber
    rw [hchars]
    obtain ⟨d, ds, hdigits, hd⟩ := Decimal.exists_digit n.val.natAbs
    rw [hdigits, List.cons_append] at hnumber ⊢
    rw [readValue?_digit hd, hnumber]

/-- The first character of a document without floating-point numbers is neither a blank nor a
    closing bracket. -/
theorem chars_eq_cons (d : Json) (h : ∀ x, d ≠ .float x) :
    ∃ c cs, chars sp d = c :: cs ∧ isBlank c = false ∧ c ≠ ']' := by
  cases d with
  | null => exact ⟨_, _, rfl, rfl, by decide⟩
  | bool b => cases b <;> exact ⟨_, _, rfl, rfl, by decide⟩
  | whole n =>
    rw [chars, Decimal.toString_toList]
    split
    · exact ⟨_, _, rfl, rfl, by decide⟩
    · obtain ⟨d, ds, hdigits, hd⟩ := Decimal.exists_digit n.val.natAbs
      refine ⟨d, ds, hdigits, isBlank_of_digit hd, ?_⟩
      rintro rfl
      exact absurd hd (by decide)
  | float x => exact absurd rfl (h x)
  | string s => exact ⟨_, _, rfl, rfl, by decide⟩
  | array items => exact ⟨_, _, rfl, rfl, by decide⟩
  | object members => exact ⟨_, _, rfl, rfl, by decide⟩

/-! ### Arrays and objects -/

/-- What begins as a document does is not passed over and no closing bracket. -/
theorem skipBlanks_chars {d : Json} (h : ∀ x, d ≠ .float x) (cs : List Char) :
    ∀ rest, skipBlanks (chars sp d ++ cs) ≠ ']' :: rest := by
  obtain ⟨c, behind, hchars, hblank, hbracket⟩ := chars_eq_cons d h
  intro rest hskip
  rw [hchars, List.cons_append, skipBlanks, List.dropWhile_cons_of_neg (by simp [hblank])] at hskip
  exact hbracket (List.cons.inj hskip).1

/-- An array with items is its items. -/
theorem readValue?_items (h : ∀ rest, skipBlanks cs ≠ ']' :: rest) :
    readValue? (steps + 1) ('[' :: cs)
      = (readItems? steps cs).map fun (items, tail) => (.array items, tail) := by
  have hskip : skipBlanks ('[' :: cs) = '[' :: cs := rfl
  rw [readValue?, hskip]
  split
  case h_6 rest hrest =>
    obtain rfl : cs = rest := (List.cons.inj hrest).2
    split
    case h_1 rest hrest => exact absurd hrest (h rest)
    case h_2 => rfl
  -- no other value begins with this bracket
  all_goals simp_all

/-- Adding a member whose name is behind all others puts it at the end. -/
theorem insertMember_append {members : List (String × Json)} {name : String} (value : Json)
    (h : ∀ m ∈ members, m.1 < name) :
    insertMember name value members = members ++ [(name, value)] := by
  induction members with
  | nil => rfl
  | cons m members ih =>
    obtain ⟨other, old⟩ := m
    obtain ⟨hother, hrest⟩ := List.forall_mem_cons.mp h
    have hlt : ¬ name < other := String.lt_asymm hother
    have hne : name ≠ other := by
      rintro rfl
      exact String.lt_irrefl _ hother
    rw [insertMember, if_neg hlt, if_neg hne, ih hrest]
    rfl

/-- Members in the order of their names are in their places. -/
theorem foldl_insertMember {sorted members : List (String × Json)}
    (h : ((sorted ++ members).map Prod.fst).Pairwise (· < ·)) :
    members.foldl (fun sorted (name, value) => insertMember name value sorted) sorted
      = sorted ++ members := by
  induction members generalizing sorted with
  | nil => exact (List.append_nil sorted).symm
  | cons m members ih =>
    obtain ⟨name, value⟩ := m
    have hbefore : ∀ m ∈ sorted, m.1 < name := by
      intro m hm
      rw [List.map_append, List.pairwise_append] at h
      exact h.2.2 m.1 (List.mem_map_of_mem hm) name List.mem_cons_self
    show members.foldl _ (insertMember name value sorted) = _
    rw [insertMember_append value hbefore, ih (by simpa using h)]
    simp

/-- Members in order stay as they are when they are put in order. -/
theorem ofMembers_ordered {members : List (String × Json)}
    (h : (members.map Prod.fst).Pairwise (· < ·)) : ofMembers members = .object members := by
  rw [ofMembers, foldl_insertMember (by simpa using h), List.nil_append]

/-- A name is read back, and its value is read from behind the colon. -/
theorem readMembers?_member (hsp : Legible sp) {name : String} (hname : sp.Keeps name)
    (cs : List Char) :
    readMembers? (steps + 1) (quoted sp name ++ (sp.colon ++ cs))
      = (readValue? steps cs).bind fun (value, rest) =>
          match skipBlanks rest with
          | ',' :: rest =>
            (readMembers? steps rest).map fun (members, tail) => ((name, value) :: members, tail)
          | '}' :: tail => some ([(name, value)], tail)
          | _ => none := by
  obtain ⟨blanks, hcolon, hblanks⟩ := hsp.colon
  have hname := hname (':' :: (blanks ++ cs))
  have hchars : quoted sp name ++ (sp.colon ++ cs)
      = '"' :: (name.toList.flatMap sp.character ++ '"' :: ':' :: (blanks ++ cs)) := by
    simp [quoted, hcolon]
  have hskip : ∀ cs, skipBlanks ('"' :: cs) = '"' :: cs := fun _ => rfl
  have hcolon : ∀ cs, skipBlanks (':' :: cs) = ':' :: cs := fun _ => rfl
  rw [hchars, readMembers?, hskip]
  simp only [hname, Option.bind_eq_bind, Option.bind_some, hcolon, String.ofList_toList]
  exact congrArg (Option.bind · _) (readValue?_blanks hblanks steps cs)

/-- Items begin with the first one. -/
theorem itemChars_cons (sp : Spelling) (item : Json) (rest : List Json) :
    ∃ more, itemChars sp (item :: rest) = chars sp item ++ more := by
  cases rest with
  | nil => exact ⟨[], (List.append_nil _).symm⟩
  | cons next rest => exact ⟨_, List.append_assoc ..⟩

/-- Members begin with a quotation mark. -/
theorem memberChars_cons (sp : Spelling) (member : String × Json) (rest : List (String × Json)) :
    ∃ more, memberChars sp (member :: rest) = '"' :: more := by
  cases rest with
  | nil => exact ⟨_, rfl⟩
  | cons next rest => exact ⟨_, rfl⟩

/-- What is written of a document, floating-point numbers apart, is not empty. -/
theorem length_pos_of_chars {d : Json} (h : ∀ x, d ≠ .float x) :
    0 < (chars sp d).length := by
  obtain ⟨c, cs, hchars, -⟩ := chars_eq_cons d h
  rw [hchars]
  exact Nat.zero_lt_succ _

mutual

/-- **Values.** A document is read back from the beginning of a text that goes on as a document
    does, in no more steps than twice its length. -/
theorem readValue?_chars (hsp : Legible sp) : (d : Json) → Readable sp d.parts d.strings →
    ∀ {steps tail}, 2 * (chars sp d).length ≤ steps + 1 → Ends tail →
      readValue? (steps + 1) (chars sp d ++ tail) = some (d, tail)
  | .null, _, _, _, _, _ => rfl
  | .bool true, _, _, _, _, _ => rfl
  | .bool false, _, _, _, _, _ => rfl
  | .whole n, _, _, _, _, htail => readValue?_whole n htail
  | .float x, h, _, _, _, _ => absurd List.mem_cons_self (h.floatFree x)
  | .string s, h, steps, tail, _, _ => by
    have hstring := h.keeps s List.mem_cons_self tail
    have hchars : chars sp (.string s) ++ tail
        = '"' :: (s.toList.flatMap sp.character ++ '"' :: tail) := by
      simp [chars, quoted]
    rw [hchars]
    show (readString? _).map _ = _
    rw [hstring]
    exact congrArg (fun text => some (Json.string text, tail)) String.ofList_toList
  | .array [], _, _, _, _, _ => rfl
  | .array (item :: rest), h, steps, tail, hsteps, _ => by
    have hitems : Readable sp (itemParts (item :: rest)) (itemStrings (item :: rest)) :=
      h.subset (List.subset_cons_self _ _) (List.Subset.refl _)
    have hchars : chars sp (.array (item :: rest)) ++ tail
        = '[' :: (itemChars sp (item :: rest) ++ ']' :: tail) := by
      simp [chars]
    have hlength : (chars sp (.array (item :: rest))).length
        = (itemChars sp (item :: rest)).length + 2 := by
      simp [chars]
    -- a step for the value and one for the list in it
    obtain ⟨k, rfl⟩ : ∃ k, steps = k + 1 := ⟨steps - 1, by omega⟩
    obtain ⟨more, hmore⟩ := itemChars_cons sp item rest
    have hskip : ∀ behind, skipBlanks (itemChars sp (item :: rest) ++ ']' :: tail)
        ≠ ']' :: behind := by
      rw [hmore, List.append_assoc]
      exact skipBlanks_chars (Readable.left hitems).ne_float _
    rw [hchars, readValue?_items hskip,
      readItems?_chars hsp (item :: rest) hitems (List.cons_ne_nil _ _) (by omega)]
    rfl
  | .object [], _, _, _, _, _ => rfl
  | .object (member :: rest), h, steps, tail, hsteps, _ => by
    have hall : Readable sp (memberParts (member :: rest)) (memberStrings (member :: rest)) :=
      h.subset (List.subset_cons_self _ _) (List.Subset.refl _)
    have hordered := h.ordered (member :: rest) List.mem_cons_self
    have hchars : chars sp (.object (member :: rest)) ++ tail
        = '{' :: (memberChars sp (member :: rest) ++ '}' :: tail) := by
      simp [chars]
    have hlength : (chars sp (.object (member :: rest))).length
        = (memberChars sp (member :: rest)).length + 2 := by
      simp [chars]
    obtain ⟨k, rfl⟩ : ∃ k, steps = k + 1 := ⟨steps - 1, by omega⟩
    have hmembers : readMembers? (k + 1) (memberChars sp (member :: rest) ++ '}' :: tail)
        = some (member :: rest, tail) :=
      readMembers?_chars hsp (member :: rest) hall (List.cons_ne_nil _ _) (by omega)
    obtain ⟨more, hmore⟩ := memberChars_cons sp member rest
    rw [hchars]
    rw [hmore] at hmembers ⊢
    show (readMembers? (k + 1) _).map _ = _
    rw [hmembers]
    exact congrArg (fun d => some (d, tail)) (ofMembers_ordered hordered)

/-- Items are read back, up to the bracket behind the last one. -/
theorem readItems?_chars (hsp : Legible sp) : (items : List Json) →
    Readable sp (itemParts items) (itemStrings items) → items ≠ [] →
    ∀ {steps tail}, 2 * (itemChars sp items).length ≤ steps →
      readItems? (steps + 1) (itemChars sp items ++ ']' :: tail) = some (items, tail)
  | [], _, hne, _, _, _ => absurd rfl hne
  | [item], h, _, steps, tail, hsteps => by
    have hitem : Readable sp item.parts item.strings := h.left
    have hlength : 0 < (chars sp item).length := length_pos_of_chars hitem.ne_float
    have hchars : itemChars sp [item] = chars sp item := rfl
    rw [hchars] at hsteps ⊢
    obtain ⟨k, rfl⟩ : ∃ k, steps = k + 1 := ⟨steps - 1, by omega⟩
    rw [readItems?, readValue?_chars hsp item hitem (by omega) (Ends.cons (by simp))]
    rfl
  | item :: next :: rest, h, _, steps, tail, hsteps => by
    have hitem : Readable sp item.parts item.strings := h.left
    have hrest : Readable sp (itemParts (next :: rest)) (itemStrings (next :: rest)) := h.right
    obtain ⟨blanks, hseparator, hblanks⟩ := hsp.separator
    have hchars : itemChars sp (item :: next :: rest)
        = chars sp item ++ ',' :: (blanks ++ itemChars sp (next :: rest)) := by
      rw [itemChars, List.append_assoc, hseparator]
      · rfl
      · exact List.cons_ne_nil _ _
    rw [hchars] at hsteps ⊢
    simp only [List.length_append, List.length_cons] at hsteps
    obtain ⟨k, rfl⟩ : ∃ k, steps = k + 1 := ⟨steps - 1, by omega⟩
    have hlater : readItems? (k + 1) (blanks ++ (itemChars sp (next :: rest) ++ ']' :: tail))
        = some (next :: rest, tail) := by
      rw [readItems?_blanks hblanks]
      exact readItems?_chars hsp (next :: rest) hrest (List.cons_ne_nil _ _) (by omega)
    rw [List.append_assoc, List.cons_append, List.append_assoc, readItems?,
      readValue?_chars hsp item hitem (by omega) (Ends.cons (by simp))]
    show (readItems? (k + 1) _).map _ = _
    rw [hlater]
    rfl

/-- Members are read back, up to the brace behind the last one. -/
theorem readMembers?_chars (hsp : Legible sp) : (members : List (String × Json)) →
    Readable sp (memberParts members) (memberStrings members) → members ≠ [] →
    ∀ {steps tail}, 2 * (memberChars sp members).length ≤ steps →
      readMembers? (steps + 1) (memberChars sp members ++ '}' :: tail) = some (members, tail)
  | [], _, hne, _, _, _ => absurd rfl hne
  | [(name, value)], h, _, steps, tail, hsteps => by
    have hname : sp.Keeps name := h.keeps name List.mem_cons_self
    have hvalue : Readable sp value.parts value.strings :=
      (h.subset (List.Subset.refl _) (List.subset_cons_self _ _)).left
    have hlength : 0 < (chars sp value).length := length_pos_of_chars hvalue.ne_float
    have hchars : memberChars sp [(name, value)]
        = quoted sp name ++ (sp.colon ++ chars sp value) := List.append_assoc ..
    rw [hchars] at hsteps ⊢
    simp only [List.length_append] at hsteps
    -- a step for the member and one for its value
    obtain ⟨k, rfl⟩ : ∃ k, steps = k + 1 := ⟨steps - 1, by omega⟩
    rw [List.append_assoc, List.append_assoc, readMembers?_member hsp hname,
      readValue?_chars hsp value hvalue (by omega) (Ends.cons (by simp))]
    rfl
  | (name, value) :: next :: rest, h, _, steps, tail, hsteps => by
    have hname : sp.Keeps name := h.keeps name List.mem_cons_self
    have hbehind := h.subset (List.Subset.refl _) (List.subset_cons_self _ _)
    have hvalue : Readable sp value.parts value.strings := hbehind.left
    have hrest : Readable sp (memberParts (next :: rest)) (memberStrings (next :: rest)) :=
      hbehind.right
    obtain ⟨blanks, hseparator, hblanks⟩ := hsp.separator
    have hchars : memberChars sp ((name, value) :: next :: rest)
        = quoted sp name ++ (sp.colon ++ (chars sp value
          ++ ',' :: (blanks ++ memberChars sp (next :: rest)))) := by
      rw [memberChars]
      · simp [hseparator]
      · exact List.cons_ne_nil _ _
    rw [hchars] at hsteps ⊢
    simp only [List.length_append, List.length_cons] at hsteps
    obtain ⟨k, rfl⟩ : ∃ k, steps = k + 1 := ⟨steps - 1, by omega⟩
    have hlater : readMembers? (k + 1)
        (blanks ++ (memberChars sp (next :: rest) ++ '}' :: tail)) = some (next :: rest, tail) := by
      rw [readMembers?_blanks hblanks]
      exact readMembers?_chars hsp (next :: rest) hrest (List.cons_ne_nil _ _) (by omega)
    rw [List.append_assoc, List.append_assoc, List.append_assoc, List.cons_append,
      List.append_assoc, readMembers?_member hsp hname,
      readValue?_chars hsp value hvalue (by omega) (Ends.cons (by simp))]
    show (readMembers? (k + 1) _).map _ = _
    rw [hlater]
    rfl

end

/-- The text of a document is read back. -/
theorem read?_write (hsp : Legible sp) {d : Json} (h : Readable sp d.parts d.strings) :
    read? (write sp d) = some d := by
  have htext : (write sp d).toList = chars sp d := String.toList_ofList
  have hread : readValue? (2 * (chars sp d).length + 1 + 1) (chars sp d ++ [])
      = some (d, []) := readValue?_chars hsp d h (by omega) Ends.nil
  rw [List.append_nil] at hread
  simp only [read?, htext, hread]
  rfl

/-! ## Characters -/

/-- The characters of words, quotation marks and brackets. -/
def marks : List Char := ['n', 'u', 'l', 't', 'r', 'e', 'f', 'a', 's', '"', '[', ']', '{', '}']

/-- The characters of everything in a document that is not inside a string. -/
def Spelling.signs (sp : Spelling) : List Char :=
  marks ++ Decimal.numerals ++ sp.separator ++ sp.colon

section Characters

variable {sp : Spelling} {P : Char → Prop}

/-- The marks of a document are among its signs. -/
theorem sign_of_mark {c : Char} (hc : c ∈ marks) : c ∈ sp.signs :=
  List.mem_append_left _ (List.mem_append_left _ (List.mem_append_left _ hc))

theorem sign_of_numeral {c : Char} (hc : c ∈ Decimal.numerals) : c ∈ sp.signs :=
  List.mem_append_left _ (List.mem_append_left _ (List.mem_append_right _ hc))

/-- What holds of all signs, and of how the characters of a string are written, holds of a string
    between quotes. -/
theorem forall_mem_quoted (hsigns : ∀ c ∈ sp.signs, P c) {s : String}
    (h : ∀ c ∈ s.toList, ∀ e ∈ sp.character c, P e) : ∀ c ∈ quoted sp s, P c := by
  have hquote : P '"' := hsigns '"' (sign_of_mark (by decide))
  simp only [quoted, List.cons_append, List.forall_mem_cons, List.forall_mem_append]
  refine ⟨hquote, ?_, hquote, List.forall_mem_nil _⟩
  intro e he
  obtain ⟨c, hc, hmem⟩ := List.mem_flatMap.mp he
  exact h c hc e hmem

mutual

/-- What holds of all that the characters of the strings of a document are written with, and of what
    else there is in one, holds of all characters of its text. -/
theorem forall_mem_chars (hsigns : ∀ c ∈ sp.signs, P c) : (d : Json) →
    (∀ s ∈ d.strings, ∀ c ∈ s.toList, ∀ e ∈ sp.character c, P e) → ∀ c ∈ chars sp d, P c
  | .null, _ => by
    have hword : ['n', 'u', 'l', 'l'] ⊆ marks := by decide
    exact fun c hc => hsigns c (sign_of_mark (hword hc))
  | .bool true, _ => by
    have hword : ['t', 'r', 'u', 'e'] ⊆ marks := by decide
    exact fun c hc => hsigns c (sign_of_mark (hword hc))
  | .bool false, _ => by
    have hword : ['f', 'a', 'l', 's', 'e'] ⊆ marks := by decide
    exact fun c hc => hsigns c (sign_of_mark (hword hc))
  | .whole n, _ => fun c hc => hsigns c (sign_of_numeral (Decimal.int_subset n.val hc))
  | .float x, _ => by
    intro c hc
    rw [chars] at hc
    split at hc
    · exact hsigns c (sign_of_numeral (Decimal.write_subset _ x hc))
    · have hword : ['n', 'u', 'l', 'l'] ⊆ marks := by decide
      exact hsigns c (sign_of_mark (hword hc))
  | .string s, h => forall_mem_quoted hsigns (h s List.mem_cons_self)
  | .array items, h => by
    simp only [chars, List.cons_append, List.forall_mem_cons, List.forall_mem_append]
    exact ⟨hsigns _ (sign_of_mark (by decide)), forall_mem_itemChars hsigns items h,
      hsigns _ (sign_of_mark (by decide)), List.forall_mem_nil _⟩
  | .object members, h => by
    simp only [chars, List.cons_append, List.forall_mem_cons, List.forall_mem_append]
    exact ⟨hsigns _ (sign_of_mark (by decide)), forall_mem_memberChars hsigns members h,
      hsigns _ (sign_of_mark (by decide)), List.forall_mem_nil _⟩

/-- And so of items. -/
theorem forall_mem_itemChars (hsigns : ∀ c ∈ sp.signs, P c) : (items : List Json) →
    (∀ s ∈ itemStrings items, ∀ c ∈ s.toList, ∀ e ∈ sp.character c, P e) →
      ∀ c ∈ itemChars sp items, P c
  | [], _ => List.forall_mem_nil _
  | [item], h => forall_mem_chars hsigns item fun s hs => h s (List.mem_append_left _ hs)
  | item :: next :: rest, h => by
    have hitem := forall_mem_chars hsigns item fun s hs => h s (List.mem_append_left _ hs)
    have hrest := forall_mem_itemChars hsigns (next :: rest) fun s hs =>
      h s (List.mem_append_right _ hs)
    have hseparator : ∀ c ∈ sp.separator, P c := fun c hc =>
      hsigns c (List.mem_append_left _ (List.mem_append_right _ hc))
    rw [itemChars]
    · simp only [List.forall_mem_append]
      exact ⟨⟨hitem, hseparator⟩, hrest⟩
    · exact List.cons_ne_nil _ _

/-- And so of members. -/
theorem forall_mem_memberChars (hsigns : ∀ c ∈ sp.signs, P c) :
    (members : List (String × Json)) →
    (∀ s ∈ memberStrings members, ∀ c ∈ s.toList, ∀ e ∈ sp.character c, P e) →
      ∀ c ∈ memberChars sp members, P c
  | [], _ => List.forall_mem_nil _
  | [(name, value)], h => by
    obtain ⟨hname, hstrings⟩ := List.forall_mem_cons.mp h
    have hvalue := forall_mem_chars hsigns value fun s hs =>
      hstrings s (List.mem_append_left _ hs)
    have hcolon : ∀ c ∈ sp.colon, P c := fun c hc => hsigns c (List.mem_append_right _ hc)
    rw [memberChars]
    simp only [List.forall_mem_append]
    exact ⟨⟨forall_mem_quoted hsigns hname, hcolon⟩, hvalue⟩
  | (name, value) :: next :: rest, h => by
    obtain ⟨hname, hstrings⟩ := List.forall_mem_cons.mp h
    have hvalue := forall_mem_chars hsigns value fun s hs =>
      hstrings s (List.mem_append_left _ hs)
    have hrest := forall_mem_memberChars hsigns (next :: rest) fun s hs =>
      hstrings s (List.mem_append_right _ hs)
    have hcolon : ∀ c ∈ sp.colon, P c := fun c hc => hsigns c (List.mem_append_right _ hc)
    have hseparator : ∀ c ∈ sp.separator, P c := fun c hc =>
      hsigns c (List.mem_append_left _ (List.mem_append_right _ hc))
    rw [memberChars]
    · simp only [List.forall_mem_append]
      exact ⟨⟨⟨⟨forall_mem_quoted hsigns hname, hcolon⟩, hvalue⟩, hseparator⟩, hrest⟩
    · exact List.cons_ne_nil _ _

end

end Characters

/-! ## ASCII -/

/-- Whether all characters are ASCII. -/
def Ascii (cs : List Char) : Prop := ∀ c ∈ cs, c.toNat < 128

theorem Ascii.nil : Ascii [] := List.forall_mem_nil _

/-- An escape is written in ASCII. -/
theorem ascii_unitEscape (n : Nat) : Ascii (unitEscape n) := by
  have hdigit : ∀ m < 16, (hexDigit m).toNat < 128 := by decide
  have hmod : ∀ m, (hexDigit (m % 16)).toNat < 128 :=
    fun m => hdigit _ (Nat.mod_lt m (by decide))
  simp only [Ascii, unitEscape, List.forall_mem_cons]
  exact ⟨by decide, by decide, hmod _, hmod _, hmod _, hmod _, Ascii.nil⟩

/-- Whatever a character is, it is written in ASCII. -/
theorem ascii_asciiEscaped (c : Char) : Ascii (asciiEscaped c) := by
  have htwo : ∀ letter : Char, letter.toNat < 128 → Ascii ['\\', letter] := by
    intro letter hletter
    simp only [Ascii, List.forall_mem_cons]
    exact ⟨by decide, hletter, Ascii.nil⟩
  rw [asciiEscaped]
  split
  case isTrue hascii =>
    rw [escaped]
    repeat' split
    all_goals first
      | exact htwo _ (by decide)
      | exact ascii_unitEscape _
      | exact List.forall_mem_singleton.mpr hascii
  case isFalse =>
    intro d hd
    obtain ⟨unit, -, hunit⟩ := List.mem_flatMap.mp hd
    exact ascii_unitEscape unit d hunit

/-- The text of a document is ASCII only. -/
theorem ascii_chars (d : Json) : Ascii (chars spaced d) := by
  have hsigns : Ascii spaced.signs := by
    have hall : (spaced.signs.all fun c => decide (c.toNat < 128)) = true := by decide +kernel
    exact fun c hc => of_decide_eq_true (List.all_eq_true.mp hall c hc)
  exact forall_mem_chars hsigns d fun _ _ c _ => ascii_asciiEscaped c

/-! ## Separators -/

/-- Items stand between separators. -/
theorem itemChars_eq (sp : Spelling) (items : List Json) :
    itemChars sp items = sp.separator.intercalate (items.map (chars sp)) := by
  induction items with
  | nil => rfl
  | cons item rest ih =>
    cases rest with
    | nil => simp [itemChars]
    | cons next rest =>
      rw [List.map_cons, List.intercalate_cons_of_ne_nil (by simp), ← ih]
      rfl

/-- Members stand between separators, each a name, a colon and a value. -/
theorem memberChars_eq (sp : Spelling) (members : List (String × Json)) :
    memberChars sp members
      = sp.separator.intercalate
          (members.map fun (name, value) => quoted sp name ++ sp.colon ++ chars sp value) := by
  induction members with
  | nil => rfl
  | cons member rest ih =>
    cases rest with
    | nil => simp [memberChars]
    | cons next rest =>
      rw [List.map_cons, List.intercalate_cons_of_ne_nil (by simp), ← ih]
      rfl

end Json

/-! ## Texts -/

namespace Value

/-- The text of a document is the characters of the document, spaced out. -/
theorem jsonText_toList (d : Json) : (Value.json d).jsonText.toList = Json.chars Json.spaced d := by
  rw [jsonText, Json.write, String.toList_ofList]
  rfl

/-- An array is written as the texts of its items with commas, between brackets. -/
theorem jsonText_array (items : List Json) :
    (Value.json (.array items)).jsonText
      = "[" ++ ", ".intercalate (items.map fun item => (Value.json item).jsonText) ++ "]" := by
  have hitems : (items.map fun item => (Value.json item).jsonText).map String.toList
      = items.map (Json.chars Json.spaced) := by
    simp [jsonText_toList]
  rw [← String.toList_inj, jsonText_toList, String.toList_append, String.toList_append,
    String.toList_intercalate, hitems]
  exact congrArg (fun cs => '[' :: cs ++ [']']) (Json.itemChars_eq Json.spaced items)

/-- An object is written as names and texts with colons and commas, between braces. -/
theorem jsonText_object (members : List (String × Json)) :
    (Value.json (.object members)).jsonText
      = "\x7b" ++ ", ".intercalate (members.map fun (name, value) =>
          (Value.json (.string name)).jsonText ++ ": " ++ (Value.json value).jsonText)
        ++ "\x7d" := by
  have hmembers : (members.map fun (name, value) => (Value.json (.string name)).jsonText ++ ": "
          ++ (Value.json value).jsonText).map String.toList
      = members.map fun (name, value) =>
          Json.quoted Json.spaced name ++ Json.spaced.colon ++ Json.chars Json.spaced value := by
    rw [List.map_map]
    refine List.map_congr_left fun member _ => ?_
    obtain ⟨name, value⟩ := member
    show (_ ++ _ ++ _ : String).toList = _
    rw [String.toList_append, String.toList_append, jsonText_toList, jsonText_toList]
    rfl
  rw [← String.toList_inj, jsonText_toList, String.toList_append, String.toList_append,
    String.toList_intercalate, hmembers]
  exact congrArg (fun cs => '{' :: cs ++ ['}']) (Json.memberChars_eq Json.spaced members)

/-- **Reading back.** The text of a document without floating-point numbers is ASCII only, has a
    comma and a blank between items and between members and a colon and a blank between a name and
    its value, and is read back as the document. -/
theorem read_jsonText {d : Json} (hfloats : d.FloatFree) (hordered : d.Ordered) :
    (∀ c ∈ (Value.json d).jsonText.toList, c.toNat < 128)
      ∧ (∀ items, d = .array items → (Value.json d).jsonText
          = "[" ++ ", ".intercalate (items.map fun item => (Value.json item).jsonText) ++ "]")
      ∧ (∀ members, d = .object members → (Value.json d).jsonText
          = "\x7b" ++ ", ".intercalate (members.map fun (name, value) =>
              (Value.json (.string name)).jsonText ++ ": " ++ (Value.json value).jsonText)
            ++ "\x7d")
      ∧ Json.read? (Value.json d).jsonText = some d := by
  have hreadable : Json.Readable Json.spaced d.parts d.strings :=
    ⟨hfloats, hordered, fun s _ => Json.keeps_spaced s⟩
  refine ⟨?_, ?_, ?_, Json.read?_write Json.legible_spaced hreadable⟩
  · rw [jsonText_toList]
    exact Json.ascii_chars d
  · rintro items rfl
    exact jsonText_array items
  · rintro members rfl
    exact jsonText_object members

/-- A document with a number below zero, a character of two units, an escape and nothing in an
    object. -/
def nestedDocument : Json :=
  .object [("a", .array [.whole (.ofInt64 (-10)), .string "\"é😀\n"]), ("b", .object [])]

/-- A document with all kinds of escapes is read back. -/
theorem read_jsonText_nested :
    (Value.json nestedDocument).jsonText
        = "\x7b\"a\": [-10, \"\\\"\\u00e9\\ud83d\\ude00\\n\"], \"b\": \x7b\x7d\x7d"
      ∧ nestedDocument.FloatFree ∧ nestedDocument.Ordered
      ∧ Json.read? (Value.json nestedDocument).jsonText = some nestedDocument := by
  have hfloats : nestedDocument.FloatFree := by
    intro x
    simp [nestedDocument, Json.parts, Json.memberParts, Json.itemParts]
  have hordered : nestedDocument.Ordered := by
    intro members hmembers
    simp only [nestedDocument, Json.parts, Json.memberParts, Json.itemParts, List.mem_cons,
      List.mem_append, List.not_mem_nil, Json.object.injEq, reduceCtorEq, or_false,
      false_or] at hmembers
    rcases hmembers with rfl | rfl <;> decide
  obtain ⟨-, -, -, hread⟩ := read_jsonText hfloats hordered
  exact ⟨by decide +kernel, hfloats, hordered, hread⟩

end Value

end SqlCompose
