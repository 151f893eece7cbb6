import SqlCompose.Proofs.DocumentReading
import SqlCompose.Proofs.FailedRenders
import SqlCompose.Term.Build

/-! # Document terms — which documents are read back from the literals that they are written as

    A JSON document in a statement is written without escapes and put between quotes as it is. So
    its text has as many characters as the document has, and two more for each string. A reader
    cannot get the document out of a shorter text: a quotation mark, a backslash or a control
    character in a string takes two characters or more, and so does a quote in the literal around
    the text. Nothing of this is written twice, so a document with one of them is not read back, and
    every other one is.

    * `Json.IsPlain` — the characters that stand for themselves.
    * `Json.room` — how many characters a document takes at least, one that is not plain counted
      twice.
    * `Json.room_readValue?` — a reader takes no fewer characters than the room of what it reads.
    * `Json.room_eq` — the room of a document is the length of its text and one more for each
      character that is not plain.
    * `Term.document_read_iff` — the theorem. -/

namespace SqlCompose

namespace Json

/-! ## Room -/

/-- Whether a character stands for itself, inside a JSON string and between quotes. -/
def isPlain (c : Char) : Bool := c != '\'' && c != '"' && c != '\\' && decide (32 ≤ c.toNat)

/-- The number of characters in a list that are not plain. -/
def blemishes (cs : List Char) : Nat := cs.countP fun c => !isPlain c

/-- The length of a text, a quote counted twice. -/
def size (cs : List Char) : Nat := cs.length + cs.count '\''

/-- How many characters a string takes at least. -/
def stringRoom (s : String) : Nat := s.toList.length + blemishes s.toList + 2

mutual

/-- How many characters a document takes at least; floating-point numbers are left out of the
    count. -/
def room : Json → Nat
  | .null | .bool true => 4
  | .bool false => 5
  | .whole n => (toString n.val).toList.length
  | .float _ => 0
  | .string s => stringRoom s
  | .array items => max 1 (itemRoom items) + 1
  | .object members => max 1 (memberRoom members) + 1

/-- How many characters items take at least, with what stands behind each of them. -/
def itemRoom : List Json → Nat
  | [] => 0
  | item :: rest => item.room + 1 + itemRoom rest

/-- How many characters members take at least, with what stands behind each of them. -/
def memberRoom : List (String × Json) → Nat
  | [] => 0
  | (name, value) :: rest => stringRoom name + 1 + value.room + 1 + memberRoom rest

end

/-- A character counts once, and an apostrophe twice. -/
theorem size_cons (c : Char) (cs : List Char) : size (c :: cs) = size cs + 1 + [c].count '\'' := by
  have hcount : ([c] ++ cs).count '\'' = [c].count '\'' + cs.count '\'' := List.count_append
  show (cs.length + 1) + ([c] ++ cs).count '\'' = cs.length + cs.count '\'' + 1 + _
  omega

/-- There is less of a text behind its first character. -/
theorem size_lt_cons (c : Char) (cs : List Char) : size cs < size (c :: cs) := by
  rw [size_cons]
  omega

/-- The sizes of two texts add up. -/
theorem size_append (cs ds : List Char) : size (cs ++ ds) = size cs + size ds := by
  simp only [size, List.length_append, List.count_append]
  omega

theorem length_le_size (cs : List Char) : cs.length ≤ size cs := Nat.le_add_right _ _

/-- Less is left when characters in front are dropped. -/
theorem size_dropWhile_le (P : Char → Bool) (cs : List Char) : size (cs.dropWhile P) ≤ size cs := by
  have hsplit : size (cs.takeWhile P) + size (cs.dropWhile P) = size cs := by
    rw [← size_append, List.takeWhile_append_dropWhile]
  omega

theorem size_skipBlanks_le (cs : List Char) : size (skipBlanks cs) ≤ size cs :=
  size_dropWhile_le isBlank cs

/-- What is behind the first character that is not a blank takes less room. -/
theorem size_lt_of_skipBlanks {cs rest : List Char} {c : Char} (h : skipBlanks cs = c :: rest) :
    size rest < size cs :=
  Nat.lt_of_lt_of_le (h ▸ size_lt_cons c rest) (size_skipBlanks_le cs)

/-! ## What a reader takes -/

/-- A character that is not plain is a blemish. -/
theorem blemishes_cons (c : Char) (cs : List Char) :
    blemishes (c :: cs) = blemishes cs + if isPlain c then 0 else 1 := by
  simp only [blemishes, List.countP_cons]
  cases isPlain c <;> rfl

/-- A character of a string, and what it is read from. -/
theorem room_character {c : Char} {cs rest text tail : List Char}
    (h : ((readString? rest).map fun (text, tail) => (c :: text, tail)) = some (text, tail))
    (ih : ∀ {text}, readString? rest = some (text, tail) →
      text.length + blemishes text + 1 + size tail ≤ size rest)
    (hfront : size rest + 1 + (if isPlain c then 0 else 1) ≤ size cs) :
    text.length + blemishes text + 1 + size tail ≤ size cs := by
  obtain ⟨⟨read, left⟩, hread, heq⟩ := Option.map_eq_some_iff.mp h
  obtain ⟨rfl, rfl⟩ := Prod.mk.inj heq
  have hle := ih hread
  rw [blemishes_cons, List.length_cons]
  omega

/-- An escape has more than one character. -/
theorem room_escape (c letter : Char) (rest : List Char) :
    size rest + 1 + (if isPlain c then 0 else 1) ≤ size ('\\' :: letter :: rest) := by
  have hfirst := size_lt_cons '\\' (letter :: rest)
  have hsecond := size_lt_cons letter rest
  split <;> omega

/-- A character that is written as itself is not plain if it is a quote only. -/
theorem room_itself {c : Char} (hquote : c ≠ '"') (hallowed : ¬ (c.toNat < 32 || c == '\\') = true)
    (rest : List Char) : size rest + 1 + (if isPlain c then 0 else 1) ≤ size (c :: rest) := by
  rw [size_cons]
  by_cases hc : c = '\''
  · subst hc
    exact Nat.le_refl _
  · have hplain : isPlain c = true := by
      simp only [Bool.or_eq_true, decide_eq_true_eq, beq_iff_eq, not_or, Nat.not_lt] at hallowed
      simp [isPlain, hc, hquote, hallowed]
    rw [if_pos hplain]
    omega

/-- The characters of a string take no more room than what they are read from. -/
theorem room_readString? {cs text tail : List Char} (h : readString? cs = some (text, tail)) :
    text.length + blemishes text + 1 + size tail ≤ size cs := by
  fun_induction readString? cs generalizing text with
  | case1 | case3 | case5 | case6 | case8 | case9 | case11 | case12 => exact nomatch h
  | case2 rest =>
    obtain ⟨rfl, rfl⟩ := Prod.mk.inj (Option.some.inj h)
    have hquote := size_lt_cons '"' rest
    simp only [List.length_nil, blemishes, List.countP_nil]
    omega
  | case4 a b c d rest n hn hone ih =>
    refine room_character h ih (Nat.le_trans (room_escape _ d rest) ?_)
    simp only [size_cons]
    omega
  | case7 a b c d n hn hpair hhigh e f g i rest m hm hlow ih =>
    refine room_character h ih (Nat.le_trans (room_escape _ i rest) ?_)
    simp only [size_cons]
    omega
  | case10 letter rest hletter c hc ih => exact room_character h ih (room_escape c letter rest)
  | case13 c rest hquote hunit hshort hallowed ih =>
    exact room_character h ih (room_itself hquote hallowed rest)

/-! ### Numbers -/

/-- Digits are taken off the front, at least one. -/
theorem wholeDigits?_split {cs digits rest : List Char}
    (h : wholeDigits? cs = some (digits, rest)) : digits ≠ [] ∧ digits ++ rest = cs := by
  have hsplit : cs.takeWhile Decimal.isDigit ++ cs.dropWhile Decimal.isDigit = cs :=
    List.takeWhile_append_dropWhile
  simp only [wholeDigits?] at h
  split at h
  · cases h
  · cases h
  next hne _ =>
    obtain ⟨rfl, rfl⟩ := Prod.mk.inj (Option.some.inj h)
    exact ⟨hne, hsplit⟩

/-- Decimal places leave no more than there was. -/
theorem size_places? {cs digits rest : List Char} (h : places? cs = some (digits, rest)) :
    size rest ≤ size cs := by
  simp only [places?] at h
  split at h
  next tail =>
    split at h
    · exact nomatch h
    · obtain ⟨-, rfl⟩ := Prod.mk.inj (Option.some.inj h)
      exact Nat.le_trans (size_dropWhile_le _ tail) (Nat.le_of_lt (size_lt_cons _ tail))
  next =>
    obtain ⟨-, rfl⟩ := Prod.mk.inj (Option.some.inj h)
    exact Nat.le_refl _

/-- Neither does the exponent. -/
theorem size_exponentPart? {cs rest : List Char} {e : Int}
    (h : exponentPart? cs = some (e, rest)) : size rest ≤ size cs := by
  have hsign : size (Decimal.takeSign cs).2 ≤ size cs := by
    rw [Decimal.takeSign.eq_def]
    split
    · exact Nat.le_of_lt (size_lt_cons _ _)
    · exact Nat.le_of_lt (size_lt_cons _ _)
    · exact Nat.le_refl _
  simp only [exponentPart?] at h
  split at h
  · exact nomatch h
  · obtain ⟨-, rfl⟩ := Prod.mk.inj (Option.some.inj h)
    exact Nat.le_trans (size_dropWhile_le _ _) hsign

/-- Nor does the power, whether there is one or not. -/
theorem size_power? {cs rest : List Char} {e : Option Int} (h : power? cs = some (e, rest)) :
    size rest ≤ size cs := by
  have hexponent {c : Char} {tail : List Char}
      (h : ((exponentPart? tail).map fun read => (some read.1, read.2)) = some (e, rest)) :
      size rest ≤ size (c :: tail) := by
    obtain ⟨⟨power, left⟩, hread, heq⟩ := Option.map_eq_some_iff.mp h
    obtain ⟨-, rfl⟩ := Prod.mk.inj heq
    exact Nat.le_trans (size_exponentPart? hread) (Nat.le_of_lt (size_lt_cons _ _))
  simp only [power?] at h
  split at h
  · exact hexponent h
  · exact hexponent h
  · obtain ⟨-, rfl⟩ := Prod.mk.inj (Option.some.inj h)
    exact Nat.le_refl _

theorem val_of_ofInt? {k : Int} {n : WholeNumber} (h : WholeNumber.ofInt? k = some n) :
    n.val = k := by
  rw [WholeNumber.ofInt?] at h
  split at h
  · exact (congrArg WholeNumber.val (Option.some.inj h)).symm
  · exact nomatch h

/-- A whole number takes no more room than its digits and its sign. -/
theorem room_assemble? {negative : Bool} {digits places : List Char} {power : Option Int} {d : Json}
    (hdigits : digits ≠ []) (h : assemble? negative digits places power = some d) :
    d.room ≤ digits.length + if negative then 1 else 0 := by
  simp only [assemble?] at h
  split at h
  next n hfits _ =>
    obtain rfl := Option.some.inj h
    have hval := val_of_ofInt? hfits
    have habs : n.val.natAbs = Decimal.number digits := by
      rw [hval]
      split <;> omega
    have hminus : (if n.val < 0 then ['-'] else []).length ≤ if negative then 1 else 0 := by
      rw [hval]
      cases negative with
      | true => simp only [if_true]; split <;> decide
      | false => rw [if_neg (by simp)]; decide
    have hlength := Decimal.length_toDigits_number_le hdigits
    show (toString n.val).toList.length ≤ _
    rw [Decimal.toString_toList, List.length_append, habs]
    omega
  next =>
    obtain ⟨x, -, rfl⟩ := Option.map_eq_some_iff.mp h
    exact Nat.zero_le _

/-- A number takes no more room than what it is read from, and its sign. -/
theorem room_readNumber? {negative : Bool} {cs tail : List Char} {d : Json}
    (h : readNumber? negative cs = some (d, tail)) :
    d.room + size tail ≤ size cs + if negative then 1 else 0 := by
  simp only [readNumber?, Option.bind_eq_bind, Option.bind_eq_some_iff] at h
  obtain ⟨⟨digits, afterDigits⟩, hdigits, ⟨places, afterPlaces⟩, hplaces, ⟨power, afterPower⟩,
    hpower, value, hvalue, heq⟩ := h
  have heq : some (value, afterPower) = some (d, tail) := heq
  obtain ⟨rfl, rfl⟩ := Prod.mk.inj (Option.some.inj heq)
  obtain ⟨hne, rfl⟩ := wholeDigits?_split hdigits
  have hroom := room_assemble? hne hvalue
  have hplaces : size afterPlaces ≤ size afterDigits := size_places? hplaces
  have hpower : size afterPower ≤ size afterPlaces := size_power? hpower
  have hlength := length_le_size digits
  rw [size_append]
  omega

/-! ### Documents -/

/-- A member that gives way to another one leaves its room. -/
theorem memberRoom_insertMember_le (name : String) (value : Json) (members : List (String × Json)) :
    memberRoom (insertMember name value members) ≤ memberRoom ((name, value) :: members) := by
  induction members with
  | nil => exact Nat.le_refl _
  | cons m members ih =>
    obtain ⟨other, old⟩ := m
    rw [insertMember]
    split
    · exact Nat.le_refl _
    · split
      · simp only [memberRoom]
        omega
      · simp only [memberRoom] at ih ⊢
        omega

/-- Putting members in order makes no room for more of them. -/
theorem memberRoom_foldl_le (sorted members : List (String × Json)) :
    memberRoom (members.foldl (fun sorted (name, value) => insertMember name value sorted) sorted)
      ≤ memberRoom sorted + memberRoom members := by
  induction members generalizing sorted with
  | nil => exact Nat.le_refl _
  | cons m members ih =>
    obtain ⟨name, value⟩ := m
    have hinsert := memberRoom_insertMember_le name value sorted
    refine Nat.le_trans (ih (insertMember name value sorted)) ?_
    simp only [memberRoom] at hinsert ⊢
    omega

/-- An object takes no more room than its members did, and one more. -/
theorem room_ofMembers_le (members : List (String × Json)) :
    (ofMembers members).room ≤ max 1 (memberRoom members) + 1 := by
  have hfold := memberRoom_foldl_le [] members
  rw [memberRoom, Nat.zero_add] at hfold
  have hle := Nat.le_trans hfold (Nat.le_max_right 1 (memberRoom members))
  exact Nat.add_le_add_right (Nat.max_le.mpr ⟨Nat.le_max_left .., hle⟩) 1

/-- In so many steps, whatever is read takes no more room than what it is read from. -/
structure Fits (steps : Nat) : Prop where
  value : ∀ {cs tail : List Char} {d : Json}, readValue? steps cs = some (d, tail) →
    d.room + size tail ≤ size cs
  items : ∀ {cs tail : List Char} {items : List Json}, readItems? steps cs = some (items, tail) →
    max 1 (itemRoom items) + size tail ≤ size cs
  members : ∀ {cs tail : List Char} {members : List (String × Json)},
    readMembers? steps cs = some (members, tail) → max 1 (memberRoom members) + size tail ≤ size cs

namespace Fits

variable {steps : Nat} {cs tail : List Char}

/-- A value that is read needs no more room than the text that is read of it. -/
theorem readValue? (h : Fits steps) {d : Json}
    (hread : Json.readValue? (steps + 1) cs = some (d, tail)) : d.room + size tail ≤ size cs := by
  have hblanks := size_skipBlanks_le cs
  rw [Json.readValue?] at hread
  generalize skipBlanks cs = front at hblanks hread
  refine Nat.le_trans ?_ hblanks
  -- each case loses what it reads: a word, a string, a number, a list or an object
  split at hread
  case h_1 | h_2 | h_3 =>
    obtain ⟨rfl, rfl⟩ := Prod.mk.inj (Option.some.inj hread)
    simp only [room, size_cons]
    omega
  case h_4 rest =>
    obtain ⟨⟨text, left⟩, htext, heq⟩ := Option.map_eq_some_iff.mp hread
    obtain ⟨rfl, rfl⟩ := Prod.mk.inj heq
    have hroom := room_readString? htext
    have hquote := size_lt_cons '"' rest
    simp only [room, stringRoom, String.toList_ofList]
    omega
  case h_5 rest =>
    have hroom := room_readNumber? hread
    have hminus := size_lt_cons '-' rest
    simp only [if_true] at hroom
    omega
  case h_6 rest =>
    have hbracket := size_lt_cons '[' rest
    split at hread
    next behind hclose =>
      obtain ⟨rfl, rfl⟩ := Prod.mk.inj (Option.some.inj hread)
      have hend := size_lt_of_skipBlanks hclose
      simp only [room, itemRoom]
      omega
    next =>
      obtain ⟨⟨items, left⟩, hitems, heq⟩ := Option.map_eq_some_iff.mp hread
      obtain ⟨rfl, rfl⟩ := Prod.mk.inj heq
      have hroom := h.items hitems
      simp only [room]
      omega
  case h_7 rest =>
    have hbrace := size_lt_cons '{' rest
    split at hread
    next behind hclose =>
      obtain ⟨rfl, rfl⟩ := Prod.mk.inj (Option.some.inj hread)
      have hend := size_lt_of_skipBlanks hclose
      simp only [room, memberRoom]
      omega
    next =>
      obtain ⟨⟨members, left⟩, hmembers, heq⟩ := Option.map_eq_some_iff.mp hread
      obtain ⟨rfl, rfl⟩ := Prod.mk.inj heq
      have hroom := h.members hmembers
      have hle := room_ofMembers_le members
      omega
  case h_8 =>
    have hroom := room_readNumber? hread
    simpa using hroom

/-- Neither do items, with the bracket behind them. -/
theorem readItems? (h : Fits steps) {items : List Json}
    (hread : Json.readItems? (steps + 1) cs = some (items, tail)) :
    max 1 (itemRoom items) + size tail ≤ size cs := by
  simp only [Json.readItems?, Option.bind_eq_bind, Option.bind_eq_some_iff] at hread
  obtain ⟨⟨item, behind⟩, hitem, hread⟩ := hread
  have hroom := h.value hitem
  split at hread
  next rest hcomma =>
    obtain ⟨⟨later, left⟩, hlater, heq⟩ := Option.map_eq_some_iff.mp hread
    obtain ⟨rfl, rfl⟩ := Prod.mk.inj heq
    have hrest := h.items hlater
    have hskip : size rest < size behind := size_lt_of_skipBlanks hcomma
    simp only [itemRoom]
    omega
  next left hclose =>
    obtain ⟨rfl, rfl⟩ := Prod.mk.inj (Option.some.inj hread)
    have hskip : size left < size behind := size_lt_of_skipBlanks hclose
    simp only [itemRoom]
    omega
  next => cases hread

/-- Nor do members, with the brace behind them. -/
theorem readMembers? (h : Fits steps) {members : List (String × Json)}
    (hread : Json.readMembers? (steps + 1) cs = some (members, tail)) :
    max 1 (memberRoom members) + size tail ≤ size cs := by
  have hblanks := size_skipBlanks_le cs
  rw [Json.readMembers?] at hread
  generalize skipBlanks cs = front at hblanks hread
  refine Nat.le_trans ?_ hblanks
  -- name, colon, value, and then a comma with more members or the end
  split at hread
  next rest =>
    simp only [Option.bind_eq_bind, Option.bind_eq_some_iff] at hread
    obtain ⟨⟨name, behindName⟩, hname, hread⟩ := hread
    have hstring := room_readString? hname
    have hquote := size_lt_cons '"' rest
    split at hread
    next afterColon hcolon =>
      have hskip : size afterColon < size behindName := size_lt_of_skipBlanks hcolon
      simp only [Option.bind_eq_some_iff] at hread
      obtain ⟨⟨value, behindValue⟩, hvalue, hread⟩ := hread
      have hroom := h.value hvalue
      split at hread
      next rest hcomma =>
        obtain ⟨⟨later, left⟩, hlater, heq⟩ := Option.map_eq_some_iff.mp hread
        obtain ⟨rfl, rfl⟩ := Prod.mk.inj heq
        have hrest := h.members hlater
        have hbehind : size rest < size behindValue := size_lt_of_skipBlanks hcomma
        simp only [memberRoom, stringRoom, String.toList_ofList]
        omega
      next left hclose =>
        obtain ⟨rfl, rfl⟩ := Prod.mk.inj (Option.some.inj hread)
        have hbehind : size left < size behindValue := size_lt_of_skipBlanks hclose
        simp only [memberRoom, stringRoom, String.toList_ofList]
        omega
      next => exact nomatch hread
    next => exact nomatch hread
  next => exact nomatch hread

end Fits

/-- Whatever is read, in however many steps, takes no more room than what it is read from. -/
theorem fits : ∀ steps, Fits steps
  | 0 => ⟨nofun, nofun, nofun⟩
  | steps + 1 => ⟨(fits steps).readValue?, (fits steps).readItems?, (fits steps).readMembers?⟩

/-! ## What a document takes -/

/-- The number of characters in strings that are not plain. -/
def stringBlemishes : List String → Nat
  | [] => 0
  | s :: rest => blemishes s.toList + stringBlemishes rest

/-- Blemishes of two lists of strings add up. -/
theorem stringBlemishes_append (ss ts : List String) :
    stringBlemishes (ss ++ ts) = stringBlemishes ss + stringBlemishes ts := by
  induction ss with
  | nil => exact (Nat.zero_add _).symm
  | cons s ss ih =>
    rw [List.cons_append, stringBlemishes, stringBlemishes, ih]
    omega

/-- Without escapes, a string stands between its quotes as it is. -/
theorem quoted_bare (s : String) : quoted bare s = '"' :: (s.toList ++ ['"']) := by
  show '"' :: s.toList.flatMap (fun c => [c]) ++ ['"'] = _
  rw [List.flatMap_singleton']
  rfl

/-- The room of a string is what is written of it, and its blemishes. -/
theorem length_quoted_bare (s : String) :
    stringRoom s = (quoted bare s).length + blemishes s.toList := by
  rw [quoted_bare, stringRoom, List.length_cons, List.length_append, List.length_singleton]
  omega

mutual

/-- **Room.** A document without floating-point numbers takes as many characters as it is written
    with when nothing is escaped, and one more for each character that is not plain. -/
theorem room_eq : (d : Json) → (∀ x, .float x ∉ d.parts) →
    d.room = (chars bare d).length + stringBlemishes d.strings
  | .null, _ | .bool true, _ | .bool false, _ | .whole _, _ => rfl
  | .float x, h => absurd List.mem_cons_self (h x)
  | .string s, _ => length_quoted_bare s
  | .array [], _ => rfl
  | .array (item :: rest), h => by
    have hitems := itemRoom_eq (item :: rest) (List.cons_ne_nil _ _)
      fun x hx => h x (List.mem_cons_of_mem _ hx)
    simp only [room, hitems, chars, strings, List.cons_append, List.length_cons,
      List.length_append, List.length_nil]
    omega
  | .object [], _ => rfl
  | .object (member :: rest), h => by
    have hmembers := memberRoom_eq (member :: rest) (List.cons_ne_nil _ _)
      fun x hx => h x (List.mem_cons_of_mem _ hx)
    simp only [room, hmembers, chars, strings, List.cons_append, List.length_cons,
      List.length_append, List.length_nil]
    omega

/-- The room of items is what is written of them, and their blemishes. -/
theorem itemRoom_eq : (items : List Json) → items ≠ [] → (∀ x, .float x ∉ itemParts items) →
    itemRoom items = (itemChars bare items).length + 1 + stringBlemishes (itemStrings items)
  | [], hne, _ => absurd rfl hne
  | [item], _, h => by
    have hitem := room_eq item fun x hx => h x (List.mem_append_left _ hx)
    simp only [itemRoom, itemChars, itemStrings, List.append_nil, hitem]
    omega
  | item :: next :: rest, _, h => by
    have hitem := room_eq item fun x hx => h x (List.mem_append_left _ hx)
    have hrest := itemRoom_eq (next :: rest) (List.cons_ne_nil _ _)
      fun x hx => h x (List.mem_append_right _ hx)
    rw [itemRoom, itemChars, itemStrings, stringBlemishes_append, hitem, hrest]
    · simp only [List.length_append, bare, List.length_singleton]
      omega
    · exact List.cons_ne_nil _ _

/-- So it is of members. -/
theorem memberRoom_eq : (members : List (String × Json)) → members ≠ [] →
    (∀ x, .float x ∉ memberParts members) →
    memberRoom members
      = (memberChars bare members).length + 1 + stringBlemishes (memberStrings members)
  | [], hne, _ => absurd rfl hne
  | [(name, value)], _, h => by
    have hname := length_quoted_bare name
    have hvalue := room_eq value fun x hx => h x (List.mem_append_left _ hx)
    simp only [memberRoom, memberChars, memberStrings, List.append_nil, stringBlemishes, hname,
      hvalue, List.length_append]
    simp only [bare, List.length_singleton]
    omega
  | (name, value) :: next :: rest, _, h => by
    have hname := length_quoted_bare name
    have hvalue := room_eq value fun x hx => h x (List.mem_append_left _ hx)
    have hrest := memberRoom_eq (next :: rest) (List.cons_ne_nil _ _)
      fun x hx => h x (List.mem_append_right _ hx)
    rw [memberRoom, memberChars, memberStrings, List.cons_append, stringBlemishes,
      stringBlemishes_append, hname, hvalue, hrest]
    · simp only [List.length_append, bare, List.length_singleton]
      omega
    · exact List.cons_ne_nil _ _

end

/-- Where no character is counted twice, all are plain. -/
theorem stringBlemishes_eq_zero {ss : List String} :
    stringBlemishes ss = 0 ↔ ∀ s ∈ ss, s.toList.all isPlain = true := by
  induction ss with
  | nil => exact ⟨fun _ => List.forall_mem_nil _, fun _ => rfl⟩
  | cons s ss ih =>
    have hplain : blemishes s.toList = 0 ↔ s.toList.all isPlain = true := by
      simp [blemishes, List.countP_eq_zero]
    rw [stringBlemishes, List.forall_mem_cons, ← ih, ← hplain]
    omega

/-! ## Plain documents -/

/-- A character is plain if it is written as it is in every notation. -/
theorem isPlain_iff {c : Char} :
    isPlain c = true ↔ c ≠ '\'' ∧ c ≠ '"' ∧ c ≠ '\\' ∧ 32 ≤ c.toNat := by
  simp [isPlain, and_assoc]

/-- A plain string is read back from its characters. -/
theorem keeps_bare {s : String} (h : s.toList.all isPlain = true) : bare.Keeps s := by
  intro rest
  show readString? (s.toList.flatMap (fun c => [c]) ++ _) = _
  rw [List.flatMap_singleton']
  generalize s.toList = cs at h
  induction cs with
  | nil => simp [readString?]
  | cons c cs ih =>
    obtain ⟨hc, hcs⟩ := Bool.and_eq_true_iff.mp h
    obtain ⟨-, hquote, hback, hprintable⟩ := isPlain_iff.mp hc
    rw [List.cons_append, readString?_plain hquote hback hprintable, ih hcs]
    rfl

/-- Without blanks and escapes a document can be read. -/
theorem legible_bare : Legible bare :=
  ⟨⟨[], rfl, List.forall_mem_nil _⟩, [], rfl, List.forall_mem_nil _⟩

/-- The text of a document has neither quotes nor backslashes if its strings are plain. -/
theorem plain_chars {d : Json} (h : ∀ s ∈ d.strings, s.toList.all isPlain = true) :
    ∀ c ∈ chars bare d, c ≠ '\'' ∧ c ≠ '\\' := by
  have hquote : '\'' ∉ bare.signs := by decide +kernel
  have hback : '\\' ∉ bare.signs := by decide +kernel
  have hsigns : ∀ c ∈ bare.signs, c ≠ '\'' ∧ c ≠ '\\' := by
    rintro c hc
    exact ⟨fun h => hquote (h ▸ hc), fun h => hback (h ▸ hc)⟩
  refine forall_mem_chars hsigns d ?_
  intro s hs c hc e he
  obtain rfl := List.mem_singleton.mp he
  obtain ⟨hquote, -, hback, -⟩ := isPlain_iff.mp (List.all_eq_true.mp (h s hs) e hc)
  exact ⟨hquote, hback⟩

/-- A text takes no less room than the document that it is read as. -/
theorem room_read? {text : String} {d : Json} (h : read? text = some d) :
    d.room ≤ size text.toList := by
  simp only [read?] at h
  split at h
  next read rest hread =>
    split at h
    · obtain rfl := Option.some.inj h
      have hfits := (fits _).value hread
      omega
    · cases h
  next => cases h

/-- The literal of a document, unescaped between quotes. -/
def literal (d : Json) : String := "'" ++ write bare d ++ "'"

/-- The literal of a document is its characters between apostrophes. -/
theorem literal_toList (d : Json) : d.literal.toList = '\'' :: (chars bare d ++ ['\'']) := by
  have htext : (write bare d).toList = chars bare d := String.toList_ofList
  rw [literal, String.toList_append, String.toList_append, htext, List.append_assoc]
  rfl

end Json

/-! ## Literals -/

namespace Literal

/-- Backslashes make no text shorter. -/
theorem length_le_backslash (escapes : Bool) (cs : List Char) :
    cs.length ≤ (cs.flatMap (Text.backslash escapes)).length := by
  induction cs with
  | nil => exact Nat.le_refl _
  | cons c cs ih =>
    have hone : 1 ≤ (Text.backslash escapes c).length := by
      rw [Text.backslash]
      split
      · exact Nat.le_succ 1
      · exact Nat.le_refl 1
    rw [List.flatMap_cons, List.length_append, List.length_cons]
    omega

/-- What is read from a literal takes up no more room than there is up to its closing quote. -/
theorem size_content?_le {escapes : Bool} {cs content behind : List Char}
    (h : content? escapes '\'' cs = some (content, behind)) :
    Json.size content + 1 + behind.length ≤ cs.length := by
  have hle := length_protect_le h
  have hlength := length_le_backslash escapes content
  rw [length_protect (by decide)] at hle
  simp only [Json.size]
  omega

/-- A text with neither quotes nor backslashes is read back from between quotes, whether or not
    backslashes escape. -/
theorem content?_plain (escapes : Bool) {cs : List Char} (h : ∀ c ∈ cs, c ≠ '\'' ∧ c ≠ '\\') :
    content? escapes '\'' (cs ++ ['\'']) = some (cs, []) := by
  have hsame : cs.flatMap (Text.backslash escapes) = cs := by
    have hone : ∀ c ∈ cs, Text.backslash escapes c = [c] := by
      intro c hc
      simp [Text.backslash, (h c hc).2]
    rw [List.flatMap_congr hone, List.flatMap_singleton']
  have hend : ([] : List Char).head? ≠ some '\'' := by simp
  have hread := (content?_backslash_iff escapes (by decide) hend cs).mpr fun hquote =>
    (h _ hquote).1 rfl
  rwa [hsame] at hread

end Literal

/-! ## The theorem -/

/-- **A document is read back from its literal if and only if its strings are plain.** Take a
    document without floating-point numbers, the members of its objects in their order, and write it
    as a term, between the usual quotes, in whatever dialect. It has a text and binds nothing. Read
    the whole text as one literal, by the rule of any dialect: what is between its quotes is JSON
    text of the document just if no string in the document and no name of a member has a quote, a
    quotation mark, a backslash or a control character in it. -/
theorem Term.document_read_iff {ctx : Context} (hctx : ctx.textQuote = "'") (rule : Dialect)
    {d : Json} (hfloats : d.FloatFree) (hordered : d.Ordered) (p : Parameters) :
    ∃ text : String, ((Term.document d).draft ctx).render ctx p = (.ok text, p) ∧
      ((∃ content : String, Literal.read? rule '\'' text = some (content, "") ∧
          Json.read? content = some d) ↔
        ∀ s ∈ d.strings, s.toList.all Json.isPlain = true) := by
  have hdraft : (Term.document d).draft ctx = Draft.tokens [.raw d.literal] := by
    show Draft.raw (Text.wrapped (Json.write Json.bare d) ctx.textQuote) ++ Draft.empty = _
    rw [Draft.append_empty, hctx]
    rfl
  have htext : Token.texts ctx [.raw d.literal] = d.literal := by
    show String.join [d.literal] = _
    rw [String.join_cons, String.join_nil, String.append_empty]
  refine ⟨d.literal, ?_, ?_, ?_⟩
  · rw [hdraft, Draft.render_tokens_eq, htext]
  · rintro ⟨content, hread, hdecode⟩
    rw [Literal.read?_iff d.literal_toList] at hread
    -- what is read has room between the quotes, where there is just as much as the document has
    have hsize := Literal.size_content?_le hread
    have hroom := Json.room_read? hdecode
    rw [Json.room_eq d hfloats] at hroom
    rw [List.length_append, List.length_singleton] at hsize
    exact Json.stringBlemishes_eq_zero.mp (by omega)
  · intro hplain
    refine ⟨Json.write Json.bare d, ?_, ?_⟩
    · rw [Literal.read?_iff d.literal_toList, Json.write, String.toList_ofList]
      exact Literal.content?_plain _ (Json.plain_chars hplain)
    · have hkeeps : ∀ s ∈ d.strings, Json.bare.Keeps s := fun s hs => Json.keeps_bare (hplain s hs)
      exact Json.read?_write Json.legible_bare ⟨hfloats, hordered, hkeeps⟩

/-- In MySQL an object with an array in it and characters of more than one unit. -/
theorem Term.document_read_nested :
    let d : Json :=
      .object [("a", .array [.whole (.ofInt64 (-10)), .string "é😀/"]), ("b", .object [])]
    let ctx := Context.ofDialect .mysql
    ctx.textQuote = "'" ∧ d.FloatFree ∧ d.Ordered ∧
      ∃ text : String, ((Term.document d).draft ctx).render ctx {} = (.ok text, {}) ∧
        ∃ content : String, Literal.read? .generic '\'' text = some (content, "") ∧
          Json.read? content = some d := by
  intro d ctx
  have hfloats : d.FloatFree := by
    intro x
    simp [d, Json.parts, Json.memberParts, Json.itemParts]
  have hordered : d.Ordered := by
    intro members hmembers
    simp only [d, Json.parts, Json.memberParts, Json.itemParts, List.mem_cons, List.mem_append,
      List.not_mem_nil, Json.object.injEq, reduceCtorEq, or_false, false_or] at hmembers
    rcases hmembers with rfl | rfl <;> decide
  have hquote : ctx.textQuote = "'" := rfl
  obtain ⟨text, hrender, hread⟩ := Term.document_read_iff hquote .generic hfloats hordered {}
  exact ⟨hquote, hfloats, hordered, text, hrender, hread.mpr (by decide +kernel)⟩

/-- A string with a quote in it, the literal of which ends there, and a name with a quotation mark
    in it, the text of which is no JSON text. -/
theorem Term.document_misread :
    let ctx := Context.ofDialect .generic
    let text (d : Json) := ((Term.document d).draft ctx).text ctx
    text (.string "it's") = .ok "'\"it's\"'" ∧
      Literal.read? .generic '\'' "'\"it's\"'" = some ("\"it", "s\"'") ∧
      text (.object [("a\"b", .whole (.ofInt64 1))]) = .ok "'\x7b\"a\"b\":1\x7d'" ∧
      Literal.read? .generic '\'' "'\x7b\"a\"b\":1\x7d'" = some ("\x7b\"a\"b\":1\x7d", "") ∧
      (Json.read? "\x7b\"a\"b\":1\x7d").isNone = true := by
  intro ctx text
  decide +kernel

end SqlCompose
