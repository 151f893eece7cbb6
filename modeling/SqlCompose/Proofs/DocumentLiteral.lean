import Mathlib.Data.List.Basic
import SqlCompose.Draft
import SqlCompose.Proofs.StringLiteral

/-! # Document literals — what ends the literal of a JSON document

    The text of a document is written between quotes as it is: MySQL doubles the backslashes of the
    whole, and nobody doubles quotes. A reader of string literals gets the text back if there is no
    quote in it, and only then. Punctuation, numbers and escapes have no quote, so it is the strings
    of the document that decide.

    * `Json.strings` — the strings of a document, the names of its members included.
    * `Json.quote_mem_chars` — a quote in the text is one in a string.
    * `Literal.length_protect_le` — a reader never gets more than what was protected.
    * `Value.read_document_iff` — the theorem. -/

namespace SqlCompose

/-! ## Numbers -/

namespace Decimal

/-- The characters that numbers are written with. -/
def numerals : List Char :=
  ['0', '1', '2', '3', '4', '5', '6', '7', '8', '9', '.', 'e', '+', '-', 'N', 'a', 'i', 'n', 'f']

theorem digits_subset (n : Nat) : Nat.toDigits 10 n ⊆ numerals := by
  intro c hc
  have hdigit := Nat.isDigit_of_mem_toDigits (by decide) (by decide) hc
  obtain ⟨hlow, hhigh⟩ := Char.isDigit_iff_toNat.mp hdigit
  have hall : ∀ m ≤ '9'.toNat, '0'.toNat ≤ m → Char.ofNat m ∈ numerals := by decide
  rw [← Char.ofNat_toNat c]
  exact hall c.toNat hhigh hlow

theorem int_subset (n : Int) : (toString n).toList ⊆ numerals := by
  cases n with
  | ofNat n =>
    show n.repr.toList ⊆ numerals
    rw [Nat.toList_repr]
    exact digits_subset n
  | negSucc n =>
    show ("-" ++ (n + 1).repr).toList ⊆ numerals
    rw [String.toList_append, Nat.toList_repr]
    exact List.append_subset.mpr ⟨by decide, digits_subset (n + 1)⟩

theorem positional_subset {digits : List Char} (h : digits ⊆ numerals) (point : Int) :
    positional digits point ⊆ numerals := by
  have hzeros : ∀ n, List.replicate n '0' ⊆ numerals := by
    intro n c hc
    obtain rfl := List.eq_of_mem_replicate hc
    decide
  simp only [positional]
  split
  · have hhead : ['0', '.'] ++ List.replicate (-point).toNat '0' ⊆ numerals :=
      List.append_subset.mpr ⟨by decide, hzeros _⟩
    exact List.append_subset.mpr ⟨hhead, h⟩
  · split
    · have hwhole := List.append_subset.mpr ⟨h, hzeros (point.toNat - digits.length)⟩
      exact List.append_subset.mpr ⟨hwhole, by decide⟩
    · have hfraction : ['.'] ++ digits.drop point.toNat ⊆ numerals :=
        List.append_subset.mpr ⟨by decide, List.Subset.trans (List.drop_subset _ _) h⟩
      exact List.append_subset.mpr ⟨List.Subset.trans (List.take_subset _ _) h, hfraction⟩

theorem scientific_subset (plusSign : Bool) {digits : List Char} (h : digits ⊆ numerals)
    (point : Int) : scientific plusSign digits point ⊆ numerals := by
  have hsign : (if plusSign && 0 ≤ point - 1 then ['+'] else []) ⊆ numerals := by
    split <;> decide
  have hexponent : ['e'] ++ (if plusSign && 0 ≤ point - 1 then ['+'] else []) ⊆ numerals :=
    List.append_subset.mpr ⟨by decide, hsign⟩
  refine List.append_subset.mpr ⟨List.append_subset.mpr ⟨?_, hexponent⟩, int_subset (point - 1)⟩
  rcases digits with _ | ⟨first, _ | ⟨second, rest⟩⟩
  · exact h
  · exact h
  · -- the point comes behind the first digit
    have hfirst : [first, '.'] ⊆ numerals :=
      List.cons_subset.mpr ⟨h (List.mem_cons_self ..), by decide⟩
    have hrest : second :: rest ⊆ numerals := List.Subset.trans (List.subset_cons_self _ _) h
    exact List.append_subset.mpr ⟨hfirst, hrest⟩

theorem write_subset (layout : Layout) (x : Binary64) :
    (layout.write x).toList ⊆ numerals := by
  have hsign : (if x.isNegative then "-" else "").toList ⊆ numerals := by
    split <;> decide
  simp only [Layout.write]
  split
  · decide
  · split
    · rw [String.toList_append]
      exact List.append_subset.mpr ⟨hsign, by decide⟩
    · split
      · rw [String.toList_append]
        exact List.append_subset.mpr ⟨hsign, by decide⟩
      · rw [String.toList_append, String.toList_ofList]
        refine List.append_subset.mpr ⟨hsign, ?_⟩
        split
        · exact positional_subset (digits_subset _) _
        · exact scientific_subset _ (digits_subset _) _

end Decimal

/-! ## Documents -/

namespace Json

mutual

/-- The strings of a document, the names of its members included. -/
def strings : Json → List String
  | .string s => [s]
  | .array items => itemStrings items
  | .object members => memberStrings members
  | _ => []

/-- The strings of a list of items. -/
def itemStrings : List Json → List String
  | [] => []
  | item :: rest => item.strings ++ itemStrings rest

/-- The names of members and the strings of their values. -/
def memberStrings : List (String × Json) → List String
  | [] => []
  | (name, value) :: rest => name :: value.strings ++ memberStrings rest

end

/-- One of the strings has the character in it. -/
def Mentions (c : Char) (ss : List String) : Prop := ∃ s ∈ ss, c ∈ s.toList

theorem mentions_append {c : Char} {ss ss' : List String} :
    Mentions c (ss ++ ss') ↔ Mentions c ss ∨ Mentions c ss' := by
  simp only [Mentions, List.mem_append, or_and_right, exists_or]

theorem mentions_cons {c : Char} {s : String} {ss : List String} :
    Mentions c (s :: ss) ↔ c ∈ s.toList ∨ Mentions c ss := by
  simp only [Mentions, List.mem_cons, or_and_right, exists_or, exists_eq_left]

theorem not_mentions_nil {c : Char} : ¬ Mentions c [] := by
  rintro ⟨s, hs, -⟩
  exact List.not_mem_nil hs

/-! ### Quotes -/

/-- Escapes have no quote in them. -/
theorem quote_notMem_unitEscape (n : Nat) : '\'' ∉ unitEscape n := by
  have hdigit : ∀ m < 16, hexDigit m ≠ '\'' := by decide
  have hne : ∀ m, '\'' ≠ hexDigit (m % 16) :=
    fun m => (hdigit (m % 16) (Nat.mod_lt m (by decide))).symm
  simp [unitEscape, hne]

/-- Only a quote is written with one. -/
theorem quote_mem_asciiEscaped {c : Char} : '\'' ∈ asciiEscaped c ↔ c = '\'' := by
  constructor
  · intro h
    simp only [asciiEscaped] at h
    split at h
    · simp only [escaped] at h
      -- a character that needs no escape is itself
      repeat' split at h
      all_goals first
        | exact absurd h (by decide)
        | exact absurd h (quote_notMem_unitEscape _)
        | exact (List.mem_singleton.mp h).symm
    · obtain ⟨unit, -, hunit⟩ := List.mem_flatMap.mp h
      exact absurd hunit (quote_notMem_unitEscape unit)
  · rintro rfl
    decide

theorem quote_mem_quoted {s : String} : '\'' ∈ quoted spaced s ↔ '\'' ∈ s.toList := by
  show '\'' ∈ ['"'] ++ s.toList.flatMap asciiEscaped ++ ['"'] ↔ _
  simp [quote_mem_asciiEscaped]

mutual

/-- A quote in the text of a document is one in a string of it. -/
theorem quote_mem_chars : (d : Json) → ('\'' ∈ chars spaced d ↔ Mentions '\'' d.strings)
  | .null => iff_of_false (by decide) not_mentions_nil
  | .bool true => iff_of_false (by decide) not_mentions_nil
  | .bool false => iff_of_false (by decide) not_mentions_nil
  | .whole n =>
    have hnumber : '\'' ∉ (toString n.val).toList :=
      fun h => absurd (Decimal.int_subset n.val h) (by decide)
    iff_of_false hnumber not_mentions_nil
  | .float x => by
    have hnumber : '\'' ∉ chars spaced (.float x) := by
      intro h
      simp only [chars] at h
      split at h
      · exact absurd (Decimal.write_subset _ x h) (by decide)
      · exact absurd h (by decide)
    exact iff_of_false hnumber not_mentions_nil
  | .string s => by
    rw [chars, strings, mentions_cons, quote_mem_quoted]
    exact (or_iff_left not_mentions_nil).symm
  | .array items => by
    rw [chars, strings, ← quote_mem_itemChars items]
    simp
  | .object members => by
    rw [chars, strings, ← quote_mem_memberChars members]
    simp

theorem quote_mem_itemChars :
    (items : List Json) → ('\'' ∈ itemChars spaced items ↔ Mentions '\'' (itemStrings items))
  | [] => iff_of_false List.not_mem_nil not_mentions_nil
  | [item] => by
    rw [itemChars, itemStrings, mentions_append, quote_mem_chars item]
    exact (or_iff_left not_mentions_nil).symm
  | item :: next :: rest => by
    have hseparator : '\'' ∉ spaced.separator := by decide
    rw [itemChars, itemStrings, mentions_append, ← quote_mem_chars item,
      ← quote_mem_itemChars (next :: rest), List.mem_append, List.mem_append,
      or_iff_left hseparator]
    exact List.cons_ne_nil _ _

theorem quote_mem_memberChars :
    (members : List (String × Json)) →
      ('\'' ∈ memberChars spaced members ↔ Mentions '\'' (memberStrings members))
  | [] => iff_of_false List.not_mem_nil not_mentions_nil
  | [(name, value)] => by
    have hcolon : '\'' ∉ spaced.colon := by decide
    rw [memberChars, memberStrings, mentions_append, mentions_cons, ← quote_mem_chars value,
      List.mem_append, List.mem_append, or_iff_left hcolon, quote_mem_quoted]
    exact (or_iff_left not_mentions_nil).symm
  | (name, value) :: next :: rest => by
    have hseparator : '\'' ∉ spaced.separator := by decide
    have hcolon : '\'' ∉ spaced.colon := by decide
    rw [memberChars, memberStrings, mentions_append, mentions_cons, ← quote_mem_chars value,
      ← quote_mem_memberChars (next :: rest), List.mem_append, List.mem_append, List.mem_append,
      List.mem_append, or_iff_left hseparator, or_iff_left hcolon, quote_mem_quoted]
    exact List.cons_ne_nil _ _

end

end Json

/-! ## Reading -/

/-- What a character of a document is written as inside a literal. -/
def Text.backslash (escapes : Bool) (c : Char) : List Char :=
  if escapes && c == '\\' then ['\\', '\\'] else [c]

/-- A document between quotes is written character by character. -/
theorem Token.json_toList (ctx : Context) {quote : Char}
    (hctx : ctx.textQuote = String.singleton quote) (hquote : quote ≠ '\\') (text rest : String) :
    ((Token.json text).text ctx ++ rest).toList = quote ::
      (text.toList.flatMap (Text.backslash (Literal.escapes ctx.dialect)) ++
        quote :: rest.toList) := by
  have hwrapped : (Text.wrapped text ctx.textQuote).toList = [quote] ++ text.toList ++ [quote] := by
    simp only [Text.wrapped]
    rw [hctx, String.toList_append, String.toList_append, String.toList_singleton]
  have hplain : Text.backslash false = fun c => [c] := rfl
  have hdoubled : Text.backslash true = fun c => if c = '\\' then ['\\', '\\'] else [c] := by
    funext c
    simp [Text.backslash]
  have hone : [quote].flatMap (Text.backslash (Literal.escapes ctx.dialect)) = [quote] := by
    simp [Text.backslash, hquote]
  -- MySQL doubles backslashes in the wrapped text, quotes included, and no quote is one
  have htext : (ctx.dialect.escapeJson (Text.wrapped text ctx.textQuote)).toList =
      (Text.wrapped text ctx.textQuote).toList.flatMap
        (Text.backslash (Literal.escapes ctx.dialect)) := by
    cases ctx.dialect with
    | mysql =>
      show (Text.backslashed (Text.wrapped text ctx.textQuote)).toList = _
      rw [Text.backslashed_toList, ← hdoubled]
      rfl
    | _ =>
      show _ = (Text.wrapped text ctx.textQuote).toList.flatMap (Text.backslash false)
      rw [hplain, List.flatMap_singleton']
      rfl
  show (ctx.dialect.escapeJson (Text.wrapped text ctx.textQuote) ++ rest).toList = _
  rw [String.toList_append, htext, hwrapped, List.flatMap_append, List.flatMap_append, hone,
    List.append_assoc, List.append_assoc]
  rfl

namespace Literal

/-- What is read from a literal and what follows it take up no less room protected than what was
    read from. -/
theorem length_protect_le {escapes : Bool} {quote : Char} {cs text behind : List Char}
    (h : content? escapes quote cs = some (text, behind)) :
    (text.flatMap (Text.protect escapes quote)).length + 1 + behind.length ≤ cs.length := by
  have htwo : ∀ c, (Text.protect escapes quote c).length ≤ 2 := by
    intro c
    simp only [Text.protect]
    split
    · exact Nat.le_refl 2
    · split
      · exact Nat.le_refl 2
      · exact Nat.le_succ 1
  fun_induction content? escapes quote cs generalizing text with
  | case1 => cases h
  | case2 =>
    cases h
    exact Nat.le_refl 1
  | case3 => cases h
  | case4 rest ih =>
    -- two quotes stand for one
    obtain ⟨⟨read, left⟩, hread, heq⟩ := Option.map_eq_some_iff.mp h
    cases heq
    have hle := ih hread
    have hquote := htwo quote
    rw [List.flatMap_cons, List.length_append, List.length_cons, List.length_cons]
    omega
  | case5 next rest hnext =>
    cases h
    rw [List.flatMap_nil, List.length_nil, List.length_cons, List.length_cons, List.length_cons]
    omega
  | case6 c next rest hc hback ih =>
    -- a backslash and what it stands for
    obtain ⟨⟨read, left⟩, hread, heq⟩ := Option.map_eq_some_iff.mp h
    cases heq
    have hle := ih hread
    have hnext := htwo next
    rw [List.flatMap_cons, List.length_append, List.length_cons, List.length_cons]
    omega
  | case7 c next rest hc hback ih =>
    obtain ⟨⟨read, left⟩, hread, heq⟩ := Option.map_eq_some_iff.mp h
    cases heq
    have hle := ih hread
    have hone : Text.protect escapes quote c = [c] := by
      simp only [Text.protect]
      rw [if_neg hc, if_neg hback]
    rw [List.flatMap_cons, hone, List.length_append, List.length_singleton, List.length_cons]
    omega

/-- Protecting a text takes one character more for each quote in it. -/
theorem length_protect {escapes : Bool} {quote : Char} (hquote : quote ≠ '\\') (cs : List Char) :
    (cs.flatMap (Text.protect escapes quote)).length =
      (cs.flatMap (Text.backslash escapes)).length + cs.count quote := by
  have hone : ∀ c, (Text.protect escapes quote c).length =
      (Text.backslash escapes c).length + [c].count quote := by
    intro c
    by_cases h : c = quote
    · subst h
      simp [Text.protect, Text.backslash, hquote]
    · simp only [Text.protect]
      rw [if_neg h, List.count_singleton, beq_false_of_ne h]
      rfl
  induction cs with
  | nil => rfl
  | cons c cs ih =>
    have hcount : ([c] ++ cs).count quote = [c].count quote + cs.count quote := List.count_append
    rw [List.flatMap_cons, List.flatMap_cons, List.length_append, List.length_append, hone, ih]
    show _ = _ + ([c] ++ cs).count quote
    omega

/-- A document is read back if and only if it has no quote in it. -/
theorem content?_backslash_iff (escapes : Bool) {quote : Char} (hquote : quote ≠ '\\')
    {rest : List Char} (hrest : rest.head? ≠ some quote) (cs : List Char) :
    content? escapes quote (cs.flatMap (Text.backslash escapes) ++ quote :: rest)
      = some (cs, rest) ↔ quote ∉ cs := by
  constructor
  · intro h
    have hle := length_protect_le h
    rw [length_protect hquote, List.length_append, List.length_cons] at hle
    exact List.count_eq_zero.mp (by omega)
  · intro h
    have hsame : ∀ c ∈ cs, Text.backslash escapes c = Text.protect escapes quote c := by
      intro c hc
      have hne : c ≠ quote := fun heq => h (heq ▸ hc)
      simp only [Text.protect]
      rw [if_neg hne]
      rfl
    rw [List.flatMap_congr hsame]
    exact content?_written escapes hquote hrest cs

end Literal

/-! ## The theorem -/

/-- Whether the constant is a document or a list of constants. -/
def Value.isDocument : Value → Bool
  | .json _ | .list _ => true
  | _ => false

/-- The literal of a document or a list is its text as one token. -/
theorem Value.literal_document {v : Value} (hv : v.isDocument = true) :
    v.literal = Draft.token (.json v.jsonText) := by
  cases v <;> first | rfl | exact nomatch hv

/-- The reader gets a text and what stands behind it just if it gets their characters. -/
theorem Literal.read?_iff {d : Dialect} {quote : Char} {text content behind : String}
    {cs : List Char} (h : text.toList = quote :: cs) :
    read? d quote text = some (content, behind) ↔
      content? (escapes d) quote cs = some (content.toList, behind.toList) := by
  simp only [read?]
  rw [h]
  show (if quote = quote then _ else _) = _ ↔ _
  rw [if_pos rfl]
  constructor
  · intro h
    obtain ⟨⟨text, rest⟩, hread, heq⟩ := Option.map_eq_some_iff.mp h
    obtain ⟨rfl, rfl⟩ := Prod.mk.inj heq
    rw [String.toList_ofList, String.toList_ofList, hread]
  · intro h
    rw [h, Option.map_some, String.ofList_toList, String.ofList_toList]

/-- **A document keeps to its literal if and only if none of its strings has a quote.** In whatever
    dialect a document or a list is written, between the usual quotes: its literal is one token, and
    the dialect's own rule reads from it, whatever text but a quote stands behind, one literal that
    ends where the written one does and whose content is the text of the document, just if there is
    no quote in a string of the document or in the name of a member. -/
theorem Value.read_document_iff (ctx : Context) (hctx : ctx.textQuote = "'") {v : Value}
    (hv : v.isDocument = true) (rest : String) (hrest : rest.toList.head? ≠ some '\'') :
    ∃ t : Token, v.literal = Draft.token t ∧
      (Literal.read? ctx.dialect '\'' (t.text ctx ++ rest) = some (v.jsonText, rest) ↔
        ∀ s ∈ v.toJson.strings, '\'' ∉ s.toList) := by
  have hquote : '\'' ≠ '\\' := by decide
  have hsingle : ctx.textQuote = String.singleton '\'' := hctx
  have hwritten := Token.json_toList ctx hsingle hquote v.jsonText rest
  have htext : v.jsonText.toList = Json.chars Json.spaced v.toJson := String.toList_ofList
  have hfree : '\'' ∉ v.jsonText.toList ↔ ∀ s ∈ v.toJson.strings, '\'' ∉ s.toList := by
    rw [htext, Json.quote_mem_chars]
    simp only [Json.Mentions, not_exists, not_and]
  refine ⟨.json v.jsonText, Value.literal_document hv, ?_⟩
  rw [Literal.read?_iff hwritten, ← hfree]
  exact Literal.content?_backslash_iff _ hquote hrest v.jsonText.toList

/-- A list with a backslash in MySQL, and more of the statement behind it. -/
theorem Value.read_document_backslash :
    let v := Value.list [.str "a\\", .json (.object [("b", .string "\"c\"")])]
    let ctx := Context.ofDialect .mysql
    ∃ t : Token, v.literal = Draft.token t ∧
      Literal.read? .mysql '\'' (t.text ctx ++ ",'d')") = some (v.jsonText, ",'d')") := by
  intro v ctx
  obtain ⟨t, ht, hread⟩ := Value.read_document_iff ctx rfl (v := v) rfl ",'d')" (by decide)
  exact ⟨t, ht, hread.mpr (by decide)⟩

/-- A document with a quote in it: its literal ends behind the first character of its text, and the
    rest of the text stands in the statement. -/
theorem Value.read_document_quote :
    let v := Value.json (.string "' OR 1 -- ")
    let ctx := Context.ofDialect .generic
    ctx.textQuote = "'" ∧ v.isDocument = true ∧ v.jsonText = "\"' OR 1 -- \"" ∧
      v.literal = Draft.token (.json v.jsonText) ∧
      Literal.read? .generic '\'' ((Token.json v.jsonText).text ctx ++ "") =
        some ("\"", " OR 1 -- \"'") ∧
      Literal.read? .generic '\'' ((Token.json v.jsonText).text ctx ++ "") ≠
        some (v.jsonText, "") := by
  intro v ctx
  exact ⟨rfl, rfl, by decide +kernel, rfl, by decide +kernel, by decide +kernel⟩

end SqlCompose
