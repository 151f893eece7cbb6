import SqlCompose.Token

/-! # String literals — no text ends its literal early

    A reader of string literals goes by the dialect's rule alone, it knows nothing of how literals
    are written. What it reads from a written literal is the text that was written, and it stops
    exactly where the literal ends, whatever stands behind.

    * `Literal.read?` — the rule: two quotes stand for one, a single quote ends the literal, and in
      MySQL a backslash stands for the character behind it.
    * `Text.protect` — what becomes of one character. MySQL's two passes, first over quotes and then
      over backslashes, are one pass, because a quote is not a backslash
      (`Dialect.escapeString_toList`).
    * `Token.read_string` — reading undoes writing. -/

namespace SqlCompose

/-! ## Reading -/

namespace Literal

/-- Whether a backslash stands for the character behind it. -/
def escapes (d : Dialect) : Bool := d == .mysql

/-- The content of a literal, read from behind its opening quote, and what follows the closing
    one. -/
def content? (escapes : Bool) (quote : Char) : List Char → Option (List Char × List Char)
  | [] => none
  | [c] => if c = quote then some ([], []) else none
  | c :: next :: rest =>
    if c = quote then
      if next = quote then (content? escapes quote rest).map fun (text, behind) =>
        (quote :: text, behind)
      else some ([], next :: rest)
    else if escapes && c == '\\' then
      (content? escapes quote rest).map fun (text, behind) => (next :: text, behind)
    else
      (content? escapes quote (next :: rest)).map fun (text, behind) => (c :: text, behind)

/-- Reads one literal at the beginning of a text: its content and what follows it. -/
def read? (d : Dialect) (quote : Char) (text : String) : Option (String × String) :=
  match text.toList with
  | [] => none
  | c :: rest =>
    if c = quote then
      (content? (escapes d) quote rest).map fun (text, behind) =>
        (String.ofList text, String.ofList behind)
    else none

end Literal

/-! ## Writing, one character after the other -/

namespace Text

/-- Rewriting a single character is rewriting each character by itself. -/
theorem substituteFrom_singleton (old : Char) (new cs : List Char) :
    substituteFrom [old] new 0 cs = cs.flatMap fun c => if c = old then new else [c] := by
  induction cs with
  | nil => rfl
  | cons c rest ih =>
    rw [List.flatMap_cons, ← ih]
    by_cases h : c = old
    · subst h
      simp [substituteFrom]
    · have hne : ¬ old = c := fun heq => h heq.symm
      simp [substituteFrom, h, hne]

theorem substitute_singleton (old : Char) (new text : String) :
    (substitute (String.singleton old) new text).toList
      = text.toList.flatMap fun c => if c = old then new.toList else [c] := by
  simp only [substitute]
  rw [String.toList_ofList, String.toList_singleton, substituteFrom_singleton]

/-- What a character of a string is written as inside a literal. -/
def protect (escapes : Bool) (quote c : Char) : List Char :=
  if c = quote then [quote, quote] else if escapes && c == '\\' then ['\\', '\\'] else [c]

theorem doubled_toList (quote : Char) (text : String) :
    (doubled text (String.singleton quote)).toList
      = text.toList.flatMap fun c => if c = quote then [quote, quote] else [c] := by
  have hquote : (String.singleton quote).isEmpty = false := by
    simp [← String.toList_inj]
  have htwo : (String.singleton quote ++ String.singleton quote).toList = [quote, quote] := by
    rw [String.toList_append, String.toList_singleton]
    rfl
  simp only [doubled]
  rw [hquote, if_neg Bool.false_ne_true, substitute_singleton, htwo]

theorem backslashed_toList (text : String) :
    (backslashed text).toList
      = text.toList.flatMap fun c => if c = '\\' then ['\\', '\\'] else [c] :=
  substitute_singleton '\\' "\\\\" text

end Text

/-- A string inside its literal is written character by character. -/
theorem Dialect.escapeString_toList (d : Dialect) {quote : Char} (hquote : quote ≠ '\\')
    (text : String) :
    (d.escapeString text (String.singleton quote)).toList
      = text.toList.flatMap (Text.protect (Literal.escapes d) quote) := by
  have hplain : Text.protect false quote = fun c => if c = quote then [quote, quote] else [c] := by
    funext c
    rfl
  -- the first pass puts in nothing but quotes, and the second one leaves quotes alone
  have htwice : ∀ c, Text.protect true quote c =
      (if c = quote then [quote, quote] else [c]).flatMap fun c =>
        if c = '\\' then ['\\', '\\'] else [c] := by
    intro c
    simp only [Text.protect]
    by_cases h : c = quote
    · subst h
      simp [hquote]
    · simp [h]
  cases d with
  | mysql =>
    show (Text.backslashed (Text.doubled text (String.singleton quote))).toList = _
    rw [Text.backslashed_toList, Text.doubled_toList, List.flatMap_assoc]
    exact congrArg (text.toList.flatMap ·) (funext fun c => (htwice c).symm)
  | _ =>
    show (Text.doubled text (String.singleton quote)).toList = _
    rw [Text.doubled_toList, ← hplain]
    rfl

/-! ## Reading what was written -/

namespace Literal

/-- A single quote ends the literal. -/
theorem content?_quote (escapes : Bool) {quote : Char} {rest : List Char}
    (hrest : rest.head? ≠ some quote) :
    content? escapes quote (quote :: rest) = some ([], rest) := by
  cases rest with
  | nil => simp [content?]
  | cons next rest =>
    have hnext : next ≠ quote := fun h => hrest (congrArg some h)
    simp [content?, hnext]

/-- A character is read back from what it is written as. -/
theorem content?_protect (escapes : Bool) {quote : Char} (hquote : quote ≠ '\\') (c : Char)
    {cs text behind : List Char} (h : content? escapes quote cs = some (text, behind)) :
    content? escapes quote (Text.protect escapes quote c ++ cs) = some (c :: text, behind) := by
  simp only [Text.protect]
  by_cases hc : c = quote
  · subst hc
    simp [content?, h]
  · rw [if_neg hc]
    by_cases hback : (escapes && c == '\\') = true
    · obtain ⟨rfl, rfl⟩ : escapes = true ∧ c = '\\' := by simpa using hback
      simp [content?, h, hquote.symm]
    · rw [if_neg hback]
      -- the rule looks one character ahead; as the rest has been read, there is one
      cases cs with
      | nil => exact nomatch h
      | cons next rest =>
        rw [List.singleton_append, content?, if_neg hc, if_neg hback, h]
        rfl

/-- A text is read back from what it is written as, up to the quote behind it. -/
theorem content?_written (escapes : Bool) {quote : Char} (hquote : quote ≠ '\\')
    {rest : List Char} (hrest : rest.head? ≠ some quote) (cs : List Char) :
    content? escapes quote (cs.flatMap (Text.protect escapes quote) ++ quote :: rest)
      = some (cs, rest) := by
  induction cs with
  | nil => exact content?_quote escapes hrest
  | cons c cs ih =>
    rw [List.flatMap_cons, List.append_assoc]
    exact content?_protect escapes hquote c ih

end Literal

/-- **String literals cannot be broken out of.** Whatever string is written in whatever dialect,
    between quotes of any one character but a backslash: the dialect's own rule reads one literal
    that ends where the written one does, and its content is the string. -/
theorem Token.read_string (ctx : Context) {quote : Char}
    (hctx : ctx.textQuote = String.singleton quote) (hquote : quote ≠ '\\') (s rest : String)
    (hrest : rest.toList.head? ≠ some quote) :
    Literal.read? ctx.dialect quote ((Token.string s).text ctx ++ rest) = some (s, rest) := by
  have hwritten : ((Token.string s).text ctx ++ rest).toList = quote ::
      (s.toList.flatMap (Text.protect (Literal.escapes ctx.dialect) quote) ++
        quote :: rest.toList) := by
    show (Text.wrapped (ctx.dialect.escapeString s ctx.textQuote) ctx.textQuote ++ rest).toList = _
    simp only [Text.wrapped]
    rw [hctx, String.toList_append, String.toList_append, String.toList_append,
      String.toList_singleton, ctx.dialect.escapeString_toList hquote, List.append_assoc,
      List.append_assoc]
    rfl
  simp only [Literal.read?]
  rw [hwritten]
  show (if quote = quote then _ else _) = _
  rw [if_pos rfl, Literal.content?_written _ hquote hrest]
  show some (String.ofList s.toList, String.ofList rest.toList) = some (s, rest)
  rw [String.ofList_toList, String.ofList_toList]

/-- A string of MySQL that ends in a backslash and holds quotes. -/
theorem Token.read_string_backslash :
    Literal.read? .mysql '\''
      ((Token.string "it's '\\").text (Context.ofDialect .mysql) ++ " OR 1") =
        some ("it's '\\", " OR 1") :=
  Token.read_string (Context.ofDialect .mysql) rfl (by decide) "it's '\\" " OR 1" (by decide)

end SqlCompose
