import Mathlib.Control.Monad.Basic
import SqlCompose.Combined
import SqlCompose.Proofs.Numbering
import SqlCompose.Proofs.StringLiteral
import SqlCompose.Statement

/-! # Outer dialects — a set operation inside a statement of another dialect

    A set operation is written in the dialect of its first statement, whatever dialect is asked for.
    What is decided while its pieces are made follows that dialect: where parentheses and pages
    stand, how placeholders, intervals, arrays and paths look. The tokens become text only later, in
    the context of the outermost statement, and some tokens look different there.

    * `Context.inDialect` — the context in another dialect, with another quote around identifiers.
    * `SetOperation.draft_inDialect` — the pieces do not depend on either.
    * `Dialect.WritesLike`, `Token.Alike` — the dialects and the tokens between which there is no
      difference; `Token.alike_iff` says that there is one otherwise.
    * `SetOperation.render_inDialect` — the theorem. -/

namespace SqlCompose

/-! ## What a dialect does to a token -/

/-- Whether two dialects write all tokens alike: MySQL protects backslashes, MSSQL has a name of its
    own for a function, and SQLite has numbers for truth values. -/
def Dialect.WritesLike (d d' : Dialect) : Prop :=
  (d = .mysql ↔ d' = .mysql) ∧ (d = .mssql ↔ d' = .mssql) ∧ (d = .sqlite ↔ d' = .sqlite)

namespace Text

theorem wrapped_quote_injective (text : String) : Function.Injective (wrapped text) := by
  intro quote quote' h
  have hlist : quote.toList ++ text.toList ++ quote.toList =
      quote'.toList ++ text.toList ++ quote'.toList := by
    have := congrArg String.toList h
    simpa only [wrapped, String.toList_append] using this
  have hlength : quote.toList.length = quote'.toList.length := by
    have := congrArg List.length hlist
    simp only [List.length_append] at this
    omega
  exact String.toList_inj.mp (List.append_inj_right' hlist hlength)

/-- A text has as many characters more with its backslashes doubled as it has backslashes. -/
theorem length_backslashed (text : String) :
    (backslashed text).toList.length = text.toList.length + text.toList.count '\\' := by
  rw [backslashed_toList]
  induction text.toList with
  | nil => rfl
  | cons c rest ih =>
    rw [List.flatMap_cons, List.length_append, ih, List.length_cons, List.count_cons]
    by_cases hc : c = '\\'
    · simp only [hc, if_true, List.length_cons, List.length_nil, beq_self_eq_true]
      omega
    · simp only [hc, if_false, List.length_cons, List.length_nil, beq_eq_false_iff_ne.mpr hc,
        Bool.false_eq_true]
      omega

/-- Doubling the backslashes of a text changes it where it has one. -/
theorem backslashed_eq_iff (text : String) : backslashed text = text ↔ '\\' ∉ text.toList := by
  constructor
  · intro h
    have hlength := length_backslashed text
    rw [h] at hlength
    exact List.count_eq_zero.mp (by omega)
  · intro hnone
    rw [← String.toList_inj, backslashed_toList]
    have hkept : ∀ c ∈ text.toList, (if c = '\\' then ['\\', '\\'] else [c]) = [c] :=
      fun c hc => if_neg (ne_of_mem_of_not_mem hc hnone)
    rw [List.flatMap_def, List.map_congr_left hkept, ← List.flatMap_def, List.flatMap_singleton']

/-- The text with its backslashes doubled if the condition holds. -/
def backslashedIf (p : Prop) [Decidable p] (text : String) : String :=
  if p then backslashed text else text

theorem backslashedIf_eq_iff (p q : Prop) [Decidable p] [Decidable q] (text : String) :
    backslashedIf p text = backslashedIf q text ↔ ('\\' ∈ text.toList → (p ↔ q)) := by
  have hkept := backslashed_eq_iff text
  by_cases hp : p <;> by_cases hq : q <;>
    simp [backslashedIf, hp, hq, hkept, eq_comm (a := text)]

theorem wrapped_text_inj {text text' quote : String} :
    wrapped text quote = wrapped text' quote ↔ text = text' := by
  simp only [wrapped, ← String.toList_inj, String.toList_append, List.append_left_inj,
    List.append_right_inj]

end Text

/-! ## Contexts that differ in dialect and quote -/

/-- The context in a dialect, with a quote around identifiers. -/
def Context.inDialect (ctx : Context) (d : Dialect) (quote : String) : Context :=
  { ctx with dialect := d, identQuote := quote }

namespace Token

/-- Whether a token looks the same in two contexts that differ in dialect and quote. -/
def Alike (c c' : Context) : Token → Prop
  | ident _ => c.identQuote = c'.identQuote
  | aliasName _ => c.effectiveAliasQuote = c'.effectiveAliasQuote
  | string s =>
    '\\' ∈ (Text.doubled s c.textQuote).toList → (c.dialect = .mysql ↔ c'.dialect = .mysql)
  | json text =>
    '\\' ∈ (Text.wrapped text c.textQuote).toList → (c.dialect = .mysql ↔ c'.dialect = .mysql)
  | bool _ => c.dialect = .sqlite ↔ c'.dialect = .sqlite
  | function name => Text.upper name = "POW" → (c.dialect = .mssql ↔ c'.dialect = .mssql)
  | _ => True

/-- A token looks the same in two contexts that differ in dialect and quote exactly if it is
    alike. -/
theorem alike_iff (ctx : Context) (d d' : Dialect) (quote quote' : String) (t : Token) :
    t.Alike (ctx.inDialect d quote) (ctx.inDialect d' quote') ↔
      t.text (ctx.inDialect d quote) = t.text (ctx.inDialect d' quote') := by
  -- a text that reads the dialect is the same in two of them exactly for the dialects named here
  cases t with
  | ident name => exact (Text.wrapped_quote_injective name).eq_iff.symm
  | aliasName name => exact (Text.wrapped_quote_injective name).eq_iff.symm
  | bool b =>
    show (d = .sqlite ↔ d' = .sqlite) ↔ d.boolText b = d'.boolText b
    cases d <;> cases d' <;> cases b <;> decide
  | string s =>
    have hescape (d : Dialect) : d.escapeString s ctx.textQuote =
        Text.backslashedIf (d = .mysql) (Text.doubled s ctx.textQuote) := by
      cases d <;> rfl
    show _ ↔ Text.wrapped (d.escapeString s ctx.textQuote) ctx.textQuote =
      Text.wrapped (d'.escapeString s ctx.textQuote) ctx.textQuote
    rw [Text.wrapped_text_inj, hescape, hescape, Text.backslashedIf_eq_iff]
    rfl
  | json text =>
    have hescape (d : Dialect) (text : String) : d.escapeJson text =
        Text.backslashedIf (d = .mysql) text := by
      cases d <;> rfl
    show _ ↔ d.escapeJson (Text.wrapped text ctx.textQuote) =
      d'.escapeJson (Text.wrapped text ctx.textQuote)
    rw [hescape, hescape, Text.backslashedIf_eq_iff]
    rfl
  | function name =>
    have hname (d : Dialect) : (d.functionName? name).getD name =
        if d = .mssql ∧ Text.upper name = "POW" then "POWER" else name := by
      cases d with
      | mssql =>
        by_cases hpow : Text.upper name = "POW" <;> simp [Dialect.functionName?, hpow]
      | _ => rfl
    have hother (hpow : Text.upper name = "POW") : name ≠ "POWER" := by
      rintro rfl
      exact absurd hpow (by decide +kernel)
    show (Text.upper name = "POW" → (d = .mssql ↔ d' = .mssql)) ↔
      (d.functionName? name).getD name = (d'.functionName? name).getD name
    rw [hname, hname]
    by_cases hpow : Text.upper name = "POW"
    · by_cases hd : d = .mssql <;> by_cases hd' : d' = .mssql <;>
        simp [hpow, hd, hd', hother hpow, (hother hpow).symm]
    · simp [hpow]
  | _ => exact iff_of_true trivial rfl

/-- Tokens that are alike have one text. -/
theorem texts_congr {ctx : Context} {d d' : Dialect} {quote quote' : String} {ts : List Token}
    (h : ∀ t ∈ ts, t.Alike (ctx.inDialect d quote) (ctx.inDialect d' quote')) :
    texts (ctx.inDialect d quote) ts = texts (ctx.inDialect d' quote') ts := by
  have htext : ts.map (text (ctx.inDialect d quote)) = ts.map (text (ctx.inDialect d' quote')) :=
    List.map_congr_left fun t ht => (alike_iff ctx d d' quote quote' t).mp (h t ht)
  simp only [texts, htext]

/-- A token between others that have one text is alike if all of them together have one. -/
theorem alike_of_texts {ctx : Context} {d d' : Dialect} {quote quote' : String}
    {before behind : List Token} {t : Token}
    (hbefore : texts (ctx.inDialect d quote) before = texts (ctx.inDialect d' quote') before)
    (hbehind : texts (ctx.inDialect d quote) behind = texts (ctx.inDialect d' quote') behind)
    (h : texts (ctx.inDialect d quote) (before ++ [t] ++ behind) =
      texts (ctx.inDialect d' quote') (before ++ [t] ++ behind)) :
    t.Alike (ctx.inDialect d quote) (ctx.inDialect d' quote') := by
  rw [texts_append, texts_append, texts_append, texts_append, hbefore, hbehind,
    ← String.toList_inj] at h
  simp only [String.toList_append, List.append_left_inj, List.append_right_inj] at h
  have hone (ctx : Context) : texts ctx [t] = t.text ctx := String.empty_append
  rw [alike_iff, ← hone, ← hone]
  exact String.toList_inj.mp h

/-- Dialects that write all tokens alike write each token alike. -/
theorem alike_of_writesLike {d d' : Dialect} (h : d.WritesLike d') (ctx : Context) (quote : String)
    (t : Token) : t.Alike (ctx.inDialect d quote) (ctx.inDialect d' quote) := by
  obtain ⟨hmysql, hmssql, hsqlite⟩ := h
  cases t with
  | ident name => rfl
  | aliasName name => rfl
  | string s => exact fun _ => hmysql
  | json text => exact fun _ => hmysql
  | bool b => exact hsqlite
  | function name => exact fun _ => hmssql
  | _ => trivial

end Token

/-! ## What the pieces depend on -/

/-- What is written of a set operation in a context, and the parameters with its values. -/
def SetOperation.written (ctx : Context) (p : Parameters) (s : SetOperation) :
    Except BuildError String × Parameters :=
  (s.draft ctx).render ctx p

/-- A set operation is written in pieces that do not depend on the dialect and the quote that are
    asked for. -/
theorem SetOperation.draft_inDialect (s : SetOperation) (ctx : Context) (d : Dialect)
    (quote : String) : s.draft (ctx.inDialect d quote) = s.draft ctx := by
  cases s
  simp only [SetOperation.draft, Context.inDialect]

/-- A draft with tokens is written as their texts. -/
theorem Draft.render_of_finish {d : Draft} {p : Parameters} {ts : List Token}
    (h : (d.finish p).1 = .ok ts) (ctx : Context) :
    (d.render ctx p).1 = .ok (Token.texts ctx ts) := by
  simp only [render, h]
  rfl

/-! ## Operations that show a difference -/

/-- The rows of a term, in union with nothing known. -/
def Term.inUnion (t : Term) : SetOperation :=
  { Query.start 1 .generic with selects := [t] }.combine 2 .union
    { Query.start 3 .generic with selects := [⟨.literal "NULL", none⟩] }

/-- Contexts in which a term in union is written alike write the tokens of the term alike. -/
theorem Term.alike_of_inUnion {d d' : Dialect} {quote quote' : String}
    (hall : ∀ (s : SetOperation) (ctx : Context) (p : Parameters),
      s.written (ctx.inDialect d quote) p = s.written (ctx.inDialect d' quote') p)
    (t : Term) (token : Token) (before behind : List Token)
    (hfinish : ((t.inUnion.draft default).finish {}).1 = .ok (before ++ [token] ++ behind))
    (hbefore : ∀ ctx ctx', Token.texts ctx before = Token.texts ctx' before)
    (hbehind : ∀ ctx ctx', Token.texts ctx behind = Token.texts ctx' behind) :
    token.Alike (Context.inDialect default d quote) (Context.inDialect default d' quote') := by
  have hrender := congrArg Prod.fst (hall t.inUnion default {})
  simp only [SetOperation.written, SetOperation.draft_inDialect,
    Draft.render_of_finish hfinish] at hrender
  exact Token.alike_of_texts (hbefore _ _) (hbehind _ _) (Except.ok.inj hrender)

/-- The tokens in front of what is selected first. -/
def Token.beforeSelected : List Token := [.lparen, .keyword .select, .space]

/-- The tokens behind what is selected first. -/
def Token.behindSelected : List Token :=
  [.rparen, .space, .raw "UNION", .space, .lparen, .keyword .select, .space, .raw "NULL", .rparen]

/-- Where all set operations are written alike, the quotes are one and the dialects write all tokens
    alike. -/
theorem SetOperation.writesLike_of_forall {d d' : Dialect} {quote quote' : String}
    (hall : ∀ (s : SetOperation) (ctx : Context) (p : Parameters),
      s.written (ctx.inDialect d quote) p = s.written (ctx.inDialect d' quote') p) :
    quote = quote' ∧ d.WritesLike d' := by
  have hident : quote = quote' :=
    Term.alike_of_inUnion hall ⟨.field "x" none, none⟩ (.ident "x") Token.beforeSelected
      Token.behindSelected (by decide +kernel) (fun _ _ => rfl) fun _ _ => rfl
  have hbackslash : '\\' ∈ (Text.doubled "\\" "'").toList := by decide +kernel
  have hmysql : d = .mysql ↔ d' = .mysql :=
    Term.alike_of_inUnion hall ⟨.value (.str "\\") false, none⟩ (.string "\\")
      Token.beforeSelected Token.behindSelected (by decide +kernel) (fun _ _ => rfl)
      (fun _ _ => rfl) hbackslash
  have hmssql : d = .mssql ↔ d' = .mssql :=
    Term.alike_of_inUnion hall ⟨.call { name := "POW" }, none⟩ (.function "POW")
      Token.beforeSelected ([.lparen, .rparen] ++ Token.behindSelected) (by decide +kernel)
      (fun _ _ => rfl) (fun _ _ => rfl) (by decide)
  have hsqlite : d = .sqlite ↔ d' = .sqlite :=
    Term.alike_of_inUnion hall ⟨.value (.bool true) false, none⟩ (.bool true)
      Token.beforeSelected Token.behindSelected (by decide +kernel) (fun _ _ => rfl)
      fun _ _ => rfl
  exact ⟨hident, hmysql, hmssql, hsqlite⟩

/-! ## The theorem -/

namespace SetOperation

/-- What is written is the same where the tokens are alike. -/
theorem written_congr {s : SetOperation} {ctx : Context} {d d' : Dialect} {quote quote' : String}
    {p : Parameters}
    (h : ∀ ts, ((s.draft ctx).finish p).1 = .ok ts →
      ∀ t ∈ ts, t.Alike (ctx.inDialect d quote) (ctx.inDialect d' quote')) :
    s.written (ctx.inDialect d quote) p = s.written (ctx.inDialect d' quote') p := by
  simp only [written, draft_inDialect, Draft.render]
  refine Prod.ext ?_ rfl
  cases hts : ((s.draft ctx).finish p).1 with
  | error e => rfl
  | ok ts => exact congrArg Except.ok (Token.texts_congr (h ts hts))

/-- **A set operation keeps its dialect up to its tokens.** Take two contexts that differ in the
    dialect and in the quote around identifiers. By itself, as a term and as what a statement reads,
    a set operation is written in the same pieces in both of them, which are those in its own
    dialect: the same tokens and placeholders, the same values and the same errors. What is written
    is the same where none of the tokens is a name, a truth value, a string or a document with a
    backslash or a function's name that looks different in the two contexts. It is the same for all
    set operations exactly if the quotes are and the dialects write all tokens alike. -/
theorem render_inDialect (s : SetOperation) (ctx : Context) (d d' : Dialect)
    (quote quote' : String) (p : Parameters) :
    (s.draft (ctx.inDialect d quote) = s.draft ctx ∧
      (Term.ofSetOperation s).draft (ctx.inDialect d quote) = s.draft ctx ∧
      (FromItem.setOperation s).draft (ctx.inDialect d quote) = s.draft ctx ∧
      s.draft ctx = s.draft (ctx.inDialect s.base.dialect s.base.dialect.identQuote)) ∧
    ((∀ ts, ((s.draft ctx).finish p).1 = .ok ts →
        ∀ t ∈ ts, t.Alike (ctx.inDialect d quote) (ctx.inDialect d' quote')) →
      s.written (ctx.inDialect d quote) p = s.written (ctx.inDialect d' quote') p) ∧
    ((∀ (s : SetOperation) (ctx : Context) (p : Parameters),
        s.written (ctx.inDialect d quote) p = s.written (ctx.inDialect d' quote') p) ↔
      quote = quote' ∧ d.WritesLike d') := by
  have hsame := s.draft_inDialect ctx d quote
  refine ⟨⟨hsame, hsame, hsame, (s.draft_inDialect ctx _ _).symm⟩, written_congr,
    writesLike_of_forall, ?_⟩
  rintro ⟨rfl, hd⟩ s ctx p
  exact written_congr fun ts _ t _ => Token.alike_of_writesLike hd ctx quote t

/-- A column of two tables and a truth value. The set operation is one of the generic dialect, and
    all of this looks different inside of statements of MySQL and of SQLite. -/
theorem render_inDialect_union :
    let select (name : String) (terms : List Term) : Query :=
      { Query.start 1 .generic with sources := [.table (.named 2 name)], selects := terms }
    let column : Term := ⟨.field "x" none, none⟩
    let yes : Term := ⟨.value (.bool true) false, none⟩
    let s := (select "a" [column, yes]).combine 3 .union (select "b" [column, yes])
    let text (d : Dialect) := (s.written (Context.inDialect default d d.identQuote) {}).1
    text .generic = .ok "(SELECT \"x\",true FROM \"a\") UNION (SELECT \"x\",true FROM \"b\")" ∧
      text .mysql = .ok "(SELECT `x`,true FROM `a`) UNION (SELECT `x`,true FROM `b`)" ∧
      text .sqlite = .ok "(SELECT \"x\",1 FROM \"a\") UNION (SELECT \"x\",1 FROM \"b\")" := by
  decide +kernel

end SetOperation

end SqlCompose
