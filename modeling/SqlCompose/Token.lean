import SqlCompose.Context
import SqlCompose.Decimal.Layout
import SqlCompose.Keyword

/-! # Tokens — the smallest parts of a written statement

    A token says what a part is; `Token.text` says how it looks in a given context. Blanks are
    tokens too, so that the text of a statement is the texts of its tokens and nothing else. -/

namespace SqlCompose

/-- The smallest part of a statement. -/
inductive Token
  | keyword (k : Keyword)
  | comma | dot | star | lparen | rparen | lbracket | rbracket | equals | space
  /-- An operator, written as it stands. -/
  | operator (text : String)
  /-- A name between identifier quotes. -/
  | ident (name : String)
  /-- A name between alias quotes. -/
  | aliasName (name : String)
  | int (n : Int64)
  /-- A finite number. -/
  | float (x : Binary64)
  | string (s : String)
  | bool (b : Bool)
  /-- The text of a JSON document, to be written as a string. -/
  | json (text : String)
  | null
  /-- The name of a function; a dialect may have another one for it. -/
  | function (name : String)
  /-- Text that is written as it stands. -/
  | raw (text : String)
deriving DecidableEq

/-- Numbers are positional from `0.00001` to below `10 ^ 16`; exponents have no plus sign. -/
def literalLayout : Decimal.Layout := ⟨-5, 16, false, .toEven⟩

namespace Token

/-- The text of a token. -/
def text (ctx : Context) : Token → String
  | keyword k => k.text
  | comma => ","
  | dot => "."
  | star => "*"
  | lparen => "("
  | rparen => ")"
  | lbracket => "["
  | rbracket => "]"
  | equals => "="
  | space => " "
  | operator text => text
  | ident name => Text.wrapped name ctx.identQuote
  | aliasName name => Text.wrapped name ctx.effectiveAliasQuote
  | int n => toString n.toInt
  | float x => literalLayout.write x
  | string s => Text.wrapped (ctx.dialect.escapeString s ctx.textQuote) ctx.textQuote
  | bool b => ctx.dialect.boolText b
  | json text => ctx.dialect.escapeJson (Text.wrapped text ctx.textQuote)
  | null => "NULL"
  | function name => (ctx.dialect.functionName? name).getD name
  | raw text => text

/-- The text of a list of tokens. -/
def texts (ctx : Context) (ts : List Token) : String :=
  String.join (ts.map (text ctx))

/-- Lists of tokens one after the other, with a token between each two. -/
def joined (separator : Token) : List (List Token) → List Token
  | [] => []
  | [ts] => ts
  | ts :: rest => ts ++ separator :: joined separator rest

end Token

end SqlCompose
