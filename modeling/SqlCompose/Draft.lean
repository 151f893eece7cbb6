import SqlCompose.Error
import SqlCompose.Value

/-! # Drafts — written statements whose bind values are not yet numbered

    Writing a tree yields a `Draft`: the pieces written so far and, if the writing had to stop, the
    reason. A piece is a token, or a hole that a bind value takes the place of. Drafts are put
    together with `++`; what comes after a stop is dropped, so the pieces of a draft are always
    those that were written before anything went wrong.

    `Draft.finish` numbers the holes from left to right, starting after the values that a
    `Parameters` holds already, and adds the values of the holes to it, in the same order and also
    when the draft stopped. -/

namespace SqlCompose

/-! ## Parameters -/

/-- A placeholder that stands in the tree itself. -/
inductive Parameter
  /-- A placeholder with the given text. -/
  | placeholder (text : String)
  /-- The placeholder that the dialect has for an index, counted from one. -/
  | index (n : Nat)
deriving DecidableEq

namespace Parameter

/-- A placeholder with the given text, which may not be empty. -/
def placeholder? (text : String) : Except BuildError Parameter :=
  if text.isEmpty then .error .emptyPlaceholder else .ok (.placeholder text)

/-- The placeholder for an index. -/
def index? (n : Nat) : Except BuildError Parameter :=
  if n < 1 then .error .indexBelowOne else .ok (.index n)

/-- The text of a placeholder in a dialect. -/
def text (d : Dialect) : Parameter → String
  | placeholder text => text
  | index n => d.placeholder n

end Parameter

/-- The bind values of one or more statements, and how their placeholders are made. -/
structure Parameters where
  values  : List Value := []
  /-- The text of the placeholder with an index; without one, the dialect's. -/
  factory : Option (Nat → String) := none

namespace Parameters

/-- The placeholder for an index. -/
def placeholderFor (factory : Option (Nat → String)) (index : Nat) : Parameter :=
  match factory with
  | some make => .placeholder (make index)
  | none => .index index

/-- Adds a value and returns the placeholder that stands for it. -/
def capture (p : Parameters) (v : Value) : Parameter × Parameters :=
  (placeholderFor p.factory (p.values.length + 1), { p with values := p.values ++ [v] })

end Parameters

/-! ## Pieces -/

/-- A part of a draft. -/
inductive Piece
  | token (t : Token)
  /-- The place of a bind value, in a statement of the given dialect. -/
  | hole (v : Value) (d : Dialect)

namespace Piece

/-- The values of the holes, from left to right. -/
def values : List Piece → List Value
  | [] => []
  | token _ :: rest => values rest
  | hole v _ :: rest => v :: values rest

/-- The pieces with the holes filled by placeholders, numbered on from `count`. -/
def number (factory : Option (Nat → String)) (count : Nat) : List Piece → List Token
  | [] => []
  | token t :: rest => t :: number factory count rest
  | hole _ d :: rest =>
    .raw ((Parameters.placeholderFor factory (count + 1)).text d) ::
      number factory (count + 1) rest

end Piece

/-! ## Drafts -/

/-- Why the writing of a tree stopped. -/
inductive Stop
  | error (e : BuildError)
  /-- Two operands of a set operation do not fit together; both were written out, in the given
      context, to be shown. -/
  | unequalOperands (ctx : Context) (main other : List Piece)

/-- What has been written, and why not more. -/
structure Draft where
  pieces : List Piece
  stop   : Option Stop := none

namespace Draft

/-- Nothing written. -/
def empty : Draft := ⟨[], none⟩

/-- One draft after another; a stop ends the writing. -/
def append (a b : Draft) : Draft :=
  match a.stop with
  | none => ⟨a.pieces ++ b.pieces, b.stop⟩
  | some _ => a

instance : Append Draft := ⟨append⟩

instance : EmptyCollection Draft := ⟨empty⟩

/-- A draft of one token. -/
def token (t : Token) : Draft := ⟨[.token t], none⟩

/-- A draft of tokens. -/
def tokens (ts : List Token) : Draft := ⟨ts.map .token, none⟩

/-- A draft of one hole. -/
def hole (v : Value) (d : Dialect) : Draft := ⟨[.hole v d], none⟩

/-- A draft that stops at once. -/
def fail (e : BuildError) : Draft := ⟨[], some (.error e)⟩

/-- A draft of one keyword. -/
def word (k : Keyword) : Draft := token (.keyword k)

/-- A draft of one blank. -/
def space : Draft := token .space

/-- A draft of text that is written as it stands. -/
def raw (text : String) : Draft := token (.raw text)

/-- A draft of keywords with a blank between each two. -/
def words (ks : List Keyword) : Draft :=
  tokens (Token.joined .space (ks.map fun k => [.keyword k]))

/-- A draft between parentheses. -/
def parens (d : Draft) : Draft := token .lparen ++ d ++ token .rparen

/-- A draft between parentheses if the condition holds. -/
def parensIf (condition : Bool) (d : Draft) : Draft := if condition then parens d else d

/-- A draft between brackets. -/
def brackets (d : Draft) : Draft := token .lbracket ++ d ++ token .rbracket

/-- Drafts one after the other, with a separator between each two. -/
def join (separator : Draft) : List Draft → Draft
  | [] => empty
  | [d] => d
  | d :: rest => d ++ separator ++ join separator rest

/-- Drafts one after the other, with a comma between each two. -/
def commas (ds : List Draft) : Draft := join (token .comma) ds

/-- A clause of its own: keywords, blanks before and behind them, and what follows. -/
def clause (ks : List Keyword) (body : Draft) : Draft := space ++ words ks ++ space ++ body

/-- A draft if the condition holds, otherwise nothing. -/
def when (condition : Bool) (d : Draft) : Draft := if condition then d else empty

/-! ## Laws of composition

Drafts are a monoid under `++`, so a clause may be regrouped freely. -/

@[simp] theorem empty_append (d : Draft) : empty ++ d = d := rfl

@[simp] theorem append_empty (d : Draft) : d ++ empty = d := by
  rcases d with ⟨pieces, _ | stop⟩
  · exact congrArg (Draft.mk · none) (List.append_nil pieces)
  · rfl

theorem append_assoc (a b c : Draft) : a ++ b ++ c = a ++ (b ++ c) := by
  rcases a with ⟨as, _ | stop⟩
  · rcases b with ⟨bs, _ | stop⟩
    · exact congrArg (Draft.mk · c.stop) (List.append_assoc as bs c.pieces)
    · rfl
  · rfl

/-- What comes after a stop is dropped. -/
theorem append_of_stop {d : Draft} {s : Stop} (h : d.stop = some s) (rest : Draft) :
    d ++ rest = d := by
  rcases d with ⟨pieces, stop⟩
  cases h
  rfl

/-! ## Finishing -/

/-- The values bound by the draft, in the order of their holes; what was written out only to be
    shown counts as well. -/
def bound (d : Draft) : List Value :=
  Piece.values d.pieces ++
    match d.stop with
    | some (.unequalOperands _ main other) => Piece.values main ++ Piece.values other
    | _ => []

/-- The tokens of the draft, its holes numbered on from `count`. -/
def numbered (factory : Option (Nat → String)) (count : Nat) (d : Draft) :
    Except BuildError (List Token) :=
  match d.stop with
  | none => .ok (Piece.number factory count d.pieces)
  | some (.error e) => .error e
  | some (.unequalOperands ctx main other) =>
    let before := count + (Piece.values d.pieces).length
    let between := before + (Piece.values main).length
    .error (.unequalOperands
      (Token.texts ctx (Piece.number factory before main))
      (Token.texts ctx (Piece.number factory between other)))

/-- The tokens of the draft and the parameters with its values added. -/
def finish (d : Draft) (p : Parameters) : Except BuildError (List Token) × Parameters :=
  (d.numbered p.factory p.values.length, { p with values := p.values ++ d.bound })

/-- The text of the draft in a context, and the parameters with its values added. -/
def render (d : Draft) (ctx : Context) (p : Parameters) :
    Except BuildError String × Parameters :=
  let (tokens, p) := d.finish p
  (tokens.map (Token.texts ctx), p)

/-- The text of a draft that binds no values. -/
def text (d : Draft) (ctx : Context) : Except BuildError String := (d.render ctx {}).1

/-- Two operands that do not fit together, both written out. If one of them cannot be written,
    that is why the writing stops. -/
def unequal (ctx : Context) (main other : Draft) : Draft :=
  match main.stop, other.stop with
  | none, none => ⟨[], some (.unequalOperands ctx main.pieces other.pieces)⟩
  | _, _ => main ++ other

end Draft

namespace Context

/-- An alias after a source or a term, `AS` before it if the context says so. There is nothing to
    declare when there is no alias or an empty one. -/
def aliasDraft (ctx : Context) : Option String → Draft
  | none => .empty
  | some aliasName =>
    if aliasName.isEmpty then .empty
    else
      .space ++ Draft.when ctx.asKeyword (.word .as ++ .space) ++ .token (.aliasName aliasName)

/-- An alias, if the context asks for its declaration. -/
def declaration (ctx : Context) (aliasName : Option String) : Draft :=
  if ctx.declares then ctx.aliasDraft aliasName else .empty

/-- Without an alias there is nothing to declare, asked or not. -/
theorem declaration_none (ctx : Context) : ctx.declaration none = .empty := by
  simp only [declaration]
  split <;> rfl

end Context

namespace Value

/-- The literal for a constant. A number that is not finite has none. -/
def literal : Value → Draft
  | .null => .token .null
  | .bool b => .token (.bool b)
  | .int n => .token (.int n)
  | .float x => if x.isFinite then .token (.float x) else .fail (.notFinite x)
  | .str s => .token (.string s)
  | .date d => .token (.string d.text)
  | .time t => .token (.string t.literalText)
  | .dateTime d t => .token (.string (d.text ++ "T" ++ t.literalText))
  | .dateTimeTz d t offset =>
    .token (.string (d.text ++ "T" ++ t.literalText ++ offsetText offset))
  | .uuid u => .token (.string u.text)
  | .json d => .token (.json (jsonText (.json d)))
  | .list items => .token (.json (jsonText (.list items)))
  | .part p => .raw p.word

/-- A constant in a context: its literal, or a hole if the context binds constants and this one
    may be bound. -/
def draft (ctx : Context) (v : Value) (mayBind : Bool) : Draft :=
  if ctx.binding && mayBind && v.isBindable then .hole v ctx.dialect else v.literal

end Value

end SqlCompose
