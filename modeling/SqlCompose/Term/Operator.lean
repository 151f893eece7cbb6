import SqlCompose.Draft

/-! # Operators — comparators, combinators, arithmetic and window frames

    The parts of terms that hold no terms themselves. -/

namespace SqlCompose

open Draft

/-- An operator of a comparison. -/
inductive Comparator
  | eq | ne | gt | gte | lt | lte
  | like | notLike | ilike | notIlike | rlike | regex | regexp | binRegex | glob | asOf
  | getJsonValue | getTextValue | getPathJsonValue | getPathTextValue
  | hasKey | contains | containedBy | hasKeys | hasAnyKeys
deriving DecidableEq

/-- The text of a comparator, with the blanks around words. -/
def Comparator.text : Comparator → String
  | eq => "="
  | ne => "<>"
  | gt => ">"
  | gte => ">="
  | lt => "<"
  | lte => "<="
  | like => " LIKE "
  | notLike => " NOT LIKE "
  | ilike => " ILIKE "
  | notIlike => " NOT ILIKE "
  | rlike => " RLIKE "
  | regex => " REGEX "
  | regexp => " REGEXP "
  | binRegex => " REGEX BINARY "
  | glob => " GLOB "
  | asOf => " AS OF "
  | getJsonValue => "->"
  | getTextValue => "->>"
  | getPathJsonValue => "#>"
  | getPathTextValue => "#>>"
  | hasKey => "?"
  | contains => "@>"
  | containedBy => "<@"
  | hasKeys => "?&"
  | hasAnyKeys => "?|"

/-- What combines two criteria to one. -/
inductive Combinator
  | and | or | xor
deriving DecidableEq

/-- The keyword of a combinator. -/
def Combinator.keyword : Combinator → Keyword
  | and => .and
  | or => .or
  | xor => .xor

/-! ## Arithmetic -/

/-- An operator of arithmetic. -/
inductive ArithmeticOp
  | add | sub | mul | div
deriving DecidableEq

namespace ArithmeticOp

/-- The sign of an operator. -/
def text : ArithmeticOp → String
  | add => "+"
  | sub => "-"
  | mul => "*"
  | div => "/"

/-- Whether the operator adds or subtracts. -/
def isAdditive : ArithmeticOp → Bool
  | add | sub => true
  | _ => false

/-- Whether a left operand with the operator `left` at its top is parenthesized. -/
def bracketsLeft (op : ArithmeticOp) (left : Option ArithmeticOp) : Bool :=
  match left with
  | none => false
  | some left => !op.isAdditive && left.isAdditive

/-- Whether a right operand with the operator `right` at its top is parenthesized. -/
def bracketsRight (op : ArithmeticOp) (right : Option ArithmeticOp) : Bool :=
  match op, right with
  | _, none => false
  | add, some _ => false
  | div, some _ => true
  | _, some right => right.isAdditive

end ArithmeticOp

/-! ## Order -/

/-- A direction of sorting. -/
inductive Direction
  | asc | desc
deriving DecidableEq

/-- The word for a direction. -/
def Direction.text : Direction → String
  | asc => "ASC"
  | desc => "DESC"

/-- A direction behind what is sorted, if one is given. -/
def Direction.suffix : Option Direction → Draft
  | some d => space ++ raw d.text
  | none => empty

/-! ## Window frames -/

/-- What the bounds of a window frame count. -/
inductive FrameKind
  | rows | range
deriving DecidableEq

/-- The keyword of a kind of frame. -/
def FrameKind.keyword : FrameKind → Keyword
  | rows => .rows
  | range => .range

/-- A bound of a window frame. A distance of zero counts as none, and without a distance the
    bound is the end of the partition. -/
inductive Edge
  | preceding (distance : Option Nat)
  | following (distance : Option Nat)
  | currentRow
deriving DecidableEq

namespace Edge

/-- A distance in a direction. -/
def distanceTokens (distance : Option Nat) (direction : Keyword) : List Token :=
  match distance with
  | some (n + 1) => [.raw (toString (n + 1)), .space, .keyword direction]
  | _ => [.keyword .unbounded, .space, .keyword direction]

/-- The tokens of a bound. -/
def tokens : Edge → List Token
  | preceding n => distanceTokens n .preceding
  | following n => distanceTokens n .following
  | currentRow => [.keyword .currentRow]

end Edge

/-- A window frame: from one bound, or between two. -/
structure Frame where
  kind  : FrameKind
  lower : Edge
  upper : Option Edge := none
deriving DecidableEq

namespace Frame

/-- The tokens of a frame. -/
def tokens (f : Frame) : List Token :=
  match f.upper with
  | none => [.keyword f.kind.keyword, .space] ++ f.lower.tokens
  | some upper =>
    [.keyword f.kind.keyword, .space, .keyword .between, .space] ++ f.lower.tokens ++
      [.space, .keyword .and, .space] ++ upper.tokens

/-- The text of a frame, which looks the same in every context. -/
def text (f : Frame) : String := Token.texts default f.tokens

end Frame

end SqlCompose
