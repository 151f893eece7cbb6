import SqlCompose.Calendar
import SqlCompose.Json.Printer
import SqlCompose.Uuid

/-! # Constants — the values that a statement carries

    A `Value` is written in one of two ways: as a literal inside the statement, or beside it as a
    bind value. `Value.toJson` is the document that stands for a value wherever JSON is asked for;
    `jsonText` and `interchangeText` write that document. -/

namespace SqlCompose

/-- A part of a date, as named in `EXTRACT`. It is written as a bare word. -/
inductive DatePart
  | year | quarter | month | week | day | hour | minute | second | microsecond
deriving DecidableEq

/-- Every part of a date, once. -/
def DatePart.all : List DatePart :=
  [.year, .quarter, .month, .week, .day, .hour, .minute, .second, .microsecond]

/-- The word for a part of a date. -/
def DatePart.word : DatePart → String
  | .year => "YEAR"
  | .quarter => "QUARTER"
  | .month => "MONTH"
  | .week => "WEEK"
  | .day => "DAY"
  | .hour => "HOUR"
  | .minute => "MINUTE"
  | .second => "SECOND"
  | .microsecond => "MICROSECOND"

/-- A constant. -/
inductive Value
  | null
  | bool (b : Bool)
  | int (n : Int64)
  | float (x : Binary64)
  | str (s : String)
  | date (d : Date)
  | time (t : Clock)
  | dateTime (d : Date) (t : Clock)
  /-- A local date and time, and how many seconds it is ahead of universal time. -/
  | dateTimeTz (d : Date) (t : Clock) (offset : Int)
  | uuid (u : Uuid)
  | json (d : Json)
  | list (items : List Value)
  | part (p : DatePart)

namespace Value

/-! ## Bind values -/

/-- Whether the constant may be bound instead of written. Parts of a date and the string `*` are
    part of the statement's structure and stay in it. -/
def isBindable : Value → Bool
  | .part _ => false
  | .str s => s != "*"
  | _ => true

/-! ## JSON -/

mutual

/-- The document for a constant: dates and the like are strings, a number that is not finite is
    null. -/
def toJson : Value → Json
  | .null => .null
  | .bool b => .bool b
  | .int n => .whole (.ofInt64 n)
  | .float x => if x.isFinite then .float x else .null
  | .str s => .string s
  | .date d => .string d.text
  | .time t => .string t.interchangeText
  | .dateTime d t => .string (d.text ++ "T" ++ t.interchangeText)
  | .dateTimeTz d t offset => .string (d.text ++ "T" ++ t.interchangeText ++ zuluText offset)
  | .uuid u => .string u.text
  | .json d => d
  | .list items => .array (listToJson items)
  | .part p => .string p.word

/-- The documents for a list of constants. -/
def listToJson : List Value → List Json
  | [] => []
  | item :: rest => item.toJson :: listToJson rest

end

/-- JSON text with blanks between its parts and in ASCII only. -/
def jsonText (v : Value) : String := Json.write Json.spaced v.toJson

/-- JSON text without blanks, as bind values are handed on. -/
def interchangeText (v : Value) : String := Json.write Json.compact v.toJson

end Value

end SqlCompose
