import SqlCompose.Decimal.Binary64

/-! # JSON documents — the value that a JSON text stands for

    A number is whole if its text has neither a point nor a power of ten and it fits a 64-bit word,
    signed or not; every other number is a double-precision one. The members of an object stand in
    the order of their names, each name once: `insertMember` keeps it so. -/

namespace SqlCompose

/-- An integer that fits a signed or an unsigned 64-bit word. -/
structure WholeNumber where
  val   : Int
  least : -0x8000000000000000 ≤ val
  below : val < 0x10000000000000000
deriving DecidableEq

namespace WholeNumber

/-- The integer as a whole number, if it fits. -/
def ofInt? (n : Int) : Option WholeNumber :=
  if h : -0x8000000000000000 ≤ n ∧ n < 0x10000000000000000 then some ⟨n, h.1, h.2⟩ else none

/-- A signed word is a whole number. -/
def ofInt64 (n : Int64) : WholeNumber :=
  ⟨n.toInt, n.le_toInt, Int.lt_trans n.toInt_lt (by decide)⟩

/-- The signed word with the same value, if there is one. -/
def toInt64? (n : WholeNumber) : Option Int64 :=
  if n.val < 0x8000000000000000 then some (Int64.ofInt n.val) else none

end WholeNumber

/-- A JSON document. -/
inductive Json
  | null
  | bool (b : Bool)
  | whole (n : WholeNumber)
  | float (x : Binary64)
  | string (s : String)
  | array (items : List Json)
  | object (members : List (String × Json))

namespace Json

/-- Adds a member to members in name order; a member of the same name gives way. -/
def insertMember (name : String) (value : Json) : List (String × Json) → List (String × Json)
  | [] => [(name, value)]
  | (other, old) :: rest =>
    if name < other then (name, value) :: (other, old) :: rest
    else if name = other then (name, value) :: rest
    else (other, old) :: insertMember name value rest

/-- The object with the given members, the last of equal names winning. -/
def ofMembers (members : List (String × Json)) : Json :=
  .object (members.foldl (fun sorted (name, value) => insertMember name value sorted) [])

end Json

end SqlCompose
