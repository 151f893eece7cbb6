import SqlCompose.Decimal.Binary64

/-! # TOML documents — tables of named values, and when a table may be extended

    A document is a table. Its lines add to it one after the other, and no line may take back what
    an earlier one said: a key is set once, a table has one header, and how a table came to be
    decides who may add to it later.

    A number may be well written and still have no value. A document that holds one is a document;
    whoever needs the value has to refuse it. -/

namespace SqlCompose.Toml

/-- How a table came to be. -/
inductive Origin
  /-- By a header of its own; the document itself counts as this. -/
  | header
  /-- By the header of a table inside it, so that its own may still come. -/
  | implied
  /-- By a dotted key, so that other dotted keys may add to it. -/
  | dotted
  /-- Between braces, where all of it is said. -/
  | inline
deriving DecidableEq

/-- A value in a document. -/
inductive Node
  | string (s : String)
  | integer (n : Int)
  | float (x : Binary64)
  /-- A number that is too large to be held, the mark of a base without digits, or groups of digits
      with other characters among them. -/
  | valueless
  | boolean (b : Bool)
  /-- A date, a time or both. -/
  | moment
  | list (items : List Node)
  /-- Tables that have one header each. -/
  | tables (items : List (List (String × Node)))
  | table (origin : Origin) (entries : List (String × Node))

/-- Keys and their values, in the order in which they were set. -/
abbrev Entries := List (String × Node)

/-! ## Numbers without a value -/

mutual

/-- Whether all numbers in it have a value. -/
def Node.isReadable : Node → Bool
  | .valueless => false
  | .list items => areItemsReadable items
  | .tables items => areTablesReadable items
  | .table _ entries => areEntriesReadable entries
  | .string _ | .integer _ | .float _ | .boolean _ | .moment => true

/-- Whether all numbers in the items of a list have a value. -/
def areItemsReadable : List Node → Bool
  | [] => true
  | item :: items => item.isReadable && areItemsReadable items

/-- Whether all numbers below the keys of a table have a value. -/
def areEntriesReadable : List (String × Node) → Bool
  | [] => true
  | (_, value) :: entries => value.isReadable && areEntriesReadable entries

/-- Whether all numbers in several tables have a value. -/
def areTablesReadable : List (List (String × Node)) → Bool
  | [] => true
  | entries :: items => areEntriesReadable entries && areTablesReadable items

end

/-! ## Adding to a document -/

namespace Entries

/-- Gives a key that is there another value. -/
def replace (key : String) (node : Node) (entries : Entries) : Entries :=
  entries.map fun (k, n) => if k == key then (k, node) else (k, n)

/-- Changes the table at the end of a path. Tables that are missing on the way are made; whether
    those that are there may be entered depends on whether the path is a dotted key. -/
def within (isDotted : Bool) (change : Origin → Entries → Option (Origin × Entries)) :
    List String → Origin → Entries → Option (Origin × Entries)
  | [], origin, entries => change origin entries
  | key :: path, origin, entries =>
    match entries.lookup key with
    | none => do
      let made := if isDotted then Origin.dotted else Origin.implied
      let (inner, members) ← within isDotted change path made []
      return (origin, entries ++ [(key, .table inner members)])
    | some (.table inner members) =>
      if inner = .inline || (isDotted && inner = .header) then none
      else do
        let (inner, members) ← within isDotted change path inner members
        return (origin, entries.replace key (.table inner members))
    | some (.tables items) => do
      let (_, members) ← within isDotted change path .header (items.getLast?.getD [])
      return (origin, entries.replace key (.tables (items.dropLast ++ [members])))
    | some _ => none

/-- Sets a key at the end of a dotted path, which may be empty. -/
def set (path : List String) (key : String) (value : Node) (origin : Origin) (entries : Entries) :
    Option (Origin × Entries) :=
  let change (inner : Origin) (members : Entries) : Option (Origin × Entries) :=
    if (inner = .dotted) = path.isEmpty || (members.lookup key).isSome then none
    else some (inner, members ++ [(key, value)])
  within true change path origin entries

/-- Adds the header of a table. -/
def addHeader (path : List String) (key : String) (entries : Entries) : Option Entries :=
  let change (origin : Origin) (members : Entries) : Option (Origin × Entries) :=
    match members.lookup key with
    | none => some (origin, members ++ [(key, .table .header [])])
    | some (.table .implied inner) => some (origin, members.replace key (.table .header inner))
    | some _ => none
  (within false change path .header entries).map Prod.snd

/-- Adds one more of several tables with the same header. -/
def addTable (path : List String) (key : String) (entries : Entries) : Option Entries :=
  let change (origin : Origin) (members : Entries) : Option (Origin × Entries) :=
    match members.lookup key with
    | none => some (origin, members ++ [(key, .tables [[]])])
    | some (.tables items) => some (origin, members.replace key (.tables (items ++ [[]])))
    | some _ => none
  (within false change path .header entries).map Prod.snd

/-- Sets a key in the table below a header. -/
def setBelow (header path : List String) (key : String) (value : Node) (entries : Entries) :
    Option Entries :=
  (within false (set path key value) header .header entries).map Prod.snd

end Entries

end SqlCompose.Toml
