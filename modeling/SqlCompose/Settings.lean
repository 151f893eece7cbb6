import SqlCompose.Context
import SqlCompose.Toml.Reader

/-! # Settings — how statements are written by default

    Settings are read from a TOML document: the table `render` holds a dialect, the word before
    aliases and three kinds of quotes. Keys that are not known are passed over; a key with a value
    of the wrong type is an error, and so is a number without a value below any key. Only what a
    list holds behind the last setting is not looked at. -/

namespace SqlCompose

open Toml (Node Entries)

/-- How statements are written by default; what is absent is up to the dialect. -/
structure Settings where
  dialect    : Dialect := .generic
  /-- Whether `AS` stands before an alias. -/
  asKeyword  : Bool := false
  identQuote : Option String := none
  textQuote  : Option String := none
  aliasQuote : Option String := none
deriving DecidableEq

/-- Why settings cannot be read. -/
inductive SettingsError
  /-- There is nothing at the path. -/
  | missing (path : String)
  /-- What is at the path cannot be read as text. -/
  | unreadable
  /-- The text is no document, or one with a value of the wrong type. -/
  | malformed
deriving DecidableEq

/-- The wording of an error, as far as it does not depend on its details. -/
def SettingsError.message : SettingsError → String
  | missing path => "Config file not found: " ++ path
  | unreadable => "Failed to read config file"
  | malformed => "Failed to parse config file"

/-- What may be found at a path. -/
inductive FileContent
  | missing
  | unreadable
  | text (content : String)

namespace Settings

/-! ## Values -/

/-- Whether a value holds nothing: a list without items or a table without keys. -/
def holdsNothing : Node → Bool
  | .list items => items.isEmpty
  | .table _ entries => entries.isEmpty
  | _ => false

/-- The dialect that a value names, by itself or as the only key of a table. -/
def dialect? : Node → Option Dialect
  | .string name => Dialect.configured? name
  | .table _ [(name, inner)] => if holdsNothing inner then Dialect.configured? name else none
  | _ => none

/-- The truth value that a value is. -/
def truth? : Node → Option Bool
  | .boolean b => some b
  | _ => none

/-- The text that a value is. -/
def text? : Node → Option String
  | .string s => some s
  | _ => none

/-! ## Keys -/

/-- The keys of the settings, in their order. -/
def keys : List String :=
  ["dialect", "as_keyword", "quote_char", "secondary_quote_char", "alias_quote_char"]

/-- The settings with one key set; one that is not known changes nothing. -/
def set (s : Settings) : String × Node → Option Settings
  | ("dialect", n) => (dialect? n).map fun d => { s with dialect := d }
  | ("as_keyword", n) => (truth? n).map fun b => { s with asKeyword := b }
  | ("quote_char", n) => (text? n).map fun t => { s with identQuote := some t }
  | ("secondary_quote_char", n) => (text? n).map fun t => { s with textQuote := some t }
  | ("alias_quote_char", n) => (text? n).map fun t => { s with aliasQuote := some t }
  | (_, n) => if n.isReadable then some s else none

/-- The settings that a list of values holds, in the order of the keys; what follows is not looked
    at. -/
def ofList? (items : List Node) : Option Settings := (keys.zip items).foldlM set {}

/-- The settings that a value holds: a table, or a list of values. A date or time has none of the
    keys. -/
def ofNode? : Node → Option Settings
  | .table _ entries => entries.foldlM set {}
  | .list items => ofList? items
  | .tables items => ofList? (items.map (.table .header))
  | .moment => some {}
  | _ => none

/-- The settings in a document; its other keys change nothing. -/
def ofDocument? (entries : Entries) : Option Settings :=
  if entries.all fun (key, n) => key == "render" || n.isReadable then
    match entries.lookup "render" with
    | some n => ofNode? n
    | none => some {}
  else none

/-- Reads settings from the text of a document. -/
def read (text : String) : Except SettingsError Settings :=
  match (Toml.read? text).bind ofDocument? with
  | some s => .ok s
  | none => .error .malformed

/-- Reads settings from what is at a path. -/
def readAt (path : String) : FileContent → Except SettingsError Settings
  | .missing => .error (.missing path)
  | .unreadable => .error .unreadable
  | .text content => read content

/-! ## Use -/

/-- The context that the settings ask for: that of their dialect, changed where they say so. -/
def context (s : Settings) : Context :=
  (Context.ofDialect s.dialect).override {
    identQuote := s.identQuote
    textQuote := s.textQuote
    aliasQuote := s.aliasQuote
    asKeyword := some s.asKeyword }

end Settings

end SqlCompose
