import SqlCompose.Dialect.Basic
import SqlCompose.Json.Document

/-! # Dialects in JSON — the document that names a dialect

    A dialect is written as its name. It is read from a name that a configuration may use, by itself
    or as the only member of an object, where it has nothing to say beside the name. -/

namespace SqlCompose.Dialect

/-- The dialect that a document names. -/
def ofJson? : Json → Option Dialect
  | .string name => configured? name
  | .object [(name, .null)] => configured? name
  | _ => none

/-- The document for a dialect. -/
def toJson (d : Dialect) : Json := .string d.name

end SqlCompose.Dialect
