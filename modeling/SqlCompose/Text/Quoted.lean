/-! # Quoted text — wrapping text in a quote and protecting what is inside

    A quote is any string, the empty one included: an empty quote leaves its text bare.

    * `wrapped` puts a quote on both sides and protects nothing.
    * `doubled` writes every quote inside the text twice.
    * `backslashed` writes every backslash twice.

    Both of the latter are instances of `substitute`. -/

namespace SqlCompose.Text

/-- Rewrites, from left to right, every occurrence of `old` to `new`; occurrences do not overlap.
    `skip` is the number of characters still to be dropped, those of an occurrence just found. -/
def substituteFrom (old new : List Char) : Nat → List Char → List Char
  | _, [] => []
  | skip + 1, _ :: rest => substituteFrom old new skip rest
  | 0, c :: rest =>
    if old.isPrefixOf (c :: rest) then new ++ substituteFrom old new (old.length - 1) rest
    else c :: substituteFrom old new 0 rest

/-- Rewrites every occurrence of `old`, a text of at least one character, to `new`. -/
def substitute (old new text : String) : String :=
  String.ofList (substituteFrom old.toList new.toList 0 text.toList)

/-- The text between two quotes. -/
def wrapped (text quote : String) : String :=
  quote ++ text ++ quote

/-- Every quote in the text written twice; an empty quote occurs nowhere. -/
def doubled (text quote : String) : String :=
  if quote.isEmpty then text else substitute quote (quote ++ quote) text

/-- Every backslash in the text written twice. -/
def backslashed (text : String) : String :=
  substitute "\\" "\\\\" text

end SqlCompose.Text
