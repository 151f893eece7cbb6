import SqlCompose.Draft

/-! # Clauses by dialect — arrays, JSON paths and pagination

    Each function puts drafts of the parts together to the draft of the whole, in the order in which
    the parts are written. No part is dropped, doubled or moved. -/

namespace SqlCompose

/-- One step of a path into a JSON document. -/
inductive PathStep
  | key (name : String)
  | index (n : Int64)
deriving DecidableEq

namespace PathStep

/-- The step behind an arrow: a quoted name or a number. -/
def arrowText : PathStep → String
  | key name => "'" ++ name ++ "'"
  | index n => toString n.toInt

/-- The step in a path that starts at `$`. -/
def dollarText : PathStep → String
  | key name => "." ++ name
  | index n => "[" ++ toString n.toInt ++ "]"

/-- A path that starts at `$`. -/
def dollarPath (path : List PathStep) : String :=
  "$" ++ String.join (path.map dollarText)

/-- A path of arrows, the last of which asks for text. -/
def arrows : List PathStep → List Token
  | [] => []
  | [step] => [.raw ("->>" ++ step.arrowText)]
  | step :: rest => .raw ("->" ++ step.arrowText) :: arrows rest

end PathStep

namespace Dialect

open Draft

/-! ## Terms -/

/-- An array of items. -/
def array (d : Dialect) (items : List Draft) : Draft :=
  match d with
  | postgres =>
    if items.isEmpty then raw "'\x7b\x7d'" else word .array ++ brackets (commas items)
  | _ => brackets (commas items)

/-- The value at a path inside a JSON column. -/
def jsonPath (d : Dialect) (column : Draft) (path : List PathStep) : Draft :=
  match d with
  | mysql | sqlite => column ++ raw ("->>'" ++ PathStep.dollarPath path ++ "'")
  | mssql =>
    token (.function "JSON_VALUE") ++
      parens (column ++ token .comma ++ space ++ raw ("'" ++ PathStep.dollarPath path ++ "'"))
  | _ => column ++ tokens (PathStep.arrows path)

/-! ## Pagination -/

/-- A limit and an offset, each with its keyword in front. -/
def limitOffset (limit offset : Option Draft) : Draft :=
  let limit := match limit with
    | some n => clause [.limit] n
    | none => empty
  let offset := match offset with
    | some n => clause [.offset] n
    | none => empty
  limit ++ offset

/-- The clause that skips rows. -/
def offsetRows (n : Draft) : Draft := clause [.offset] n ++ space ++ word .rows

/-- The clause that takes rows. -/
def fetchRows (n : Draft) : Draft := clause [.fetch, .next] n ++ space ++ words [.rows, .only]

/-- The order that stands in where one is required and none is given. -/
def anyOrder : Draft :=
  clause [.orderBy] (parens (word .select ++ space ++ token (.int 0)))

/-- The clauses for an offset and a limit. SQL Server allows them only after an order, and the
    limit only after an offset. -/
def pagination (d : Dialect) (limit offset : Option Draft) (ordered : Bool) : Draft :=
  match d, limit, offset with
  | mssql, none, none => empty
  | mssql, limit, offset =>
    when (!ordered) anyOrder ++ offsetRows (offset.getD (token (.int 0))) ++
      match limit with
      | some n => fetchRows n
      | none => empty
  | oracle, limit, offset =>
    let skipped := match offset with
      | some n => offsetRows n
      | none => empty
    let taken := match limit with
      | some n => fetchRows n
      | none => empty
    skipped ++ taken
  | _, limit, offset => limitOffset limit offset

end Dialect

end SqlCompose
