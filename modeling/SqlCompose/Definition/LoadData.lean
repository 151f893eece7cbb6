import SqlCompose.Render

/-! # LOAD DATA — a file of comma separated values read into a table

    The statement is MySQL's. It is written once it says which file and which table are meant. -/

namespace SqlCompose

open Draft

/-- A LOAD DATA under construction. -/
structure LoadData where
  /-- Where the file is on the client. -/
  path  : Option String := none
  table : Option Table := none

namespace LoadData

/-- The statement as written. -/
def draft (ctx : Context) (l : LoadData) : Draft :=
  match l.path, l.table with
  | some path, some table =>
    words [.load, .data, .local_, .infile] ++ space ++ token (.string path) ++
      clause [.into, .table] (table.draft ctx) ++
      clause [.fields, .terminatedBy] (token (.string ","))
  | _, _ => empty

/-- The text of the statement in MySQL's dialect. -/
def sql (l : LoadData) : Except BuildError String :=
  let ctx := Context.ofDialect .mysql
  (l.draft ctx).text ctx

end LoadData

end SqlCompose
