import SqlCompose.Render

/-! # DROP TABLE — a table removed

    The statement is written once it says which table is meant. -/

namespace SqlCompose

open Draft

/-- A DROP TABLE under construction. -/
structure DropTable where
  dialect  : Dialect
  table    : Option Table := none
  ifExists : Bool := false

namespace DropTable

/-- Says which table is dropped, which can be said once. -/
def named (t : Table) (d : DropTable) : Except BuildError DropTable :=
  if d.table.isSome then .error (.alreadySet "drop_table") else .ok { d with table := some t }

/-- The statement as written. -/
def draft (ctx : Context) (d : DropTable) : Draft :=
  match d.table with
  | none => empty
  | some table =>
    words [.drop, .table] ++ space ++ when d.ifExists (words [.if_, .exists_] ++ space) ++
      table.draft ctx

/-- The text of the statement in its dialect. -/
def sql (d : DropTable) : Except BuildError String :=
  let ctx := Context.ofDialect d.dialect
  (d.draft ctx).text ctx

end DropTable

end SqlCompose
