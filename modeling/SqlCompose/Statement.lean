import SqlCompose.Query.Changing
import SqlCompose.Render

/-! # Statements — where a statement starts and how it is written down

    A statement is written in the default context of its own dialect, or in any other context. With
    bind values, its constants become placeholders and are handed out beside the text, in the order
    of their placeholders. -/

namespace SqlCompose

/-! ## Starting from a table -/

namespace Table

/-- Several tables, with an alias where one is given. -/
def several (identity : Nat → Identity) (specs : List (String × Option String)) : List Table :=
  specs.zipIdx.map fun ((name, aliasName), i) => ⟨name, none, ⟨identity i, aliasName⟩, none⟩

/-- Selects from the table. -/
def select (identity : Identity) (columns : List Column) (t : Table) : Except BuildError Query :=
  ((Query.start identity .generic).readFrom (.table t)).select columns

/-- Updates the table. -/
def update (identity : Identity) (t : Table) : Query :=
  { Query.start identity .generic with updateTable := some t }

/-- Inserts a row into the table. -/
def insert (identity : Identity) (row : List Term) (t : Table) : Except BuildError Query :=
  { Query.start identity .generic with insertTable := some t }.insertRows [row]

end Table

/-! ## Writing -/

namespace Query

/-- The statement under an alias or without one, no longer a copy of what it was. -/
def withAlias (identity : Identity) (aliasName : Option String) (q : Query) : Query :=
  { q with slot := ⟨identity, aliasName⟩ }

/-- The text of the statement in its dialect. -/
def sql (q : Query) : Except BuildError String :=
  let ctx := Context.ofDialect q.dialect
  (q.draft ctx).text ctx

/-- The text of the statement with placeholders and all values bound so far, those that the
    parameters held before included. Without a context, that of its dialect is used. -/
def parameterized (ctx : Option Context) (p : Parameters) (q : Query) :
    Except BuildError (String × List Value) × Parameters :=
  let ctx := { ctx.getD (.ofDialect q.dialect) with binding := true }
  let (text, p) := (q.draft ctx).render ctx p
  (text.map fun text => (text, p.values), p)

end Query

namespace SetOperation

/-- The text of the set operation in the dialect of its first statement. -/
def sql (s : SetOperation) : Except BuildError String :=
  let ctx := Context.ofDialect s.base.dialect
  (s.draft ctx).text ctx

end SetOperation

end SqlCompose
