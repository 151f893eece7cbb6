import SqlCompose.Query.Reading

/-! # Set operations — statements combined by UNION and the like

    A set operation is a chain of statements, written from left to right, with an order and a page
    of its own. Whether its statements select equally many terms is checked when it is written. -/

namespace SqlCompose

/-- A statement combined with another one. -/
def Query.combine (identity : Identity) (op : SetOperator) (q other : Query) : SetOperation where
  base := q
  operands := [⟨op, other⟩]
  slot := ⟨identity, none⟩

namespace SetOperation

/-- Combines one more statement with the rows so far. -/
def combine (op : SetOperator) (other : Query) (s : SetOperation) : SetOperation :=
  { s with operands := s.operands ++ [⟨op, other⟩] }

/-- Sorts all rows. Bare names belong to the first item that the first statement reads. -/
def orderBy (columns : List Column) (direction : Option Direction) (s : SetOperation) :
    SetOperation :=
  let source := s.base.firstSource?
  let added := columns.map fun c => Ordering.mk (c.boundTo source) direction
  { s with orderings := s.orderings ++ added }

/-- Takes so many of all rows. -/
def take (n : Int64) (s : SetOperation) : SetOperation := { s with limit := some n }

/-- Leaves out so many of all rows first. -/
def skip (n : Int64) (s : SetOperation) : SetOperation := { s with offset := some n }

/-- The set operation under an alias or without one, no longer a copy of what it was. -/
def withAlias (identity : Identity) (aliasName : Option String) (s : SetOperation) : SetOperation :=
  { s with slot := ⟨identity, aliasName⟩ }

end SetOperation

end SqlCompose
