import SqlCompose.Decimal.Reading
import SqlCompose.Query.Reading
import SqlCompose.Text.Blank

/-! # The select list — what a statement selects

    * Bare names belong to the first item of FROM.
    * Nothing is selected twice by way of a star: a star takes the place of the columns it covers,
      and columns that a star covers are not added. -/

namespace SqlCompose

namespace Query

/-! ## Terms -/

/-- Adds a column or a star to the select list, unless a star covers it. -/
def selectColumn (t : Term) (q : Query) : Query :=
  let covers (source : Option Source) := Source.sameOption source t.source?
  if q.selectsAll || q.starred.any covers then q
  else if t.isStar then
    { q with
      selects := q.selects.filter (fun s => !(s.isColumn && covers s.source?)) ++ [t]
      starred := q.starred ++ [t.source?] }
  else { q with selects := q.selects ++ [t] }

/-- Adds what a bare name stands for to the select list; `*` is all there is. -/
def selectName (name : String) (q : Query) : Except BuildError Query :=
  match q.firstSource? with
  | none => .error (.selectWithoutFrom name)
  | some source =>
    if name = "*" then .ok { q with selectsAll := true, selects := [.star] }
    else .ok (q.selectColumn (.column name source))

/-- Adds one argument to the select list. -/
def selectOne (q : Query) : Column → Except BuildError Query
  | .name bare => q.selectName bare
  | .term t =>
    .ok (if t.isColumn then q.selectColumn t else { q with selects := q.selects ++ [t] })

/-- Adds arguments to the select list. -/
def select (columns : List Column) (q : Query) : Except BuildError Query :=
  columns.foldlM selectOne q

/-! ## In front of the list -/

/-- Selects different rows only. -/
def selectDistinct (q : Query) : Query := { q with distinct := true }

/-- Selects one row for each value of some terms. -/
def selectDistinctOn (columns : List Column) (q : Query) : Except BuildError Query :=
  if q.dialect.hasDistinctOn then
    .ok { q with distinctOn := q.distinctOn ++ columns.map (Column.boundTo none) }
  else .error (.unsupported .distinctOn q.dialect)

/-- The signed word that a text writes, blanks around it aside. -/
def count? (text : String) : Option Int64 :=
  match Decimal.integer? (Text.trim text.toList) with
  | some n =>
    if Int64.minValue.toInt ≤ n && n ≤ Int64.maxValue.toInt then some (.ofInt n) else none
  | none => none

/-- Selects the first rows only; how many is given as a text and can be said once. -/
def selectTop (text : String) (q : Query) : Except BuildError Query :=
  if !q.dialect.hasTop then .error (.unsupported .top q.dialect)
  else if q.top.isSome then .error (.alreadySet "top")
  else
    match count? text with
    | some n => .ok { q with top := some n }
    | none => .error .topNotInteger

/-- Adds a word between `SELECT` and the list. -/
def modifySelect (word : String) (q : Query) : Except BuildError Query :=
  if q.dialect.hasModifiers then .ok { q with modifiers := q.modifiers ++ [word] }
  else .error (.unsupported .selectModifiers q.dialect)

end Query

end SqlCompose
