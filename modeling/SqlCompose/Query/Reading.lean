import SqlCompose.Term.Sources

/-! # What a statement reads — FROM, WITH and joins

    * A nested statement without an alias gets the next name `sq0`, `sq1`, … of its builder; in FROM
      the numbering goes on after the names that the nested statement itself has given.
    * A table that is joined to itself without an alias is named after itself with a `2` behind.
    * A join criterion may only name what the statement reads already or what is being joined. -/

namespace SqlCompose

/-- How the rows of a joined item are matched with the others. -/
inductive JoinMatch
  /-- By a criterion and, if need be, the collation with which it compares. -/
  | on (criterion : Term) (collation : Option String)
  /-- By columns that equal those of the same name in the first item of FROM. -/
  | onFields (names : List String)
  /-- By columns of the same name, which the result has once. -/
  | using (names : List String)
  /-- All with all. -/
  | cross

namespace FromItem

/-- What kind of thing the item is when it is joined. -/
def joinedKind : FromItem → JoinedKind
  | table _ | cte _ => .table
  | query _ | setOperation _ => .subquery

/-- The first number that the names inside a nested statement leave free. -/
def freeNumber? : FromItem → Option Nat
  | query q => some q.subqueryCount
  | setOperation _ => some 0
  | table _ | cte _ => none

end FromItem

namespace Join

/-- The sources of the columns in the criterion. -/
def criterionSources (j : Join) : List (Option Source) :=
  match j.condition with
  | .on criterion _ => criterion.fieldSources
  | .using _ | .none => []

/-- The sources in the criterion that neither the readable items nor the joined one own. -/
def missingSources (readable : List FromItem) (j : Join) : List Source :=
  j.criterionSources.reduceOption.filter fun s => !(readable ++ [j.item]).any (·.owns s)

end Join

namespace Query

/-! ## Names -/

/-- The name of the nested statement with this number. -/
def subqueryName (n : Nat) : String := "sq" ++ toString n

/-- The place of the item's alias, if neither the item nor this statement has an alias for it. -/
def unnamedSlot? (item : FromItem) (q : Query) : Option Slot :=
  item.slot?.filter fun slot => (q.scope.resolve slot).isNone

/-- Names a source inside this statement. -/
def nameSource (slot : Slot) (aliasName : String) (q : Query) : Query :=
  { q with scope := q.scope.assign slot.identity aliasName }

/-- Names a source as the nested statement with this number and goes on counting there. -/
def numberSource (slot : Slot) (n : Nat) (q : Query) : Query :=
  { q.nameSource slot (subqueryName n) with subqueryCount := n + 1 }

/-! ## FROM and WITH -/

/-- Reads from an item. -/
def readFrom (item : FromItem) (q : Query) : Query :=
  let named :=
    match q.unnamedSlot? item, item.freeNumber? with
    | some slot, some free => q.numberSource slot (max q.subqueryCount free)
    | _, _ => q
  { named with sources := named.sources ++ [item] }

/-- Adds a WITH clause. Bare names for its columns belong to no source. -/
def withClause (body : FromItem) (name : String) (columns : List Column) (q : Query) : Query :=
  { q with ctes := q.ctes ++ [⟨name, body, columns.map (Column.boundTo none)⟩] }

/-- What bare names belong to: the first item of FROM. -/
def firstSource? (q : Query) : Option Source := q.sources.head?.map FromItem.source

/-! ## Joins -/

/-- What a criterion may name beside the joined items: FROM, the updated table and the WITH
    clauses. -/
def readable (q : Query) : List FromItem :=
  q.sources ++ (q.updateTable.map FromItem.table).toList ++ q.ctes.map fun c => .cte c.name

/-- The query with the joined item named, if it is a statement without a name. -/
def nameJoined (item : FromItem) (q : Query) : Query :=
  match q.unnamedSlot? item, item.isQuery with
  | some slot, true => q.numberSource slot q.subqueryCount
  | _, _ => q

/-- The query with the joined item named, if it is a table that the query reads already. -/
def nameSelfJoined (item : FromItem) (q : Query) : Query :=
  match q.unnamedSlot? item, item.table? with
  | some slot, some t =>
    if q.readable.any fun other => other.table?.any t.same then q.nameSource slot (t.name ++ "2")
    else q
  | _, _ => q

/-- Adds a complete join, the criterion of which has to keep to what can be read. -/
def addJoin (j : Join) (q : Query) : Except BuildError Query :=
  match j.missingSources (q.readable ++ q.joins.map Join.item) with
  | [] => .ok (let named := q.nameSelfJoined j.item
               { named with joins := named.joins ++ [j] })
  | missing => .error (.joinOutOfScope (missing.map fun s => s.name.getD "").eraseDups)

/-- Adds a join on a criterion, which may not be empty. -/
def joinOn (item : FromItem) (kind : JoinKind) (criterion : Term) (collation : Option String)
    (q : Query) : Except BuildError Query :=
  if criterion.isEmpty then .error (.joinWithoutCriterion item.joinedKind)
  else q.addJoin ⟨item, kind, .on criterion collation⟩

/-- The criterion that columns of two items with the same names are equal. -/
def sameFields (left right : FromItem) (names : List String) : Term :=
  Term.conjunction (names.map fun name => (left.column name).compare .eq (right.column name))

/-- Joins an item. -/
def join (item : FromItem) (kind : JoinKind) (rows : JoinMatch) (q : Query) :
    Except BuildError Query :=
  let named := q.nameJoined item
  match rows with
  | .on criterion collation => named.joinOn item kind criterion collation
  | .onFields names =>
    if names.isEmpty then .error (.joinWithoutFields item.joinedKind)
    else
      match named.sources.head? with
      | none => .error .joinWithoutFrom
      | some base => named.joinOn item kind (sameFields base item names) none
  | .using names =>
    if names.isEmpty then .error (.usingWithoutFields item.joinedKind)
    else named.addJoin ⟨item, kind, .using (names.map Term.field)⟩
  | .cross => named.addJoin ⟨item, .cross, .none⟩

/-- Whether the table itself is joined. -/
def isJoined (t : Table) (q : Query) : Bool :=
  q.joins.any fun j => j.item.table?.any t.same

end Query

end SqlCompose
