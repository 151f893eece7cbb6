import SqlCompose.Term.Build

/-! # Function calls — plain calls, aggregates and window functions

    A `Function` is a call that can still be built on; `Function.toTerm` ends the building.

    * A filter, a window and a frame belong to aggregates and window functions, but every call takes
      them: whether they make sense is up to the database.
    * The window frame is the only part that can be set just once. -/

namespace SqlCompose

/-- A function call under construction, and the alias of the term that it becomes. -/
structure Function where
  call      : Call
  aliasName : Option String := none

namespace Function

/-! ## Kinds of calls -/

/-- The call of a plain function. -/
def plain (name : String) (arguments : List Term) : Function :=
  ⟨{ name := name, arguments := arguments }, none⟩

/-- The call of an aggregate. -/
def aggregate (name : String) (arguments : List Term) : Function :=
  ⟨{ name := name, arguments := arguments, aggregate := true }, none⟩

/-- A name that stands by itself, without parentheses. -/
def bare (name : String) : Function := ⟨{ name := name, bare := true }, none⟩

/-- The call as a term. -/
def toTerm (f : Function) : Term := ⟨.call f.call, f.aliasName⟩

/-! ## Parts of every call -/

/-- The call under an alias. -/
def as (aliasName : String) (f : Function) : Function := { f with aliasName := some aliasName }

/-- The call of the function in a schema. -/
def inSchema (s : Schema) (f : Function) : Function :=
  { f with call := { f.call with schema := some s } }

/-- The call with something behind its arguments, in place of what was there. -/
def suffixed (suffix : CallSuffix) (f : Function) : Function :=
  { f with call := { f.call with suffix := some suffix } }

/-- The call that leaves out nulls. -/
def ignoreNulls (f : Function) : Function := f.suffixed .ignoreNulls

/-! ## Parts of aggregates and window functions -/

/-- The call on different values only. -/
def distinct (f : Function) : Function := { f with call := { f.call with distinct := true } }

/-- The call on the rows that all of the criteria, the earlier ones included, let through. -/
def filter (criteria : List Term) (f : Function) : Function :=
  let earlier := f.call.filter.getD Term.empty
  { f with call := { f.call with filter := some (criteria.foldl Term.and earlier) } }

/-- The call over a window, with more terms to partition by. -/
def overPartition (partition : List Term) (f : Function) : Function :=
  let window := f.call.window.getD {}
  let window := { window with partition := window.partition ++ partition }
  { f with call := { f.call with window := some window } }

/-- The call over a window, with more terms to sort by. -/
def orderBy (terms : List Term) (direction : Option Direction) (f : Function) : Function :=
  let window := f.call.window.getD {}
  let added := terms.map fun t => Ordering.mk t direction
  let window := { window with orderings := window.orderings ++ added }
  { f with call := { f.call with window := some window } }

/-- The call with a window frame; there can be only one. -/
def framed (frame : Frame) (f : Function) : Except BuildError Function :=
  match f.call.frame with
  | some _ => .error (.frameAlreadySet f.call.name)
  | none => .ok { f with call := { f.call with frame := some frame } }

end Function

end SqlCompose
