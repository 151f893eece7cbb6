/-! # Names in scope — the aliases that builders give to their sources

    A source has an alias of its own or none. Its `Slot` holds that alias together with an identity:
    sources with one identity are copies of one another, and an alias that a builder assigns to one
    of them is the alias of all, inside that builder. Which identity a new source gets is up to the
    caller; different sources should get different ones.

    A `Scope` lists the assigned aliases, the latest first, so that an inner builder shadows an
    outer one. -/

namespace SqlCompose

/-- What tells sources apart that look the same. -/
abbrev Identity := Nat

/-- The place of a source's alias. -/
structure Slot where
  identity  : Identity
  aliasName : Option String := none
deriving DecidableEq, Inhabited

/-- Whether both places belong to copies of one source. -/
def Slot.same (a b : Slot) : Bool := a.identity == b.identity

/-- Aliases assigned to identities, the latest first. -/
abbrev Scope := List (Identity × String)

namespace Scope

/-- Assigns an alias. -/
def assign (scope : Scope) (identity : Identity) (aliasName : String) : Scope :=
  (identity, aliasName) :: scope

/-- The alias of a source: its own, or else the one assigned last. -/
def resolve (scope : Scope) (slot : Slot) : Option String :=
  match slot.aliasName with
  | some aliasName => some aliasName
  | none => scope.lookup slot.identity

/-- A source's own alias wins over every assigned one. -/
theorem resolve_own (scope : Scope) (identity : Identity) (aliasName : String) :
    scope.resolve ⟨identity, some aliasName⟩ = some aliasName := rfl

/-- The alias assigned last is the one that counts. -/
theorem resolve_assign (scope : Scope) (identity : Identity) (aliasName : String) :
    (scope.assign identity aliasName).resolve ⟨identity, none⟩ = some aliasName := by
  show List.lookup identity ((identity, aliasName) :: scope) = some aliasName
  rw [List.lookup_cons_self]

/-- The scope inside a builder: its own assignments come before those around it. -/
def enter (outer inner : Scope) : Scope := inner ++ outer

end Scope

end SqlCompose
