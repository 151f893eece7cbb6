import SqlCompose.Dialect.Basic
import SqlCompose.Scope

/-! # Render context — how a statement is to be written

    A `Context` says in which dialect and with which quotes a tree is written, and what its
    surroundings ask of it. It is handed down the tree; a part that changes it changes it for what
    is below. -/

namespace SqlCompose

/-- How a part of a statement is to be written. -/
structure Context where
  dialect : Dialect
  /-- Around identifiers. -/
  identQuote : String
  /-- Around string literals. -/
  textQuote : String
  /-- Around aliases; empty when `identQuote` is meant. -/
  aliasQuote : String
  /-- Whether `AS` stands before an alias. -/
  asKeyword : Bool
  /-- Whether the part is nested inside another statement. -/
  nested : Bool
  /-- Whether the part is to declare its alias. -/
  declares : Bool
  /-- Whether columns are qualified by their source. -/
  qualified : Bool
  /-- Whether the part is an operand that a combinator has to bracket. -/
  bracketed : Bool
  /-- Whether constants are bound instead of written. -/
  binding : Bool
  /-- Whether GROUP BY may name an alias. -/
  groupByAlias : Bool
  /-- Whether ORDER BY may name an alias. -/
  orderByAlias : Bool
  /-- The aliases assigned by the builders around the part. -/
  scope : Scope

namespace Context

/-- The context a dialect starts with. -/
def ofDialect (d : Dialect) : Context where
  dialect := d
  identQuote := d.identQuote
  textQuote := "'"
  aliasQuote := d.aliasQuote
  asKeyword := false
  nested := false
  declares := false
  qualified := false
  bracketed := false
  binding := false
  groupByAlias := d.groupsByAlias
  orderByAlias := true
  scope := []

instance : Inhabited Context := ⟨ofDialect .generic⟩

/-- Changes to a context; what is absent stays as it is. -/
structure Overrides where
  identQuote   : Option String := none
  textQuote    : Option String := none
  aliasQuote   : Option String := none
  dialect      : Option Dialect := none
  asKeyword    : Option Bool := none
  nested       : Option Bool := none
  declares     : Option Bool := none
  qualified    : Option Bool := none
  bracketed    : Option Bool := none
  binding      : Option Bool := none
  groupByAlias : Option Bool := none
  orderByAlias : Option Bool := none

/-- The context with the changes made. -/
def override (ctx : Context) (o : Overrides) : Context where
  dialect := o.dialect.getD ctx.dialect
  identQuote := o.identQuote.getD ctx.identQuote
  textQuote := o.textQuote.getD ctx.textQuote
  aliasQuote := o.aliasQuote.getD ctx.aliasQuote
  asKeyword := o.asKeyword.getD ctx.asKeyword
  nested := o.nested.getD ctx.nested
  declares := o.declares.getD ctx.declares
  qualified := o.qualified.getD ctx.qualified
  bracketed := o.bracketed.getD ctx.bracketed
  binding := o.binding.getD ctx.binding
  groupByAlias := o.groupByAlias.getD ctx.groupByAlias
  orderByAlias := o.orderByAlias.getD ctx.orderByAlias
  scope := ctx.scope

/-- The quote that is put around aliases. -/
def effectiveAliasQuote (ctx : Context) : String :=
  if ctx.aliasQuote.isEmpty then ctx.identQuote else ctx.aliasQuote

/-- The alias of a source, whoever gave it. -/
def aliasOf (ctx : Context) (slot : Slot) : Option String := ctx.scope.resolve slot

end Context

end SqlCompose
