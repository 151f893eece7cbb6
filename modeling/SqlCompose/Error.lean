import SqlCompose.Token

/-! # Errors — why a statement cannot be built or written

    A `BuildError` is a cause, `BuildError.message` its wording, and `BuildError.area` the part of
    the language it concerns. -/

namespace SqlCompose

/-- A part of the language that only some dialects have. -/
inductive Feature
  | distinctOn | top | selectModifiers | noKeyUpdate | returning | onDuplicateKey | insertIgnore
deriving DecidableEq

/-- The words for a feature. -/
def Feature.text : Feature → String
  | distinctOn => "DISTINCT ON"
  | top => "TOP"
  | selectModifiers => "SELECT modifiers"
  | noKeyUpdate => "FOR NO KEY UPDATE"
  | returning => "RETURNING"
  | onDuplicateKey => "ON DUPLICATE KEY UPDATE"
  | insertIgnore => "INSERT IGNORE"

/-- What kind of thing is joined: something with a name, or a statement. -/
inductive JoinedKind
  | table
  | subquery
deriving DecidableEq

/-- The word for what is joined. -/
def JoinedKind.text : JoinedKind → String
  | table => "table"
  | subquery => "subquery"

/-- Why a statement cannot be built or written. -/
inductive BuildError
  /-- The statement is of a kind that has no such part. -/
  | lacksPart (part : String)
  /-- The part can be set only once, or excludes one that is set. -/
  | alreadySet (part : String)
  /-- There is no literal for a number that is not finite. -/
  | notFinite (x : Binary64)
  /-- A bare name was selected, but there is no FROM item to bind it to. -/
  | selectWithoutFrom (name : String)
  | topNotInteger
  | returningWithoutTarget
  | returningAggregate
  | returningOtherTable
  | conflictWithoutInsert
  | conflictHandledTwice
  | doNothingFiltered
  | conflictFilterWithoutFields
  | conflictUnhandled
  | conflictUpdateWithoutFields
  /-- A bare name was grouped by, but there is no FROM item to bind it to. -/
  | groupWithoutFrom (name : String)
  | caseWithoutBranch
  | joinWithoutCriterion (kind : JoinedKind)
  | joinWithoutFields (kind : JoinedKind)
  | usingWithoutFields (kind : JoinedKind)
  | joinWithoutFrom
  /-- A join criterion names sources that the statement does not have. -/
  | joinOutOfScope (missing : List String)
  /-- Two operands of a set operation select different numbers of terms. -/
  | unequalOperands (main other : String)
  | rollupWithoutGroup
  | unsupported (feature : Feature) (dialect : Dialect)
  | frameAlreadySet (function : String)
  | wrongArguments (function : String) (expected given : List String)
  | emptyPlaceholder
  | indexBelowOne
deriving DecidableEq

/-- The part of the language an error concerns. -/
inductive ErrorArea
  | statement | grouping | caseExpression | join | setOperation | rollup | dialect | function
  | parameter
deriving DecidableEq

namespace BuildError

/-- The part of the language an error concerns. -/
def area : BuildError → ErrorArea
  | groupWithoutFrom _ => .grouping
  | caseWithoutBranch => .caseExpression
  | joinWithoutCriterion _ | joinWithoutFields _ | usingWithoutFields _ | joinWithoutFrom
  | joinOutOfScope _ => .join
  | unequalOperands _ _ => .setOperation
  | rollupWithoutGroup => .rollup
  | unsupported _ _ => .dialect
  | frameAlreadySet _ | wrongArguments _ _ _ => .function
  | emptyPlaceholder | indexBelowOne => .parameter
  | _ => .statement

/-- The wording of an error. -/
def message : BuildError → String
  | lacksPart part => "'Query' object has no attribute '" ++ part ++ "'"
  | alreadySet part => "'Query' object already has attribute " ++ part
  | notFinite x => "Cannot render non-finite float " ++ literalLayout.write x
  | selectWithoutFrom name => "Cannot select " ++ name ++ ", no FROM table specified."
  | topNotInteger => "TOP value must be an integer"
  | returningWithoutTarget => "Returning can't be used in this query"
  | returningAggregate => "Aggregate functions are not allowed in returning"
  | returningOtherTable => "You can't return from other tables"
  | conflictWithoutInsert => "On conflict only applies to insert query"
  | conflictHandledTwice => "Can not have two conflict handlers"
  | doNothingFiltered => "DO NOTHING doest not support WHERE"
  | conflictFilterWithoutFields => "Can not have fieldless ON CONFLICT WHERE"
  | conflictUnhandled => "No handler defined for on conflict"
  | conflictUpdateWithoutFields => "Can not have fieldless on conflict do update"
  | groupWithoutFrom name => "Cannot group by " ++ name ++ ", no FROM table specified."
  | caseWithoutBranch => "At least one 'when' case is required for a CASE statement."
  | joinWithoutCriterion kind =>
    "Parameter 'criterion' is required for a " ++ kind.text ++ " JOIN but was not supplied."
  | joinWithoutFields kind =>
    "Parameter 'fields' is required for a " ++ kind.text ++ " JOIN but was not supplied."
  | usingWithoutFields kind =>
    "Parameter 'fields' is required when joining with " ++ kind.text ++
      " a using clause but was not supplied."
  | joinWithoutFrom => "Cannot join on fields without a FROM table."
  | joinOutOfScope missing =>
    "Invalid join criterion. One field is required from the joined item and another from the " ++
      "selected table or an existing join.  Found [" ++ ", ".intercalate missing ++ "]"
  | unequalOperands main other =>
    "Queries must have an equal number of select statements in a set operation." ++
      "\n\nMain Query:\n" ++ main ++ "\n\nSet Operations Query:\n" ++ other
  | rollupWithoutGroup =>
    "At least one group is required. Call Query.groupby(term) or pass as parameter to rollup."
  | unsupported feature dialect =>
    feature.text ++ " is not supported by the " ++ dialect.name ++ " dialect"
  | frameAlreadySet function => "Window frame already set for function " ++ function
  | wrongArguments function expected given =>
    "Function " ++ function ++ " require these arguments (" ++ ", ".intercalate expected ++
      "), (" ++ ", ".intercalate given ++ ") passed"
  | emptyPlaceholder => "Must provide either a placeholder or an idx"
  | indexBelowOne => "idx must start at 1"

end BuildError

end SqlCompose
