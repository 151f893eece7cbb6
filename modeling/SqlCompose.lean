import SqlCompose.Calendar
import SqlCompose.Clause
import SqlCompose.Combined
import SqlCompose.Context
import SqlCompose.Decimal.Binary64
import SqlCompose.Decimal.Layout
import SqlCompose.Decimal.Reading
import SqlCompose.Decimal.Shortest
import SqlCompose.Definition.CreateTable
import SqlCompose.Definition.DropTable
import SqlCompose.Definition.LoadData
import SqlCompose.Dialect.Basic
import SqlCompose.Dialect.Clause
import SqlCompose.Dialect.Interchange
import SqlCompose.Draft
import SqlCompose.Error
import SqlCompose.Function.Basic
import SqlCompose.Function.Known
import SqlCompose.Function.Signature
import SqlCompose.Json.Document
import SqlCompose.Json.Printer
import SqlCompose.Json.Reader
import SqlCompose.Keyword
import SqlCompose.Proofs.AggregateCalls
import SqlCompose.Proofs.AggregateFilters
import SqlCompose.Proofs.Arithmetic
import SqlCompose.Proofs.Bindings
import SqlCompose.Proofs.Brackets
import SqlCompose.Proofs.Building
import SqlCompose.Proofs.Capturing
import SqlCompose.Proofs.ClauseLeaves
import SqlCompose.Proofs.ClauseOrder
import SqlCompose.Proofs.Closure
import SqlCompose.Proofs.CommentSigns
import SqlCompose.Proofs.CompoundOperands
import SqlCompose.Proofs.ConflictFilters
import SqlCompose.Proofs.Congruence
import SqlCompose.Proofs.Criterion
import SqlCompose.Proofs.CriterionReading
import SqlCompose.Proofs.DeclaredAliases
import SqlCompose.Proofs.DefinitionLockstep
import SqlCompose.Proofs.DerivedNames
import SqlCompose.Proofs.DistinctTexts
import SqlCompose.Proofs.DocumentLiteral
import SqlCompose.Proofs.DocumentReading
import SqlCompose.Proofs.DocumentTerms
import SqlCompose.Proofs.Everywhere
import SqlCompose.Proofs.Exchange
import SqlCompose.Proofs.FailedRenders
import SqlCompose.Proofs.Filling
import SqlCompose.Proofs.FoldedFilters
import SqlCompose.Proofs.FormulaGrammar
import SqlCompose.Proofs.GroupedAliases
import SqlCompose.Proofs.InlineConstants
import SqlCompose.Proofs.InsertedRows
import SqlCompose.Proofs.InspectedTrees
import SqlCompose.Proofs.Inspection
import SqlCompose.Proofs.IntervalTrimming
import SqlCompose.Proofs.IntroducedCriteria
import SqlCompose.Proofs.Introductions
import SqlCompose.Proofs.JoinScope
import SqlCompose.Proofs.Leaves
import SqlCompose.Proofs.Lockstep
import SqlCompose.Proofs.NestedStatements
import SqlCompose.Proofs.Numbering
import SqlCompose.Proofs.Numerals
import SqlCompose.Proofs.OperandAliases
import SqlCompose.Proofs.OperandPages
import SqlCompose.Proofs.OperandReading
import SqlCompose.Proofs.OuterDialect
import SqlCompose.Proofs.OuterWords
import SqlCompose.Proofs.OutlineReading
import SqlCompose.Proofs.Outlines
import SqlCompose.Proofs.Pages
import SqlCompose.Proofs.PathTexts
import SqlCompose.Proofs.Placeholders
import SqlCompose.Proofs.QualifiedColumns
import SqlCompose.Proofs.Quotes
import SqlCompose.Proofs.ReboundSources
import SqlCompose.Proofs.RedundantColumns
import SqlCompose.Proofs.References
import SqlCompose.Proofs.Refusals
import SqlCompose.Proofs.RepeatedSources
import SqlCompose.Proofs.ReplacedTables
import SqlCompose.Proofs.ReturnedTerms
import SqlCompose.Proofs.ReturningTargets
import SqlCompose.Proofs.RowSets
import SqlCompose.Proofs.SelectLists
import SqlCompose.Proofs.SelfReferences
import SqlCompose.Proofs.SetLayouts
import SqlCompose.Proofs.SetReading
import SqlCompose.Proofs.ShownAliases
import SqlCompose.Proofs.SignReading
import SqlCompose.Proofs.SilencedNumbers
import SqlCompose.Proofs.Simulation
import SqlCompose.Proofs.SourceNames
import SqlCompose.Proofs.StringLiteral
import SqlCompose.Proofs.SubqueryNames
import SqlCompose.Proofs.Surroundings
import SqlCompose.Proofs.TableDefinitions
import SqlCompose.Proofs.TimeLiterals
import SqlCompose.Proofs.TrimPattern
import SqlCompose.Proofs.Unbound
import SqlCompose.Proofs.UnusedAliases
import SqlCompose.Proofs.Upserts
import SqlCompose.Proofs.Verbs
import SqlCompose.Proofs.WholeNumbers
import SqlCompose.Proofs.WrittenAliases
import SqlCompose.Proofs.WrittenLists
import SqlCompose.Query.Arranging
import SqlCompose.Query.Changing
import SqlCompose.Query.Filtering
import SqlCompose.Query.Reading
import SqlCompose.Query.Rebinding
import SqlCompose.Query.Returning
import SqlCompose.Query.Selecting
import SqlCompose.Render
import SqlCompose.Scope
import SqlCompose.Settings
import SqlCompose.Statement
import SqlCompose.Term.Build
import SqlCompose.Term.Interval
import SqlCompose.Term.Operator
import SqlCompose.Term.Sources
import SqlCompose.Text.Blank
import SqlCompose.Text.Case
import SqlCompose.Text.CaseTable
import SqlCompose.Text.Quoted
import SqlCompose.Token
import SqlCompose.Toml.Document
import SqlCompose.Toml.Reader
import SqlCompose.Tree
import SqlCompose.Tree.Basic
import SqlCompose.Uuid
import SqlCompose.Value
