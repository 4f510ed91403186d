import SnapshotSql.ColumnType
import SnapshotSql.CommandLine
import SnapshotSql.Database
import SnapshotSql.Definition
import SnapshotSql.Execution
import SnapshotSql.Expression
import SnapshotSql.Failure
import SnapshotSql.Gateway
import SnapshotSql.Grammar.Condition
import SnapshotSql.Grammar.Parser
import SnapshotSql.Grammar.Query
import SnapshotSql.Grammar.Statement
import SnapshotSql.Grammar.Table
import SnapshotSql.Integrity
import SnapshotSql.Interpreter
import SnapshotSql.Json
import SnapshotSql.Key
import SnapshotSql.Lexer
import SnapshotSql.Like
import SnapshotSql.Main
import SnapshotSql.Number.Binary64
import SnapshotSql.Number.Numeral
import SnapshotSql.Number.Shortest
import SnapshotSql.OrderedMap
import SnapshotSql.Proofs.AgreeingKeys
import SnapshotSql.Proofs.AnnouncedKinds
import SnapshotSql.Proofs.ArithmeticSigns
import SnapshotSql.Proofs.AssignedReferences
import SnapshotSql.Proofs.BareTexts
import SnapshotSql.Proofs.BuiltSchemas
import SnapshotSql.Proofs.CascadeDepths
import SnapshotSql.Proofs.CheckedSnapshots
import SnapshotSql.Proofs.ColumnQueries
import SnapshotSql.Proofs.ComponentWrites
import SnapshotSql.Proofs.CountedColumns
import SnapshotSql.Proofs.CreateBatches
import SnapshotSql.Proofs.DefinitionShapes
import SnapshotSql.Proofs.DeleteEffects
import SnapshotSql.Proofs.DeleteIntegrity
import SnapshotSql.Proofs.DeleteMeaning
import SnapshotSql.Proofs.DeleteTraces
import SnapshotSql.Proofs.DistinctGroups
import SnapshotSql.Proofs.DividedTexts
import SnapshotSql.Proofs.DropOrder
import SnapshotSql.Proofs.EscapingFailures
import SnapshotSql.Proofs.ExactKeys
import SnapshotSql.Proofs.ExtremeValues
import SnapshotSql.Proofs.FailedRuns
import SnapshotSql.Proofs.FilteredGroups
import SnapshotSql.Proofs.FittingValues
import SnapshotSql.Proofs.GroupedLists
import SnapshotSql.Proofs.GroupedRows
import SnapshotSql.Proofs.IndependentWrites
import SnapshotSql.Proofs.InterpreterBounds
import SnapshotSql.Proofs.IsolatedDatabases
import SnapshotSql.Proofs.KeyChecks
import SnapshotSql.Proofs.KeyInvariant
import SnapshotSql.Proofs.KeyText
import SnapshotSql.Proofs.ListedColumns
import SnapshotSql.Proofs.ListedDatabases
import SnapshotSql.Proofs.LongestLexemes
import SnapshotSql.Proofs.MapLookup
import SnapshotSql.Proofs.NamedTables
import SnapshotSql.Proofs.OrderedRows
import SnapshotSql.Proofs.OrderedScalars
import SnapshotSql.Proofs.OverflowingCasts
import SnapshotSql.Proofs.PaddedRows
import SnapshotSql.Proofs.PaddedSnapshots
import SnapshotSql.Proofs.ParallelRuns
import SnapshotSql.Proofs.ParallelWrites
import SnapshotSql.Proofs.ParserRules
import SnapshotSql.Proofs.PatternCuts
import SnapshotSql.Proofs.PrintedInserts
import SnapshotSql.Proofs.PrintedQueries
import SnapshotSql.Proofs.PrintedSchemas
import SnapshotSql.Proofs.QueryResponses
import SnapshotSql.Proofs.QueryText
import SnapshotSql.Proofs.ReadDefinitions
import SnapshotSql.Proofs.RebuiltSchemas
import SnapshotSql.Proofs.ReferenceInvariant
import SnapshotSql.Proofs.ReferenceRows
import SnapshotSql.Proofs.ReferenceTargets
import SnapshotSql.Proofs.ReferencesFollow
import SnapshotSql.Proofs.RefusedDeletes
import SnapshotSql.Proofs.RegeneratedTables
import SnapshotSql.Proofs.ReorderedReferences
import SnapshotSql.Proofs.RepeatedCasts
import SnapshotSql.Proofs.RisingCounters
import SnapshotSql.Proofs.RowMoves
import SnapshotSql.Proofs.RowReadings
import SnapshotSql.Proofs.SchemaOrder
import SnapshotSql.Proofs.SelectedColumns
import SnapshotSql.Proofs.SelectionReadings
import SnapshotSql.Proofs.ServiceRuns
import SnapshotSql.Proofs.ShortestDecimals
import SnapshotSql.Proofs.ShownColumns
import SnapshotSql.Proofs.SingleInserts
import SnapshotSql.Proofs.SingleRevisions
import SnapshotSql.Proofs.SortedLists
import SnapshotSql.Proofs.StagedChecks
import SnapshotSql.Proofs.StagedTables
import SnapshotSql.Proofs.StatementCuts
import SnapshotSql.Proofs.StoredValues
import SnapshotSql.Proofs.SuccessfulRuns
import SnapshotSql.Proofs.TableElements
import SnapshotSql.Proofs.TellingDecimals
import SnapshotSql.Proofs.TokenSlices
import SnapshotSql.Proofs.Transitions
import SnapshotSql.Proofs.TwoPaths
import SnapshotSql.Proofs.TypedRows
import SnapshotSql.Proofs.UncommentedText
import SnapshotSql.Proofs.UnreadableNumerals
import SnapshotSql.Proofs.UpdateEffects
import SnapshotSql.Proofs.UpdateFrames
import SnapshotSql.Proofs.UpdateRuns
import SnapshotSql.Proofs.UpdateTraces
import SnapshotSql.Proofs.ViewSnapshots
import SnapshotSql.Proofs.WorklistTurns
import SnapshotSql.Report
import SnapshotSql.Route
import SnapshotSql.Row
import SnapshotSql.Scalar
import SnapshotSql.Schema
import SnapshotSql.Selection
import SnapshotSql.Service
import SnapshotSql.Session
import SnapshotSql.Setting
import SnapshotSql.Sorting
import SnapshotSql.SourceText
import SnapshotSql.Statement
import SnapshotSql.Text.Blank
import SnapshotSql.Text.CodePoint
import SnapshotSql.Text.Digit
import SnapshotSql.Text.Encoding
import SnapshotSql.Text.Letter
import SnapshotSql.Text.LetterCase
import SnapshotSql.Text.Printable
import SnapshotSql.Text.Quoted
import SnapshotSql.Token
