import StreamQuery.Proofs.Grouping
import StreamQuery.Proofs.RoundTrip
import StreamQuery.Proofs.Typing
import StreamQuery.Session
import StreamQuery.Proofs.OptionalChecks
import StreamQuery.Proofs.TypedRows
import StreamQuery.Proofs.ResultTypes
import StreamQuery.Proofs.SurroundingBlanks
import StreamQuery.Proofs.LexemePlaces
import StreamQuery.Proofs.CacheTransparency
import StreamQuery.Proofs.CatalogLog
import StreamQuery.Proofs.ErrorPositions
import StreamQuery.Proofs.NestingBalance
import StreamQuery.Proofs.ResultShape
import StreamQuery.Proofs.Ordering
import StreamQuery.Proofs.UnionDistribution
import StreamQuery.Proofs.JoinedNames
import StreamQuery.Proofs.NamedTables
import StreamQuery.Proofs.CoreTokens
import StreamQuery.Proofs.OperatorTrees
import StreamQuery.Proofs.CallLiterals
import StreamQuery.Proofs.ProductOrder
import StreamQuery.Proofs.SteppedStates
import StreamQuery.Proofs.GroupRuns
import StreamQuery.Proofs.AggregateFolds
import StreamQuery.Proofs.Summaries
import StreamQuery.Proofs.RowOrder
import StreamQuery.Proofs.SummaryQueries
import StreamQuery.Proofs.ExactEvaluation
import StreamQuery.Proofs.RecentUse
import StreamQuery.Proofs.AliasedKeys
import StreamQuery.Proofs.PreorderVisits
import StreamQuery.Proofs.ColumnPruning
import StreamQuery.Proofs.WordSpellings
import StreamQuery.Proofs.StatementEnds
