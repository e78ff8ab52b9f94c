import EntityQuery.Main
import EntityQuery.Proofs.Filter.RoundTrip
import EntityQuery.Proofs.Filter.Quoting
import EntityQuery.Proofs.Filter.Depth
import EntityQuery.Proofs.Expression.Reading
import EntityQuery.Proofs.Execution.Refinement
import EntityQuery.Proofs.Execution.OrderedAnswers
import EntityQuery.Proofs.Execution.Browsing
import EntityQuery.Proofs.Schema.Registration
import EntityQuery.Proofs.Execution.Dialogue
import EntityQuery.Proofs.Expression.WellFormed
import EntityQuery.Proofs.Schema.Closure
import EntityQuery.Proofs.Execution.Retry
import EntityQuery.Proofs.Options.Policies
import EntityQuery.Proofs.Schema.SetNames
import EntityQuery.Proofs.Schema.RegistrationOrder
import EntityQuery.Proofs.Options.ExpandTree
import EntityQuery.Proofs.Options.Selections
import EntityQuery.Proofs.Execution.Views
import EntityQuery.Proofs.Execution.Leftovers
import EntityQuery.Proofs.Number.Nearest
import EntityQuery.Proofs.Number.PaddedDigits
import EntityQuery.Proofs.Time.DurationText
import EntityQuery.Proofs.Filter.Taking
import EntityQuery.Proofs.Expression.QuotedLiterals
import EntityQuery.Proofs.Expression.PastedValues
import EntityQuery.Proofs.Execution.SortedRecords
import EntityQuery.Proofs.Filter.Sentences
import EntityQuery.Proofs.Schema.Flattening
import EntityQuery.Proofs.Execution.FlagNames
import EntityQuery.Proofs.Value.ExactOrder
import EntityQuery.Proofs.Expression.Signatures
import EntityQuery.Proofs.Expression.DecimalLiterals
import EntityQuery.Proofs.Time.Periods
import EntityQuery.Proofs.Expression.IntegerArithmetic
import EntityQuery.Proofs.Expression.Quantifiers
import EntityQuery.Proofs.Execution.FilterFusion
import EntityQuery.Proofs.Execution.NamedFields
import EntityQuery.Proofs.Expression.TextFunctions
import EntityQuery.Proofs.Options.ExpandedItems
import EntityQuery.Proofs.Execution.Progress
import EntityQuery.Proofs.Schema.PathFaults
import EntityQuery.Proofs.Filter.Layout
import EntityQuery.Proofs.Options.CustomParts
import EntityQuery.Proofs.Filter.CleanReading
