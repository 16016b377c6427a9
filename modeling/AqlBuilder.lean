import AqlBuilder.Alias.Registry
import AqlBuilder.Alias.Rules
import AqlBuilder.Aql.Collect
import AqlBuilder.Aql.Condition
import AqlBuilder.Aql.Outcome
import AqlBuilder.Aql.Identifier
import AqlBuilder.Aql.Loop
import AqlBuilder.Aql.Projection
import AqlBuilder.Aql.Statement
import AqlBuilder.Binding.Placeholder
import AqlBuilder.Binding.Store
import AqlBuilder.Builder.Basic
import AqlBuilder.Builder.Condition
import AqlBuilder.Builder.Projection
import AqlBuilder.Builder.Source
import AqlBuilder.Column.Resolve
import AqlBuilder.Connection.Basic
import AqlBuilder.Connection.Character
import AqlBuilder.Connection.Config
import AqlBuilder.Connection.Operation
import AqlBuilder.Connection.Server
import AqlBuilder.Connection.Terminal
import AqlBuilder.Connection.Transaction
import AqlBuilder.Duration
import AqlBuilder.Entries
import AqlBuilder.Error
import AqlBuilder.Json
import AqlBuilder.Json.Numeral
import AqlBuilder.Json.Printer
import AqlBuilder.Json.Reader
import AqlBuilder.Json.Record
import AqlBuilder.Number.Binary
import AqlBuilder.Number.Shortest
import AqlBuilder.Operator
import AqlBuilder.Query.Basic
import AqlBuilder.Query.Clause
import AqlBuilder.Query.Copy
import AqlBuilder.Query.Count
import AqlBuilder.Query.Induction
import AqlBuilder.Schema.Attribute
import AqlBuilder.Schema.Index
import AqlBuilder.Script.Basic
import AqlBuilder.Script.Call
import AqlBuilder.Statement.Row
import AqlBuilder.Statement.Compiled
import AqlBuilder.Statement.Write
import AqlBuilder.Text.Unicode
import AqlBuilder.Text.Split
import AqlBuilder.Text.CamelCase
import AqlBuilder.Text.Case
import AqlBuilder.Text.Pattern
import AqlBuilder.Text.Singular
import AqlBuilder.Transaction.Collections
import AqlBuilder.Transaction.Levels
import AqlBuilder.Value
import AqlBuilder.Value.Keys
import AqlBuilder.Value.Printer
import AqlBuilder.Proofs.Query.Copy
import AqlBuilder.Proofs.Aql.Steady
import AqlBuilder.Proofs.Query.Fragment
import AqlBuilder.Proofs.Builder.Alike
import AqlBuilder.Proofs.Statement.Alike
import AqlBuilder.Proofs.Binding.Store
import AqlBuilder.Proofs.Builder.Twin
import AqlBuilder.Proofs.Builder.TwinMethods
import AqlBuilder.Proofs.Script.Twin
import AqlBuilder.Proofs.Script.Safety
import AqlBuilder.Proofs.Binding.Ledger
import AqlBuilder.Proofs.Query.Stores
import AqlBuilder.Proofs.Builder.Stores
import AqlBuilder.Proofs.Builder.StoresMethods
import AqlBuilder.Proofs.Statement.Stores
import AqlBuilder.Proofs.Script.Stores
import AqlBuilder.Proofs.Script.World
import AqlBuilder.Proofs.Binding.References
import AqlBuilder.Proofs.Text.Compact
import AqlBuilder.Proofs.Text.Marks
import AqlBuilder.Proofs.Column.Marks
import AqlBuilder.Proofs.Query.Within
import AqlBuilder.Proofs.Aql.Within
import AqlBuilder.Proofs.Aql.Marks
import AqlBuilder.Proofs.Query.References
import AqlBuilder.Proofs.Builder.Backed
import AqlBuilder.Proofs.Builder.BackedMethods
import AqlBuilder.Proofs.Statement.Backed
import AqlBuilder.Proofs.Script.Backed
import AqlBuilder.Proofs.Connection.Queue
import AqlBuilder.Proofs.Aql.Reading
import AqlBuilder.Proofs.Connection.Keyed
import AqlBuilder.Proofs.Transaction.Inferred
import AqlBuilder.Proofs.Query.Visits
import AqlBuilder.Proofs.Statement.Assigned
import AqlBuilder.Proofs.Statement.Declared
import AqlBuilder.Proofs.Column.Words
import AqlBuilder.Proofs.Aql.Quiet
import AqlBuilder.Proofs.Aql.QuietRows
import AqlBuilder.Proofs.Transaction.Target
import AqlBuilder.Proofs.Statement.Target
import AqlBuilder.Proofs.Builder.Failure
import AqlBuilder.Proofs.Connection.Failed
import AqlBuilder.Proofs.Connection.Retry
import AqlBuilder.Proofs.Value.Renaming
import AqlBuilder.Proofs.Value.Stored
import AqlBuilder.Proofs.Text.Joined
import AqlBuilder.Proofs.Column.Stored
import AqlBuilder.Proofs.Statement.Stored
import AqlBuilder.Proofs.Alias.Registry
import AqlBuilder.Proofs.Builder.Scoped
import AqlBuilder.Proofs.Column.Imported
import AqlBuilder.Proofs.Aql.Alike
import AqlBuilder.Proofs.Binding.Merged
import AqlBuilder.Proofs.Builder.United
import AqlBuilder.Proofs.Script.Staged
import AqlBuilder.Proofs.Statement.Union
import AqlBuilder.Proofs.Script.AfterError
import AqlBuilder.Proofs.Statement.AggregateUnion
import AqlBuilder.Proofs.Column.Origin
import AqlBuilder.Proofs.Aql.Behind
import AqlBuilder.Proofs.Text.Stands
import AqlBuilder.Proofs.Statement.Grouped
import AqlBuilder.Proofs.Aql.Stands
import AqlBuilder.Proofs.Query.Mentions
import AqlBuilder.Proofs.Query.Closed
import AqlBuilder.Proofs.Builder.Closed
import AqlBuilder.Proofs.Builder.ClosedMethods
import AqlBuilder.Proofs.Statement.Mentioned
import AqlBuilder.Proofs.Script.Closed
import AqlBuilder.Proofs.Transaction.Declared
import AqlBuilder.Proofs.Query.Sound
import AqlBuilder.Proofs.Query.Faults
import AqlBuilder.Proofs.Builder.Sound
import AqlBuilder.Proofs.Script.Parts
import AqlBuilder.Proofs.Statement.Faults
import AqlBuilder.Proofs.Script.Sound
import AqlBuilder.Proofs.Query.Named
import AqlBuilder.Proofs.Query.Looped
import AqlBuilder.Proofs.Statement.Prefixed
import AqlBuilder.Proofs.Script.Prefixed
import AqlBuilder.Proofs.Aql.Cited
import AqlBuilder.Proofs.Builder.Tidy
import AqlBuilder.Proofs.Builder.TidyMethods
import AqlBuilder.Proofs.Script.Frugal
import AqlBuilder.Proofs.Connection.Sent
import AqlBuilder.Proofs.Transaction.Journal
import AqlBuilder.Proofs.Connection.Callback
import AqlBuilder.Proofs.Connection.Nesting
import AqlBuilder.Proofs.Connection.Pretending
import AqlBuilder.Proofs.Script.Selected
import AqlBuilder.Proofs.Json.Quoted
import AqlBuilder.Proofs.Statement.LastAssigned
import AqlBuilder.Proofs.Text.Pieces
import AqlBuilder.Proofs.Statement.Adjusted
import AqlBuilder.Proofs.Builder.Narrowing
import AqlBuilder.Proofs.Builder.Shaping
import AqlBuilder.Proofs.Column.Joined
import AqlBuilder.Proofs.Builder.Joined
import AqlBuilder.Proofs.Builder.Grouping
import AqlBuilder.Proofs.Statement.Unwrapped
import AqlBuilder.Proofs.Builder.Operators
import AqlBuilder.Proofs.Column.Trail
import AqlBuilder.Proofs.Builder.Blind
import AqlBuilder.Proofs.Builder.Reselected
import AqlBuilder.Proofs.Statement.Kept
import AqlBuilder.Proofs.Statement.AggregatePaging
import AqlBuilder.Proofs.Statement.CollectedNames
import AqlBuilder.Proofs.Text.Encoded
import AqlBuilder.Proofs.Column.Parsed
import AqlBuilder.Proofs.Builder.Made
import AqlBuilder.Proofs.Builder.Contained
import AqlBuilder.Proofs.Script.Made
import AqlBuilder.Proofs.Aql.Formula
import AqlBuilder.Proofs.Query.Formula
import AqlBuilder.Proofs.Builder.Proper
import AqlBuilder.Proofs.Statement.InScope
import AqlBuilder.Proofs.Statement.ReadBack
import AqlBuilder.Proofs.Value.Embedded
import AqlBuilder.Proofs.Script.Embedded
import AqlBuilder.Proofs.Statement.Embedded
import AqlBuilder.Proofs.Column.LastAttribute
import AqlBuilder.Proofs.Script.Searched
import AqlBuilder.Proofs.Connection.FirstValue
import AqlBuilder.Proofs.Aql.Ticked
import AqlBuilder.Proofs.Statement.Upserted
import AqlBuilder.Proofs.Statement.Searched
import AqlBuilder.Proofs.Binding.Recognised
import AqlBuilder.Proofs.Column.Followed
import AqlBuilder.Proofs.Value.Native
import AqlBuilder.Proofs.Column.Spelled
import AqlBuilder.Proofs.Script.Spelled
