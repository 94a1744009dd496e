import ActiveRow.Binary.Single
import ActiveRow.Cast
import ActiveRow.Declaration
import ActiveRow.Page
import ActiveRow.Postgres.Schema
import ActiveRow.Query.Call
import ActiveRow.Registry
import ActiveRow.Script
import ActiveRow.Selection.Chunk
import ActiveRow.Selection.Fetch
import ActiveRow.Selection.Write
import ActiveRow.Settings
import ActiveRow.Statement.Change
import ActiveRow.Value.Order
import ActiveRow.Proofs.Compilation
import ActiveRow.Proofs.Compilation.Placeholders
import ActiveRow.Proofs.Compilation.Shape
import ActiveRow.Proofs.Predicate.Reading
import ActiveRow.Proofs.Predicate.Pruning
import ActiveRow.Proofs.Compilation.Pruned
import ActiveRow.Proofs.Compilation.Bindings
import ActiveRow.Proofs.Compilation.Operators
import ActiveRow.Proofs.Compilation.CheckedCalls
import ActiveRow.Proofs.Predicate.Verdict
import ActiveRow.Proofs.Predicate.Fork
import ActiveRow.Proofs.Action
import ActiveRow.Proofs.Sending
import ActiveRow.Proofs.Transaction
import ActiveRow.Proofs.Selection.Scope
import ActiveRow.Proofs.Selection.Lookup
import ActiveRow.Proofs.Selection.KeyedPage
import ActiveRow.Proofs.Selection.Table
import ActiveRow.Proofs.Selection.KeyedChunks
import ActiveRow.Proofs.Selection.OffsetChunks
import ActiveRow.Proofs.Selection.Pagination
import ActiveRow.Proofs.Value.Same
import ActiveRow.Proofs.Value.Formed
import ActiveRow.Proofs.Model.Change
import ActiveRow.Proofs.Model.Failure
import ActiveRow.Proofs.Model.Baseline
import ActiveRow.Proofs.Model.RowStore
import ActiveRow.Proofs.Compilation.Alike
import ActiveRow.Proofs.Postgres.IntegerColumn
import ActiveRow.Proofs.Compilation.CallOrder
import ActiveRow.Proofs.Compilation.Markers
import ActiveRow.Proofs.Compilation.Gaps
import ActiveRow.Proofs.Compilation.CountedRows
import ActiveRow.Proofs.Visibility
import ActiveRow.Proofs.Postgres.RoundTrip
import ActiveRow.Proofs.FailStop
import ActiveRow.Proofs.Json.Rearranged
import ActiveRow.Proofs.Json.Texts
import ActiveRow.Proofs.Value.Document
import ActiveRow.Proofs.Cast
import ActiveRow.Proofs.Model.RowStatement
import ActiveRow.Proofs.Model.Saving
import ActiveRow.Proofs.Model.Addressing
import ActiveRow.Proofs.Model.Restoring
import ActiveRow.Proofs.Model.Attaching
import ActiveRow.Proofs.Model.Casting
import ActiveRow.Proofs.Model.Loaded
import ActiveRow.Proofs.Binary.Integer
import ActiveRow.Proofs.Value.Comparison
import ActiveRow.Proofs.Insertion
import ActiveRow.Proofs.Selection.RawComparison
import ActiveRow.Proofs.Model.DirtyTracking
import ActiveRow.Proofs.Model.WrittenForm
import ActiveRow.Proofs.Sorting
import ActiveRow.Proofs.Collection.Sorting
import ActiveRow.Proofs.Text.Spans
import ActiveRow.Proofs.Uuid
import ActiveRow.Proofs.Decimal.Whole
import ActiveRow.Proofs.Collection.Repeats
import ActiveRow.Proofs.Value.Identity
import ActiveRow.Proofs.Collection.Keys
import ActiveRow.Proofs.Decimal.Shortest
import ActiveRow.Proofs.Decimal.Texts
import ActiveRow.Proofs.Json.Told
import ActiveRow.Proofs.Timestamp
import ActiveRow.Proofs.Value.Indistinct
import ActiveRow.Proofs.Collection.UniqueBy
import ActiveRow.Proofs.FirstSeen
import ActiveRow.Proofs.Collection.Groups
import ActiveRow.Proofs.Selection.Counts
import ActiveRow.Proofs.Json.Regular
import ActiveRow.Proofs.Compilation.RowChanges
import ActiveRow.Proofs.Value.Narrowing
import ActiveRow.Proofs.Registry
import ActiveRow.Proofs.Postgres.Links
import ActiveRow.Proofs.Text.Words
import ActiveRow.Proofs.Compilation.Mentions
import ActiveRow.Proofs.Postgres.ReturnedRows
import ActiveRow.Proofs.Decimal.Nearest
import ActiveRow.Proofs.Decimal.Numeral
import ActiveRow.Proofs.Cast.Numeral
import ActiveRow.Proofs.Collection.Chunks
import ActiveRow.Proofs.Text.Plural
import ActiveRow.Proofs.Source.Leads
import ActiveRow.Proofs.Declaration.Relation
import ActiveRow.Proofs.Declaration.Table
import ActiveRow.Proofs.Declaration.Naming
