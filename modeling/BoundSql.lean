import BoundSql.Command.Environment
import BoundSql.Main
import BoundSql.Query.Gathered
import BoundSql.Proofs.Document.DeclaredTypes
import BoundSql.Proofs.Document.Entries
import BoundSql.Proofs.Document.Spellings
import BoundSql.Proofs.Filter.History
import BoundSql.Proofs.Filter.Fallback
import BoundSql.Proofs.Filter.TextTests
import BoundSql.Proofs.Filter.WellFormed
import BoundSql.Proofs.Projection.SharedLists
import BoundSql.Proofs.Query.Alike
import BoundSql.Proofs.Query.Ordering
import BoundSql.Proofs.Query.Readability
import BoundSql.Proofs.Query.Scalars
import BoundSql.Proofs.Query.Spine
import BoundSql.Proofs.Document.BuildOrder
import BoundSql.Proofs.Expr.Renaming
import BoundSql.Proofs.Filter.Renaming
import BoundSql.Proofs.Projection.Renaming
import BoundSql.Proofs.Query.Renaming
import BoundSql.Proofs.Filter.ColumnNames
import BoundSql.Proofs.Projection.Stops
import BoundSql.Proofs.Filter.Unsupported
import BoundSql.Proofs.Document.Descriptors
import BoundSql.Proofs.Value.RoundTrip
import BoundSql.Proofs.Document.Aliases
import BoundSql.Proofs.Document.Termination
