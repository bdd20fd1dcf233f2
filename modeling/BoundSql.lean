import BoundSql.Document.Value
import BoundSql.Number.Shortest
import BoundSql.Postgres.Client
import BoundSql.Postgres.ScriptedServer
import BoundSql.Scripted
import BoundSql.Session.Statement
import BoundSql.Session.Transaction
import BoundSql.Store.File
import BoundSql.Store.Subpath
import BoundSql.Proofs.OrderedMap
import BoundSql.Proofs.Template.Image
import BoundSql.Proofs.Template.Numbering
import BoundSql.Proofs.Template.Referenced
import BoundSql.Proofs.Template.Segmentation
import BoundSql.Proofs.Text.Delimited
import BoundSql.Proofs.Postgres.Numeric
import BoundSql.Proofs.Postgres.Placement
import BoundSql.Proofs.Postgres.Integers
import BoundSql.Proofs.Postgres.SixteenBits
import BoundSql.Proofs.Template.Parameters
import BoundSql.Proofs.Template.TokenReading
import BoundSql.Proofs.Filter.GeneratedNames
import BoundSql.Proofs.Number.BigEndian
import BoundSql.Proofs.Number.Decimal
import BoundSql.Proofs.Number.DecimalText
import BoundSql.Proofs.Number.PlaceValue
import BoundSql.Proofs.Session.Run
import BoundSql.Proofs.Session.Dispatch
import BoundSql.Proofs.Session.TransactionLevel
import BoundSql.Proofs.Session.TransactionBody
import BoundSql.Proofs.RowChange.Update
import BoundSql.Proofs.Template.Closed
import BoundSql.Proofs.Template.Appended
import BoundSql.Proofs.Template.Casts
import BoundSql.Proofs.Select.Compiled
import BoundSql.Proofs.Select.Paging
import BoundSql.Proofs.Filter.Grouping
import BoundSql.Proofs.Filter.Written
import BoundSql.Proofs.Select.HelperTokens
import BoundSql.Proofs.Select.Names
import BoundSql.Proofs.Inlined.Reading
import BoundSql.Proofs.Inlined.Substitution
import BoundSql.Proofs.Inlined.OwnTokens
import BoundSql.Proofs.Inlined.Offsets
import BoundSql.Proofs.Session.AffectedRows
import BoundSql.Proofs.Text.Literal
import BoundSql.Proofs.Store.Runs
import BoundSql.Proofs.Metadata.Calls
import BoundSql.Proofs.Identifier.Enclosed
import BoundSql.Proofs.Identifier.EscapedAgain
import BoundSql.Proofs.RowChange.Insert
import BoundSql.Proofs.Store.AllOrNothing
import BoundSql.Proofs.Bind.Positions
import BoundSql.Proofs.Select.Assembled
import BoundSql.Proofs.Select.PagingValues
import BoundSql.Proofs.Session.SetUp
import BoundSql.Proofs.Metadata.Columns
import BoundSql.Proofs.Metadata.NumericTypes
import BoundSql.Proofs.Select.Sources
import BoundSql.Proofs.Metadata.Tasks
import BoundSql.Proofs.Session.Events
import BoundSql.Proofs.Postgres.Permutation
import BoundSql.Proofs.Inlined.Protected
import BoundSql.Proofs.Log
