import QueryScope.Checked
import QueryScope.CommandLine.Command
import QueryScope.CommandLine.Execution
import QueryScope.CommandLine.Option
import QueryScope.Counter
import QueryScope.Enumeration
import QueryScope.Expression.Basic
import QueryScope.Expression.Sql
import QueryScope.Expression.Visitor
import QueryScope.Fault
import QueryScope.Handle
import QueryScope.Identifier
import QueryScope.Json.Basic
import QueryScope.Json.Parser
import QueryScope.Json.Printer
import QueryScope.Json.Skip
import QueryScope.Main
import QueryScope.Measure
import QueryScope.Number.Decimal
import QueryScope.Number.Double
import QueryScope.Number.Reading
import QueryScope.Parser
import QueryScope.Plan.Basic
import QueryScope.Plan.Listing
import QueryScope.Plan.TableScan
import QueryScope.Plan.Visitor
import QueryScope.Preorder
import QueryScope.Proofs.Assembly
import QueryScope.Proofs.Attribution
import QueryScope.Proofs.Belonging
import QueryScope.Proofs.ByteCount
import QueryScope.Proofs.Decoder
import QueryScope.Proofs.Decoding
import QueryScope.Proofs.Double
import QueryScope.Proofs.Elements
import QueryScope.Proofs.Entries
import QueryScope.Proofs.Enumeration
import QueryScope.Proofs.ErrorOrigin
import QueryScope.Proofs.Fallback
import QueryScope.Proofs.HandleFields
import QueryScope.Proofs.Identifier
import QueryScope.Proofs.IdentifierGrammar
import QueryScope.Proofs.Identity
import QueryScope.Proofs.Json.Parsed
import QueryScope.Proofs.Json.Place
import QueryScope.Proofs.Json.WellFormed
import QueryScope.Proofs.Listing
import QueryScope.Proofs.Location.Basic
import QueryScope.Proofs.Location.Payload
import QueryScope.Proofs.Location.Record
import QueryScope.Proofs.Location.Scalar
import QueryScope.Proofs.MeasureGrammar
import QueryScope.Proofs.MeasureText
import QueryScope.Proofs.MemoryPool
import QueryScope.Proofs.Narrowing
import QueryScope.Proofs.NullMembers
import QueryScope.Proofs.Number.Places
import QueryScope.Proofs.Number.Rounding
import QueryScope.Proofs.Number.Unsigned
import QueryScope.Proofs.Parts
import QueryScope.Proofs.PathText
import QueryScope.Proofs.Placeholders
import QueryScope.Proofs.PlanOrder
import QueryScope.Proofs.Preorder
import QueryScope.Proofs.Produced
import QueryScope.Proofs.QueryListing
import QueryScope.Proofs.Reading
import QueryScope.Proofs.Registration
import QueryScope.Proofs.Relocation
import QueryScope.Proofs.Rendering
import QueryScope.Proofs.Restoring.Arrangement
import QueryScope.Proofs.Restoring.Basic
import QueryScope.Proofs.Restoring.Expression
import QueryScope.Proofs.Restoring.Handle
import QueryScope.Proofs.Restoring.Payload
import QueryScope.Proofs.Restoring.Plan
import QueryScope.Proofs.Restoring.Query
import QueryScope.Proofs.Restoring.Snapshot
import QueryScope.Proofs.SameOutcome
import QueryScope.Proofs.Selection
import QueryScope.Proofs.Settings.Directory
import QueryScope.Proofs.Settings.Session
import QueryScope.Proofs.Settings.Store
import QueryScope.Proofs.Settings.Text
import QueryScope.Proofs.Sql.Literals
import QueryScope.Proofs.Sql.Operands
import QueryScope.Proofs.Sql.Quoting
import QueryScope.Proofs.Sql.Reading
import QueryScope.Proofs.Sql.Substitution
import QueryScope.Proofs.StageOrder
import QueryScope.Proofs.Traversal
import QueryScope.Proofs.UnreadKeys
import QueryScope.Proofs.Visiting
import QueryScope.Proofs.Words
import QueryScope.Sample
import QueryScope.Settings.Directory
import QueryScope.Settings.Preferences
import QueryScope.Settings.Reading
import QueryScope.Settings.Store
import QueryScope.Snapshot.Buffer
import QueryScope.Snapshot.MemoryPool
import QueryScope.Snapshot.Query
import QueryScope.Snapshot.Stage
import QueryScope.Snapshot.Task
import QueryScope.Sql.Quoting
import QueryScope.Summary
import QueryScope.Text.Blank
import QueryScope.Text.Hidden
import QueryScope.Text.Quoted
import QueryScope.Visit
import QueryScope.Wire.Codec
import QueryScope.Wire.Decode
import QueryScope.Wire.Decoder
import QueryScope.Wire.Error
import QueryScope.Wire.Interface
import QueryScope.Wire.Layout
import QueryScope.Wire.Path
import QueryScope.Wire.Payload
import QueryScope.Wire.Registry
import QueryScope.Wire.Select
import QueryScope.Wire.Standard
