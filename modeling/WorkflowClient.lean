import WorkflowClient.Client.Session
import WorkflowClient.Log.Loggers
import WorkflowClient.Log.Template
import WorkflowClient.Proofs.Calendar.Iso
import WorkflowClient.Proofs.Client.Absence
import WorkflowClient.Proofs.Client.Attributes
import WorkflowClient.Proofs.Client.Calls
import WorkflowClient.Proofs.Client.Endings
import WorkflowClient.Proofs.Client.Plan
import WorkflowClient.Proofs.Client.Records
import WorkflowClient.Proofs.Client.Reset
import WorkflowClient.Proofs.Client.Results
import WorkflowClient.Proofs.Client.Signal
import WorkflowClient.Proofs.Client.Start
import WorkflowClient.Proofs.Client.Trace
import WorkflowClient.Proofs.Declaration
import WorkflowClient.Proofs.Descriptor.Hash
import WorkflowClient.Proofs.Descriptor.History
import WorkflowClient.Proofs.Descriptor.Identity
import WorkflowClient.Proofs.Descriptor.Unchecked
import WorkflowClient.Proofs.Diagnostic.Colors
import WorkflowClient.Proofs.Http.Lifecycle
import WorkflowClient.Proofs.Http.Padding
import WorkflowClient.Proofs.Http.Refinement
import WorkflowClient.Proofs.Json.Depth
import WorkflowClient.Proofs.Json.Entries
import WorkflowClient.Proofs.Json.Floats
import WorkflowClient.Proofs.Json.Neat
import WorkflowClient.Proofs.Json.RoundTrip
import WorkflowClient.Proofs.Json.Scalars
import WorkflowClient.Proofs.Log.Loggers
import WorkflowClient.Proofs.Matching
import WorkflowClient.Proofs.Message.Integers
import WorkflowClient.Proofs.Message.Padding
import WorkflowClient.Proofs.Message.Reading
import WorkflowClient.Proofs.Message.Requests
import WorkflowClient.Proofs.Message.RoundTrip
import WorkflowClient.Proofs.Message.Wire
import WorkflowClient.Proofs.Number.Decimal
import WorkflowClient.Proofs.Number.Digits
import WorkflowClient.Proofs.Number.Exact
import WorkflowClient.Proofs.Number.Numeral
import WorkflowClient.Proofs.Number.Rounding
import WorkflowClient.Proofs.Number.Shortest
import WorkflowClient.Proofs.Number.Text
import WorkflowClient.Proofs.Options.Environment
import WorkflowClient.Proofs.Options.Report
import WorkflowClient.Proofs.Options.Timeouts
import WorkflowClient.Proofs.Payload.Accepts
import WorkflowClient.Proofs.Payload.Agreement
import WorkflowClient.Proofs.Payload.Aliases
import WorkflowClient.Proofs.Payload.Failures
import WorkflowClient.Proofs.Payload.History
import WorkflowClient.Proofs.Payload.Inhabits
import WorkflowClient.Proofs.Payload.Keys
import WorkflowClient.Proofs.Payload.Members
import WorkflowClient.Proofs.Payload.Neat
import WorkflowClient.Proofs.Payload.Reads
import WorkflowClient.Proofs.Payload.RoundTrip
import WorkflowClient.Proofs.Payload.Scalars
import WorkflowClient.Proofs.Payload.Text
import WorkflowClient.Proofs.Payload.Walk
import WorkflowClient.Proofs.Payload.Writes
import WorkflowClient.Proofs.Registry
import WorkflowClient.Proofs.Text.Repeated
import WorkflowClient.Proofs.TypeExpr.Equality
import WorkflowClient.Proofs.TypeExpr.Hash
import WorkflowClient.Proofs.TypeExpr.Parts
import WorkflowClient.Proofs.TypeExpr.Symmetric
import WorkflowClient.Proofs.Validation.Containers
import WorkflowClient.Proofs.Validation.Exactness
import WorkflowClient.Proofs.Validation.Given
import WorkflowClient.Proofs.Validation.Null
import WorkflowClient.Proofs.Validation.Unions
import WorkflowClient.Proofs.Value.Hash
import WorkflowClient.Proofs.Value.Parts
import WorkflowClient.Proofs.Value.Symmetric
import WorkflowClient.Proofs.Value.Transitive
import WorkflowClient.Proofs.Value.Uuid
import WorkflowClient.Samples.Orders
import WorkflowClient.TypeExpr.Forms
