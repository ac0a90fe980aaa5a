import AlarmView.Action
import AlarmView.Action.Printer
import AlarmView.Attribute
import AlarmView.BrowseName
import AlarmView.CommandLine
import AlarmView.CommandLine.Help
import AlarmView.CommandLine.Parameter
import AlarmView.CommandLine.Reader
import AlarmView.Console
import AlarmView.EditModel.Changes
import AlarmView.EditModel.Instance
import AlarmView.EditModel.Reconciliation
import AlarmView.EditModel.Schema
import AlarmView.EditModel.Store
import AlarmView.Error
import AlarmView.Execution
import AlarmView.Filter
import AlarmView.Filter.Error
import AlarmView.Filter.Fragment
import AlarmView.Filter.Reference
import AlarmView.FilterSet
import AlarmView.Folder
import AlarmView.Json
import AlarmView.Json.Printer
import AlarmView.Json.Reader
import AlarmView.Lexicon
import AlarmView.Main
import AlarmView.Notice
import AlarmView.Panel
import AlarmView.Panel.Controls
import AlarmView.Panel.Edits
import AlarmView.Panel.Layout
import AlarmView.Proofs.EditModel.Carryover
import AlarmView.Proofs.EditModel.Completion
import AlarmView.Proofs.EditModel.Creation
import AlarmView.Proofs.EditModel.Filling
import AlarmView.Proofs.EditModel.Idempotence
import AlarmView.Proofs.EditModel.InstancePass
import AlarmView.Proofs.EditModel.Isolation
import AlarmView.Proofs.EditModel.NodeSet
import AlarmView.Proofs.EditModel.Paths
import AlarmView.Proofs.EditModel.Positions
import AlarmView.Proofs.EditModel.Provenance
import AlarmView.Proofs.EditModel.Pruning
import AlarmView.Proofs.EditModel.Readers
import AlarmView.Proofs.EditModel.Refusal
import AlarmView.Proofs.EditModel.Regeneration
import AlarmView.Proofs.EditModel.Reporting
import AlarmView.Proofs.EditModel.Retention
import AlarmView.Proofs.EditModel.SchemaPass
import AlarmView.Proofs.EditModel.Serving
import AlarmView.Proofs.EditModel.Settling
import AlarmView.Proofs.EditModel.Shape
import AlarmView.Proofs.EditModel.Siblings
import AlarmView.Proofs.EditModel.Skeleton
import AlarmView.Proofs.EditModel.Store
import AlarmView.Proofs.EditModel.Typing
import AlarmView.Proofs.EditModel.Upkeep
import AlarmView.Proofs.Execution
import AlarmView.Proofs.Filter.Reference
import AlarmView.Proofs.FilterSet
import AlarmView.Proofs.Folder
import AlarmView.Proofs.Gating
import AlarmView.Proofs.Json.RoundTrip
import AlarmView.Proofs.Json.Tokens
import AlarmView.Proofs.Panel.Agreement
import AlarmView.Proofs.Panel.Clearing
import AlarmView.Proofs.Panel.Controls
import AlarmView.Proofs.Panel.Edits
import AlarmView.Proofs.Panel.Opening
import AlarmView.Proofs.Panel.Ownership
import AlarmView.Proofs.Panel.Publication
import AlarmView.Proofs.Panel.Reopening
import AlarmView.Proofs.Panel.Saving
import AlarmView.Proofs.Panel.Session
import AlarmView.Proofs.Panel.Severity
import AlarmView.Proofs.Property
import AlarmView.Proofs.Query.Attributes
import AlarmView.Proofs.Query.ClauseScan
import AlarmView.Proofs.Query.Compilation
import AlarmView.Proofs.Query.Confinement
import AlarmView.Proofs.Query.Dependence
import AlarmView.Proofs.Query.Grammar
import AlarmView.Proofs.Query.Pairing
import AlarmView.Proofs.Query.Quoting
import AlarmView.Proofs.Query.Reading
import AlarmView.Proofs.Query.Refusals
import AlarmView.Proofs.Query.Scanner
import AlarmView.Proofs.Query.Selection
import AlarmView.Proofs.Query.Widening
import AlarmView.Proofs.Session
import AlarmView.Proofs.Table
import AlarmView.Proofs.Text.Blank
import AlarmView.Proofs.Text.Decimal
import AlarmView.Proofs.Text.Order
import AlarmView.Proofs.Time.Calendar
import AlarmView.Proofs.Time.NextSecond
import AlarmView.Proofs.Time.Order
import AlarmView.Proofs.Time.QueryText
import AlarmView.Proofs.Time.RoundTrip
import AlarmView.Proofs.Visibility
import AlarmView.Proofs.Visibility.History
import AlarmView.Proofs.Workspace.Encoding
import AlarmView.Proofs.Workspace.Nesting
import AlarmView.Proofs.Workspace.Persistence
import AlarmView.Proofs.Workspace.Startup
import AlarmView.Proofs.Workspace.Upkeep
import AlarmView.Property
import AlarmView.Query
import AlarmView.Query.Compile
import AlarmView.Settings
import AlarmView.Startup
import AlarmView.Table
import AlarmView.Text.Blank
import AlarmView.Text.Decimal
import AlarmView.Text.Emphasis
import AlarmView.Text.Grid
import AlarmView.Text.Hexadecimal
import AlarmView.Text.Pictograph
import AlarmView.Text.Width
import AlarmView.Time.Calendar
import AlarmView.Time.Instant
import AlarmView.Time.Printer
import AlarmView.Time.Reader
import AlarmView.Toml
import AlarmView.Toml.Quoted
import AlarmView.Toml.Reader
import AlarmView.Toml.Scalar
import AlarmView.Visibility
import AlarmView.Workspace
import AlarmView.Workspace.Decode
import AlarmView.Workspace.Encode
import AlarmView.Workspace.File
