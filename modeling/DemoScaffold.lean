import DemoScaffold.FileTree.Operations
import DemoScaffold.Main
import DemoScaffold.Proofs.FileTree.Lookup
import DemoScaffold.Proofs.FileTree.Paving
import DemoScaffold.Proofs.Path.Segments
import DemoScaffold.Proofs.FileTree.Creation
import DemoScaffold.Proofs.FileTree.Writing
import DemoScaffold.Proofs.Plan
import DemoScaffold.Proofs.Run.Steps
import DemoScaffold.Proofs.Run.Accounting
import DemoScaffold.Proofs.FileTree.Siblings
import DemoScaffold.Proofs.Run.Siblings
import DemoScaffold.Proofs.Run.Repeated
import DemoScaffold.Proofs.Template.Alike
import DemoScaffold.Proofs.Template.Faults
import DemoScaffold.Proofs.Repetition
import DemoScaffold.Proofs.Run.Failing
import DemoScaffold.Proofs.FileTree.Changes
import DemoScaffold.Proofs.FileTree.Stopping
import DemoScaffold.Proofs.Run.Changes
import DemoScaffold.Proofs.Run.Manifest
import DemoScaffold.Proofs.Template.Surroundings
import DemoScaffold.Proofs.Template.Written
import DemoScaffold.Proofs.Template.Missing
import DemoScaffold.Proofs.Template.Slots
import DemoScaffold.Proofs.Template.Patterns
import DemoScaffold.Proofs.Text.Encoding
import DemoScaffold.Proofs.Json.Quoted
import DemoScaffold.Proofs.Json.Written
import DemoScaffold.Proofs.Config
import DemoScaffold.Proofs.Path.Components
import DemoScaffold.Proofs.Text.Lines
import DemoScaffold.Proofs.Template.Lines
import DemoScaffold.Proofs.Template.Mentions
import DemoScaffold.Proofs.Template.Demo
import DemoScaffold.Proofs.Run.Complete
import DemoScaffold.Proofs.CommandLine.Arguments
import DemoScaffold.Proofs.CommandLine.Scaffold
import DemoScaffold.Proofs.Suffixes
import DemoScaffold.Proofs.Text.Order
import DemoScaffold.Proofs.Bindings
import DemoScaffold.Proofs.Template.Verdict
import DemoScaffold.Proofs.FileTree.Sessions
import DemoScaffold.Proofs.Path.Order
import DemoScaffold.Proofs.FileTree.Descent
import DemoScaffold.Proofs.Shader.Scan
import DemoScaffold.Proofs.Text.StringLiteral
import DemoScaffold.Proofs.Template.DisplayName
import DemoScaffold.Proofs.Manifest
import DemoScaffold.Proofs.Shader.Locality
import DemoScaffold.Proofs.Shader.Report
import DemoScaffold.Proofs.Shader.Endings
import DemoScaffold.Proofs.Star.Fan
import DemoScaffold.Proofs.Number.Decimal
import DemoScaffold.Proofs.Star.Coordinate
import DemoScaffold.Proofs.Star.Source
import DemoScaffold.Proofs.Traversal
import DemoScaffold.Proofs.DemoModule
import DemoScaffold.Proofs.Json.Members
import DemoScaffold.Proofs.Number.Significand
import DemoScaffold.Proofs.Number.Binary
import DemoScaffold.Proofs.Binary.Size
