import Rollout.Calendar
import Rollout.CommandLine.Options
import Rollout.CommandLine.Overrides
import Rollout.CommandLine.Reader
import Rollout.Config.Basic
import Rollout.Config.Decode
import Rollout.Config.Placeholder
import Rollout.Config.Rules
import Rollout.Config.Settings
import Rollout.Config.Validation
import Rollout.ControlPlane.Cluster
import Rollout.ControlPlane.Output
import Rollout.ControlPlane.Request
import Rollout.Duration
import Rollout.Failure.Cause
import Rollout.Failure.Guidance
import Rollout.Files.Tree
import Rollout.Json.Printer
import Rollout.Json.Reader
import Rollout.Json.Value
import Rollout.Kubectl.Arguments
import Rollout.Kubectl.Client
import Rollout.Kubectl.Rehearsal
import Rollout.Main
import Rollout.Manifest.Order
import Rollout.Manifest.Step
import Rollout.Number.DoubleRange
import Rollout.Path
import Rollout.Program.Conclusion
import Rollout.Program.Display
import Rollout.Run.Event
import Rollout.Run.Execution
import Rollout.Run.Plan
import Rollout.Run.Report
import Rollout.Run.Work
import Rollout.Text.Blank
import Rollout.Text.Lines
import Rollout.Text.Numeral
import Rollout.Text.Utf8
import Rollout.Toml.Document
import Rollout.Toml.Scalar
import Rollout.Toml.Table
import Rollout.Toml.Text
import Rollout.Toml.Value
import Rollout.Verify.Polling
import Rollout.Verify.Readiness
import Rollout.Proofs.ControlPlane.History
import Rollout.Proofs.Run.FailFast
import Rollout.Proofs.Manifest.Positions
import Rollout.Proofs.Run.Dependencies
import Rollout.Proofs.Run.Residue
import Rollout.Proofs.Verify.Passes
import Rollout.Proofs.Run.RefusedDelete
import Rollout.Proofs.Program.Preflight
import Rollout.Proofs.Config.Requirement
import Rollout.Proofs.Config.Usable
import Rollout.Proofs.Run.Plans
import Rollout.Proofs.Config.Precedence
import Rollout.Proofs.Manifest.Interleaving
import Rollout.Proofs.Program.LastAnswer
import Rollout.Proofs.Program.ExitStatus
import Rollout.Proofs.Config.Substitution
import Rollout.Proofs.Toml.Lookahead
import Rollout.Proofs.Toml.Nested
import Rollout.Proofs.Toml.Statements
import Rollout.Proofs.Toml.Exchange
import Rollout.Proofs.Toml.Place
import Rollout.Proofs.Toml.KeyedValue
import Rollout.Proofs.Config.ExchangedText
import Rollout.Proofs.Config.SectionKey
import Rollout.Proofs.Config.QuotedPlaceholder
import Rollout.Proofs.Verify.MorePasses
import Rollout.Proofs.Program.Strictness
import Rollout.Proofs.Manifest.JoinedPaths
import Rollout.Proofs.Run.Results
import Rollout.Proofs.Config.SoundSettings
import Rollout.Proofs.Program.RunReports
import Rollout.Proofs.Program.Guarantees
import Rollout.Proofs.Config.LeftmostPlaceholders
import Rollout.Proofs.Config.RepeatedSubstitution
import Rollout.Proofs.Run.Repetition
import Rollout.Proofs.Verify.SteadyPolling
import Rollout.Proofs.Manifest.StableOrder
import Rollout.Proofs.Text.Decimal
import Rollout.Proofs.Verify.StatedCounts
import Rollout.Proofs.Kubectl.Decoding
import Rollout.Proofs.Json.RoundTrip
import Rollout.Proofs.Run.WrittenReport
import Rollout.Proofs.Duration
import Rollout.Proofs.Run.RoundedTotal
import Rollout.Proofs.Config.Labels
import Rollout.Proofs.Config.Subdomains
import Rollout.Proofs.Manifest.FileNames
import Rollout.Proofs.Config.FileExtensions
import Rollout.Proofs.CommandLine.ReadBack
import Rollout.Proofs.Run.Log
