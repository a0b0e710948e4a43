import MetricStream.ApiKey
import MetricStream.Binary64
import MetricStream.Binary64.Literal
import MetricStream.Client
import MetricStream.Client.DryRun
import MetricStream.Client.Recorder
import MetricStream.Client.Series
import MetricStream.Command
import MetricStream.CommandLine
import MetricStream.CommandLine.Argument
import MetricStream.CommandLine.Help
import MetricStream.Config
import MetricStream.Config.Load
import MetricStream.Context
import MetricStream.Decimal.Layout
import MetricStream.Decimal.Shortest
import MetricStream.Delivery.Backend
import MetricStream.Delivery.Host
import MetricStream.Delivery.Options
import MetricStream.Delivery.Url
import MetricStream.Duration
import MetricStream.Duration.Group
import MetricStream.Duration.Reading
import MetricStream.Duration.Word
import MetricStream.Environment
import MetricStream.Instant
import MetricStream.Interpreter
import MetricStream.Json
import MetricStream.Log.Event
import MetricStream.Log.Filter
import MetricStream.Log.Line
import MetricStream.Main
import MetricStream.Power
import MetricStream.Program
import MetricStream.Proofs.Binary64.Integer
import MetricStream.Proofs.Binary64.Language
import MetricStream.Proofs.Binary64.Nearest
import MetricStream.Proofs.Binary64.Overflow
import MetricStream.Proofs.Binary64.Typed
import MetricStream.Proofs.Client.History
import MetricStream.Proofs.CommandLine.Arguments
import MetricStream.Proofs.CommandLine.Boundary
import MetricStream.Proofs.CommandLine.Insertion
import MetricStream.Proofs.CommandLine.Written
import MetricStream.Proofs.Config.Entries
import MetricStream.Proofs.Config.Strict
import MetricStream.Proofs.Decimal.Layout
import MetricStream.Proofs.Decimal.Shortest
import MetricStream.Proofs.Delivery.Base
import MetricStream.Proofs.Duration.Checked
import MetricStream.Proofs.Duration.Exact
import MetricStream.Proofs.Duration.Language
import MetricStream.Proofs.Duration.Monotone
import MetricStream.Proofs.Duration.Shown
import MetricStream.Proofs.Duration.Sums
import MetricStream.Proofs.Duration.Watched
import MetricStream.Proofs.Interpreter.Account
import MetricStream.Proofs.Interpreter.Composition
import MetricStream.Proofs.Interpreter.Culprit
import MetricStream.Proofs.Interpreter.Halting
import MetricStream.Proofs.Interpreter.Malformed
import MetricStream.Proofs.Interpreter.Phrases
import MetricStream.Proofs.Interpreter.Reference
import MetricStream.Proofs.Interpreter.Report
import MetricStream.Proofs.Interpreter.Rewording
import MetricStream.Proofs.Interpreter.Steps
import MetricStream.Proofs.Interpreter.Unrefused
import MetricStream.Proofs.Interpreter.Writes
import MetricStream.Proofs.Json.Reader
import MetricStream.Proofs.Json.RoundTrip
import MetricStream.Proofs.Series.Body
import MetricStream.Proofs.Series.Closed
import MetricStream.Proofs.Series.Finite
import MetricStream.Proofs.Series.Interference
import MetricStream.Proofs.Series.Ledger
import MetricStream.Proofs.Series.Posting
import MetricStream.Proofs.Series.Window
import MetricStream.Proofs.Session.Closing
import MetricStream.Proofs.Session.Delivery
import MetricStream.Proofs.Session.Diagnostic
import MetricStream.Proofs.Session.Flushes
import MetricStream.Proofs.Session.Lockstep
import MetricStream.Proofs.Session.MalformedEnd
import MetricStream.Proofs.Session.Rewording
import MetricStream.Proofs.Session.Secrecy
import MetricStream.Proofs.Session.Submissions
import MetricStream.Proofs.Session.Timeline
import MetricStream.Proofs.Session.Totals
import MetricStream.Proofs.Session.Unrefused
import MetricStream.Proofs.Settings.Precedence
import MetricStream.Proofs.Settings.Tags
import MetricStream.Proofs.Text.Cut
import MetricStream.Proofs.Text.Printable
import MetricStream.Proofs.Text.Quoted
import MetricStream.Proofs.Toml.Keys
import MetricStream.Series
import MetricStream.Session
import MetricStream.Settings
import MetricStream.Submission
import MetricStream.Text.Alphanumeric
import MetricStream.Text.Base64
import MetricStream.Text.Blank
import MetricStream.Text.Combining
import MetricStream.Text.Hex
import MetricStream.Text.Octets
import MetricStream.Text.Percent
import MetricStream.Text.Quoted
import MetricStream.Text.Sign
import MetricStream.Text.Unprintable
import MetricStream.Toml.Document
import MetricStream.Toml.Scalar
import MetricStream.Toml.Text
import MetricStream.Toml.Tree
import MetricStream.Toml.Value
import MetricStream.Verb
