import LintRun.Ignore.Filter
import LintRun.LintOptions
import LintRun.SourceKind
import LintRun.Json.Decode
import LintRun.Json.Printer
import LintRun.Text.Utf8
import LintRun.Text.Blank
import LintRun.Console
import LintRun.Report.Basic
import LintRun.Toml.Reader
import LintRun.Options.Validate
import LintRun.Task.Execute
import LintRun.Files.Tree
import LintRun.Options.Locate
import LintRun.Sources
import LintRun.Command.Spawn
import LintRun.Main
import LintRun.Proofs.Ignore.Offset
import LintRun.Proofs.Ignore.Spans
import LintRun.Proofs.Ignore.Coverage
import LintRun.Proofs.Findings
import LintRun.Proofs.Task.Linted
import LintRun.Proofs.Task.Loaded
import LintRun.Proofs.Task.Outcome
import LintRun.Proofs.Task.Ends
import LintRun.Proofs.Task.Phase
import LintRun.Proofs.Task.Protocol
import LintRun.Proofs.Report.Layout
import LintRun.Proofs.Task.Reported
import LintRun.Proofs.Report.Delimited
import LintRun.Proofs.Report.Escape
import LintRun.Proofs.Report.Page
import LintRun.Proofs.Report.Markup
import LintRun.Proofs.Report.Lines
import LintRun.Proofs.Json.RoundTrip
import LintRun.Proofs.Text.Utf8
import LintRun.Proofs.Linter.Wire
import LintRun.Proofs.Options.Reloaded
import LintRun.Proofs.Options.Validated
import LintRun.Proofs.Task.Examined
import LintRun.Proofs.Task.Lenient
import LintRun.Proofs.Path.Raw
import LintRun.Proofs.Task.Reordered
import LintRun.Proofs.Path.Segments
import LintRun.Proofs.Files.Walk
import LintRun.Proofs.Glob.Below
import LintRun.Proofs.Glob.Literal
import LintRun.Proofs.Glob.Along
import LintRun.Proofs.Sources.Directory
import LintRun.Proofs.Files.Denoted
import LintRun.Proofs.Sources.Collected
import LintRun.Proofs.Options.Runnable
import LintRun.Proofs.Sources.Recorded
import LintRun.Proofs.Cli.Exit
import LintRun.Proofs.Ignore.Automaton
import LintRun.Proofs.Ignore.Ordered
import LintRun.Proofs.Files.Above
import LintRun.Proofs.Ignore.Appended
import LintRun.Proofs.Options.Located
import LintRun.Proofs.Ignore.Shifted
import LintRun.Proofs.Ignore.LineEndings
import LintRun.Proofs.Report.Unescape
import LintRun.Proofs.Path.Order
import LintRun.Proofs.Sources.Expanded
import LintRun.Proofs.Sources.Relisted
import LintRun.Proofs.LintOptions
import LintRun.Proofs.Options.Trimmed
import LintRun.Proofs.Cli.Announced
import LintRun.Proofs.Findings.Indexed
import LintRun.Proofs.Files.Written
