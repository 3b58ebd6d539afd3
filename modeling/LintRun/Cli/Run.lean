import LintRun.Cli.Help
import LintRun.Cli.Invocation
import LintRun.Console
import LintRun.Options.Template
import LintRun.Sources
import LintRun.Task.Execute
import LintRun.Task.Workspace

/-! Carrying out a command line on a tree of files. How the command of the linter is started is left
    open. A verbose run also writes diagnostics, each with its time, between the lines of its
    complaints; they are left out of what it leaves here. -/

namespace LintRun.Cli

/-- What a run leaves: its exit code, its output and its complaints. -/
structure Result where
  code : Nat
  out : String := ""
  err : String := ""
  deriving Repr, DecidableEq, Inhabited

def line (s : String) : String := s ++ "\n"

def lines (ls : List String) : String := String.join (ls.map line)

/-- The complaint of a run that failed. -/
def errorLine (text : String) : String := line s!"Error: {text}"

/-- What a command line that is not carried out leaves. -/
def Stop.result : Stop → Result
  | .help page => { code := 0, out := page.text }
  | .version => { code := 0, out := line Cli.version }
  | .incomplete page => { code := 2, err := page.text }
  | .usage cause => { code := 2, err := line s!"error: {cause.message}" }

/-- The directory in which the search for options begins: the first input if that is a directory,
    else the one that it is in. -/
def searchStart (t : FileTree) (inputs : List Path) : Path :=
  let candidate := inputs.head?.bind fun p => if t.isDirectory p then some p else p.parent?
  (candidate.filter fun p => !p.isEmpty).getD ⟨"."⟩

namespace LintRequest

/-- The options file of a run: the one named, or the nearest. -/
def optionsPath (r : LintRequest) (t : FileTree) : Option Path :=
  r.optionsFile.or (Options.find t (searchStart t r.inputs))

/-- The options of a run, by default if there is no file. -/
def options (r : LintRequest) (t : FileTree) : Except ConfigError Options :=
  match r.optionsPath t with
  | some path => Options.load t path
  | none => .ok {}

/-- Whether a run writes colours: as flags say, else as the options say. No output is a
    terminal. -/
def colored (r : LintRequest) (o : Options) : Bool := r.color.getD (o.color == .always)

/-- What a verbose run tells of its options. -/
def optionsNote (r : LintRequest) (t : FileTree) : String :=
  match r.optionsPath t with
  | some path => if r.verbose then line s!"Using options: {path.text}" else ""
  | none => ""

/-- What a verbose run tells of its sources. -/
def sourcesNote (r : LintRequest) (sources : List Path) : String :=
  if r.verbose then
    lines (s!"Linting {sources.length} file(s)" :: sources.map fun p => s!"  - {p.text}")
  else ""

def task (r : LintRequest) (t : FileTree) (sources : List Path) : Task :=
  { sources, optionsFile := r.optionsPath t, reportFile := r.reportFile, warnings := r.warnings }

def reportPath (r : LintRequest) (o : Options) : Option Path :=
  (r.reportFile.or o.output.reportFile).filter fun p => !p.isEmpty

/-- What a verbose run tells of its report. -/
def reportNote (r : LintRequest) (o : Options) (totals : Totals) : String :=
  match r.reportPath o with
  | some path =>
    if r.verbose && 0 < totals.processed then line s!"Report written to {path.text}" else ""
  | none => ""

/-- What a task that was carried out leaves, after some notes. -/
def finish (r : LintRequest) (o : Options) (notes : String) (log : Log) :
    Except Task.Failure Task.Outcome → Result
  | .ok outcome =>
    { code := if outcome.success then 0 else 1
      out := entries ++ (if log.isEmpty then "" else "\n")
      err := notes ++ line (Console.summary (r.colored o) outcome.totals) ++
        r.reportNote o outcome.totals }
  | .error (.reportWrite path cause outcome) =>
    { code := 2
      out := entries
      err := notes ++ line (Console.summary (r.colored o) outcome.totals) ++
        line s!"Error writing report {path.text}: {cause.message}" }
  | .error failure => { code := 2, out := entries, err := notes ++ errorLine failure.message }
where
  /-- The lines of the log. -/
  entries : String :=
    lines (log.map fun (severity, entry) => Console.entry (r.colored o) severity entry)

def lint (start : Linter.Starter) (r : LintRequest) (o : Options) (now : Timestamp)
    (sources : List Path) (t : FileTree) : Result × FileTree :=
  let done := (r.task t sources).execute (Task.workspace start o.linterCommand) now t
  let notes := r.optionsNote t ++ r.sourcesNote sources
  (r.finish o notes (Task.logOf done.events) done.result, done.state)

def run (start : Linter.Starter) (r : LintRequest) (now : Timestamp) (t : FileTree) :
    Result × FileTree :=
  if r.inputs.isEmpty then ({ code := 2, out := Page.program.text, err := "\n" }, t)
  else match r.options t with
    | .error cause => ({ code := 2, err := errorLine cause.message }, t)
    | .ok o =>
      match Sources.collect t o.included r.inputs with
      | .error cause => ({ code := 2, err := r.optionsNote t ++ errorLine cause.message }, t)
      | .ok sources => r.lint start o now sources t

end LintRequest

/-- Makes an options file. One that is there is only replaced by force. -/
def runInit (output : Path) (force : Bool) (t : FileTree) : Result × FileTree :=
  if t.holds output && !force then
    let text := s!"{output.text} already exists. Use --force to overwrite."
    ({ code := 1, err := errorLine text }, t)
  else match t.create output (Text.Utf8.encode Options.template) with
    | (.ok _, t) => ({ code := 0, err := line s!"Created {output.text}" }, t)
    | (.error cause, t) =>
      ({ code := 2, err := line s!"Error writing {output.text}: {cause.message}" }, t)

def runValidate (path : Path) (t : FileTree) : Result :=
  if !t.holds path then { code := 2, err := errorLine s!"{path.text} not found" }
  else match Options.validateFile t path with
    | .error cause => { code := 2, err := errorLine cause.message }
    | .ok [] => { code := 0, err := line s!"{path.text}: OK" }
    | .ok problems =>
      { code := 1
        err := lines ([s!"{path.text}:"] ++ problems.map (fun p => s!"  - {p.message}") ++
          ["", s!"Found {problems.length} error(s)"]) }

def Invocation.run (start : Linter.Starter) (i : Invocation) (now : Timestamp) (t : FileTree) :
    Result × FileTree :=
  match i with
  | .lint request => request.run start now t
  | .init output force => runInit output force t
  | .validate path => (runValidate path t, t)

def run (start : Linter.Starter) (arguments : List String) (now : Timestamp) (t : FileTree) :
    Result × FileTree :=
  match Invocation.ofArguments arguments with
  | .ok invocation => invocation.run start now t
  | .error stop => (stop.result, t)

end LintRun.Cli
