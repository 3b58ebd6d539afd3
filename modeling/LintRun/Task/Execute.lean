import LintRun.Ignore.Filter
import LintRun.Options.Load
import LintRun.Report.Basic
import LintRun.Task.Trace

/-! A lint run: read each file, lint it, drop what lies in ignore sections, log and count the rest,
    and write a report at the end.

    The first step that fails decides the result. A linter that was created is released exactly
    once, however the run goes on; the report is written after that. -/

namespace LintRun

/-- What to lint, and how. A report file that is given goes before that of the options. -/
structure Task (π : Type := Path) where
  sources : List π
  optionsFile : Option π := none
  reportFile : Option π := none
  warnings : Bool := false
  deriving Repr, DecidableEq, Inhabited

namespace Task

variable {σ π : Type}

/-- What a run that was not broken off has found. -/
structure Outcome where
  success : Bool
  totals : Totals
  deriving Repr, DecidableEq, Inhabited

/-- Why a run was broken off, or why its report was not written. -/
inductive Failure (π : Type := Path) where
  | optionsNotFound (path : π)
  | config (cause : ConfigError π)
  | createLinter (cause : LinterError)
  | read (path : π) (cause : OsError)
  | lint (path : π) (cause : LinterError)
  | reportWrite (path : π) (cause : OsError) (outcome : Outcome)
  deriving Repr, DecidableEq

def Failure.message [PathLike π] : Failure π → String
  | .optionsNotFound path => s!"The options file could not be found: {PathLike.display path}"
  | .config cause => cause.message
  | .createLinter cause => s!"Failed to create linter: {cause.message}"
  | .read path cause => s!"Failed to read '{PathLike.display path}': {cause.message}"
  | .lint path cause => s!"Failed to lint '{PathLike.display path}': {cause.message}"
  | .reportWrite path cause _ =>
    s!"Failed to write report '{PathLike.display path}': {cause.message}"

/-- The violations that count in a text, in their order. -/
def surviving (markers : Markers) (text : String) (vs : List Violation) : List Violation :=
  if vs.isEmpty then [] else (filterViolations (Section.scan markers text) vs).kept

def entryOf [PathLike π] (path : π) (v : Violation) : LogEntry :=
  { file := PathLike.display path, line := v.line, column := v.column, message := v.message }

/-- Findings with one more file and its violations. -/
def note [PathLike π] (path : π) (vs : List Violation) (f : Findings) : Findings :=
  vs.foldl (fun f v => f.add (PathLike.display path) v) (f.mention (PathLike.display path))

/-- Reads the options file of a task. Without one the options have their default values. -/
def loadOptions (host : Host σ π) (optionsFile : Option π) (s : σ) :
    Done σ (Except (Failure π) Options) π :=
  match optionsFile with
  | none => ⟨.ok {}, [], s⟩
  | some path =>
    if host.isFile s path then
      let (text, s) := host.read s path
      let options := match text with
        | .error cause => .error (.config (.io path cause))
        | .ok text => (Options.parse path text).mapError .config
      ⟨options, [.looked path true, .read path text], s⟩
    else ⟨.error (.optionsNotFound path), [.looked path false], s⟩

/-- Lints one file and adds what counts to the findings. -/
def lintFile [PathLike π] (host : Host σ π) (options : Options) (severity : Severity) (path : π)
    (f : Findings) (s : σ) : Done σ (Except (Failure π) Findings) π :=
  let (text, s) := host.read s path
  match text with
  | .error cause => ⟨.error (.read path cause), [.read path (.error cause)], s⟩
  | .ok text =>
    let isScript := SourceKind.isScript (SourceKind.ofPath path)
    let (answer, s) := host.lint s text options.lintOptions isScript
    let asked := [.read path (.ok text), .linted text options.lintOptions isScript answer]
    match answer with
    | .error cause => ⟨.error (.lint path cause), asked, s⟩
    | .ok vs =>
      let kept := surviving options.markers text vs
      ⟨.ok (note path kept f), asked ++ kept.map fun v => .logged severity (entryOf path v), s⟩

/-- Lints files one after the other. -/
def lintFiles [PathLike π] (host : Host σ π) (options : Options) (severity : Severity) :
    List π → Findings → σ → Done σ (Except (Failure π) Findings) π
  | [], f, s => ⟨.ok f, [], s⟩
  | path :: rest, f, s =>
    (lintFile host options severity path f s).andThen fun f s =>
      lintFiles host options severity rest f s

/-- Creates the linter, lints all files with it, and releases it. -/
def lintAll [PathLike π] (host : Host σ π) (options : Options) (severity : Severity)
    (sources : List π) (s : σ) : Done σ (Except (Failure π) Findings) π :=
  let (created, s) := host.create s
  match created with
  | .error cause => ⟨.error (.createLinter cause), [.created (.error cause)], s⟩
  | .ok _ =>
    let linted := (lintFiles host options severity sources .empty s).followedBy .released
    { linted with events := .created (.ok ()) :: linted.events }

/-- Writes the report, if there is to be one. -/
def writeReport (host : Host σ π) (target : Option (Report.Target π)) (now : Timestamp)
    (f : Findings) (outcome : Outcome) (s : σ) : Done σ (Except (Failure π) Outcome) π :=
  match target with
  | none => ⟨.ok outcome, [], s⟩
  | some target =>
    let path := target.destination
    let report := target.render f now
    let (written, s) := host.write s path report
    let result := match written with
      | .error cause => .error (.reportWrite path cause outcome)
      | .ok _ => .ok outcome
    ⟨result, [.wrote path report written], s⟩

/-- Whether violations are warnings: if the task or its options say so. -/
def asWarnings (task : Task π) (options : Options) : Bool :=
  task.warnings || options.output.warnings

def target [PathLike π] (task : Task π) (options : Options) : Option (Report.Target π) :=
  Report.Target.ofDestination
    (task.reportFile.or (options.output.reportFile.map PathLike.ofPath))

/-- The outcome of a run with some findings. -/
def outcomeOf (warnings : Bool) (f : Findings) : Outcome :=
  ⟨warnings || f.violationCount == 0, f.totals⟩

/-- What a run does before its report: it gives the options, and the findings to report. -/
def examine [PathLike π] (task : Task π) (host : Host σ π) (s : σ) :
    Done σ (Except (Failure π) (Options × Findings)) π :=
  (loadOptions host task.optionsFile s).andThen fun options s =>
    (lintAll host options (.ofRun (task.asWarnings options)) task.sources s).andThen fun f s =>
      ⟨.ok (options, f), [], s⟩

/-- Carries out a task. The time is that of the report. -/
def execute [PathLike π] (task : Task π) (host : Host σ π) (now : Timestamp) (s : σ) :
    Done σ (Except (Failure π) Outcome) π :=
  if task.sources.isEmpty then ⟨.ok ⟨true, {}⟩, [], s⟩
  else
    (task.examine host s).andThen fun (options, f) s =>
      writeReport host (task.target options) now f (outcomeOf (task.asWarnings options) f) s

/-- The steps of a task with files, one after the other. -/
theorem execute_eq_andThen [PathLike π] {task : Task π} (hsources : task.sources ≠ [])
    (host : Host σ π) (now : Timestamp) (s : σ) : task.execute host now s =
      (loadOptions host task.optionsFile s).andThen fun options s =>
        (lintAll host options (.ofRun (task.asWarnings options)) task.sources s).andThen fun f s =>
          writeReport host (task.target options) now f
            (outcomeOf (task.asWarnings options) f) s := by
  rw [execute, if_neg (by simpa using hsources), examine, Done.andThen_assoc]
  simp only [Done.andThen_assoc]
  rfl

end Task

end LintRun
