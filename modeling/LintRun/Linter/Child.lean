import LintRun.Files.OsError
import LintRun.LintOptions
import LintRun.Text.Blank
import LintRun.Text.Utf8
import LintRun.Violation

/-! A linter that runs as a command of its own: what it is called with, and what its answer is.

    The command reads the source from its input and prints its violations as a JSON array. Its exit
    status only counts when the output is no such array, since most linters fail when they find
    something. -/

namespace LintRun

/-- Why a linter gave no answer. -/
inductive LinterError where
  | spawn (program : String) (cause : OsError)
  | exit (program : String) (status : Int) (stderr : String)
  | output (program : String)
  | io (cause : OsError)
  deriving Repr, DecidableEq

/-- The mark that stands for where and why an output is malformed. -/
def LinterError.mark : String := "<json>"

/-- What a user reads of a linter that gave no answer. -/
def LinterError.message : LinterError → String
  | .spawn program cause => s!"Failed to start linter '{program}': {cause.message}"
  | .exit program status stderr => s!"Linter '{program}' exited with status {status}: {stderr}"
  | .output program => s!"Failed to decode output of linter '{program}': {mark}"
  | .io cause => s!"Linter I/O error: {cause.message}"

namespace Linter

structure CommandLine where
  program : String
  arguments : List String
  deriving Repr, DecidableEq, Inhabited

/-- The command line of a list of words; there is none without words. -/
def CommandLine.ofWords? : List String → Option CommandLine
  | [] => none
  | program :: arguments => some ⟨program, arguments⟩

/-- The error of a command without words. -/
def emptyCommand : LinterError := .io (.other "linter command is empty")

structure Call where
  command : CommandLine
  environment : List (String × String)
  input : String
  deriving Repr, DecidableEq, Inhabited

/-- The environment that tells a command the lint options and the language of the source. -/
def environment (options : LintOptions) (isScript : Bool) : List (String × String) :=
  [("JSLINT_TASK_VARIANT", options.variant.name),
    ("JSLINT_TASK_OPTIONS", options.flagsJson),
    ("JSLINT_TASK_SOURCE_LANGUAGE", if isScript then "1" else "0")]

def call (command : CommandLine) (source : String) (options : LintOptions) (isScript : Bool) :
    Call :=
  ⟨command, environment options isScript, source⟩

/-- How the writing of the input ended. A child may end before it has read all. -/
inductive InputEnd where
  | whole
  | brokenPipe
  | failed (cause : OsError)
  deriving Repr, DecidableEq, Inhabited

/-- A child that has ended. One that a signal has killed has no exit status. -/
structure Child where
  input : InputEnd := .whole
  status : Option Int
  stdout : List UInt8
  stderr : List UInt8
  deriving Repr, DecidableEq, Inhabited

namespace Child

/-- The text of an output: malformed bytes are replaced, and blanks at both ends do not count. -/
def textOf (bytes : List UInt8) : String := Text.trim (Text.Utf8.lossy bytes)

def success (c : Child) : Bool := c.status == some 0

/-- The answer that a child gives on its output. No output of a child that ended well is an empty
    answer. -/
def violations (program : String) (c : Child) : Except LinterError (List Violation) :=
  let text := textOf c.stdout
  if text.isEmpty && c.success then .ok []
  else match Violation.readList text with
    | some vs => .ok vs
    | none =>
      if c.success then .error (.output program)
      else .error (.exit program (c.status.getD (-1)) (textOf c.stderr))

/-- The answer of a child, whose input must have reached it as far as it read. -/
def answer (program : String) (c : Child) : Except LinterError (List Violation) :=
  match c.input with
  | .failed cause => .error (.io cause)
  | _ => c.violations program

end Child

/-- The answer of a call: that of its child, if it could be started. -/
def answer (program : String) : Except OsError Child → Except LinterError (List Violation)
  | .error cause => .error (.spawn program cause)
  | .ok child => child.answer program

end Linter

end LintRun
