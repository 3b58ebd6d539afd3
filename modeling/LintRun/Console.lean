import LintRun.Findings
import LintRun.Log

/-! What a terminal shows of a run: a line for every log entry and one for the totals. -/

namespace LintRun.Console

/-- How a piece of text stands out. -/
inductive Style where
  | bold
  | green
  | boldRed
  | boldYellow
  deriving Repr, DecidableEq

def Style.code : Style → String
  | .bold => "1"
  | .green => "32"
  | .boldRed => "1;31"
  | .boldYellow => "1;33"

/-- A text in a style, or plain where there are no colours. -/
def paint (color : Bool) (style : Style) (text : String) : String :=
  if color then s!"\x1b[{style.code}m{text}\x1b[0m" else text

def styleOf : Severity → Style
  | .error => .boldRed
  | .warning => .boldYellow

/-- The line of a log entry: its place, its severity and its message. -/
def entry (color : Bool) (severity : Severity) (e : LogEntry) : String :=
  s!"{e.file}:{e.line}:{e.column}: " ++ paint color (styleOf severity) severity.name ++ ": " ++
    e.message

/-- The line of the totals. -/
def summary (color : Bool) (t : Totals) : String :=
  paint color (if t.violations > 0 then .bold else .green)
    (s!"{t.processed} processed files, {t.violating} violating files, " ++
      s!"{t.violations} total violations")

end LintRun.Console
