import LintRun.Findings
import LintRun.Report.Timestamp

/-! The report as plain text. -/

namespace LintRun.Report.Text

def violation (v : Violation) : String :=
  s!"    {v.message} (line {v.line} character {v.column})\n"

/-- The block of a file, which ends in an empty line. -/
def file (f : FileFindings) : String :=
  s!"{f.path} ({f.violations.length} violations)\n" ++ String.join (f.violations.map violation) ++
    "\n"

def header (title : String) (generated : Timestamp) (totals : Totals) : String :=
  s!"{title}\nGenerated {generated.text}\n\n{totals.processed} processed files\n" ++
    s!"{totals.violating} violating files\n{totals.violations} total violations\n\n"

end LintRun.Report.Text
