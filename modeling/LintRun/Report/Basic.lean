import LintRun.Path.Basic
import LintRun.Report.Html
import LintRun.Report.Text
import LintRun.Variant

/-! Reports: the formats, how a destination chooses one, and how findings are rendered.

    A report lists the files that have violations; of the others it only gives the number. -/

namespace LintRun.Report

def title : String := "JSLint Report"

inductive Format where
  | text
  | html
  deriving Repr, DecidableEq, Inhabited

namespace Format

/-- The format of a report at a destination: a page if its extension says so, in either case, and
    plain text otherwise. At an empty destination there is no report. -/
def ofDestination {π : Type} [PathLike π] (destination : π) : Option Format :=
  if PathLike.isEmpty destination then none
  else match (PathLike.extension? destination).map asciiLower with
    | some "htm" | some "html" => some .html
    | _ => some .text

def render (format : Format) (findings : Findings) (generated : Timestamp) : String :=
  match format with
  | .text =>
    Text.header title generated findings.totals ++ String.join (findings.violating.map Text.file)
  | .html =>
    Html.header title generated findings.totals ++ String.join (findings.violating.map Html.file) ++
      Html.footer

end Format

/-- Where a report goes, and in which format. -/
structure Target (π : Type := Path) where
  format : Format
  destination : π
  deriving Repr, DecidableEq, Inhabited

/-- The target of a destination that may be missing or empty. -/
def Target.ofDestination {π : Type} [PathLike π] (destination : Option π) : Option (Target π) := do
  let destination ← destination
  return ⟨← Format.ofDestination destination, destination⟩

/-- The text that is written to a target. -/
def Target.render {π : Type} (t : Target π) (findings : Findings) (generated : Timestamp) :
    String :=
  t.format.render findings generated

end LintRun.Report
