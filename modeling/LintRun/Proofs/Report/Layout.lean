import LintRun.Report.Basic
import Mathlib.Algebra.GroupWithZero.Nat

/-! The layout of a report: counts above, then a block for each file with violations, each with the
    number of its violations and their lines. `render_eq_page` says that a report on findings is
    laid out like this, whatever its format, and which counts stand where. -/

namespace LintRun

namespace Report.Format

/-- The line of a violation. -/
def item : Format → Violation → String
  | .text => Text.violation
  | .html => Html.violation

/-- The block of a file, with a count and lines. -/
def block (format : Format) (path : String) (count : Nat) (items : List String) : String :=
  match format with
  | .text => s!"{path} ({count} violations)\n" ++ String.join items ++ "\n"
  | .html =>
    "<div class=\"file\">\n<h2>" ++ escape path ++ s!" ({count} violations)</h2>\n" ++
      "<ol>\n" ++ String.join items ++ "</ol>\n</div>\n"

open Html (style) in
/-- A report with three counts above its blocks. -/
def page (format : Format) (generated : Timestamp) (totals : Totals) (blocks : List String) :
    String :=
  match format with
  | .text =>
    s!"{title}\nGenerated {generated.text}\n\n{totals.processed} processed files\n" ++
      s!"{totals.violating} violating files\n{totals.violations} total violations\n\n" ++
      String.join blocks
  | .html =>
    "<!DOCTYPE html>\n<html>\n<head>\n<meta charset=\"utf-8\">\n" ++
      s!"<title>{title}</title>\n<style>\n{style}\n</style>\n</head>\n<body>\n<h1>{title}</h1>\n" ++
      "<p class=\"generated\">" ++ s!"Generated {generated.text}</p>\n" ++
      "<ul class=\"summary\">\n" ++ s!"<li>Processed files: {totals.processed}</li>\n" ++
      s!"<li>Violating files: {totals.violating}</li>\n" ++
      s!"<li>Total violations: {totals.violations}</li>\n</ul>\n" ++ String.join blocks ++
      "</body>\n</html>\n"

/-- A report has the totals of its findings above, and in each block the number of its lines. -/
theorem render_eq_page (format : Format) (f : Findings) (generated : Timestamp) :
    format.render f generated = format.page generated f.totals (f.violating.map fun r =>
      format.block r.path r.violations.length (r.violations.map format.item)) := by
  cases format <;> rfl

end Report.Format

namespace Findings

/-- Files without violations do not add to the number of violations. -/
theorem violationCount_eq_sum (f : Findings) :
    f.violationCount = (f.violating.map (·.violations.length)).sum := by
  rw [violationCount, violating, List.length_flatMap]
  induction f.files with
  | nil => rfl
  | cons r files ih =>
    by_cases hr : r.violations = [] <;> simp [hr, ih]

/-- Files without violations count as processed, and for nothing else. -/
theorem processedCount_eq_add (f : Findings) :
    f.processedCount = f.violating.length + f.files.countP (·.violations.isEmpty) := by
  have hlength := List.length_eq_countP_add_countP (fun r : FileFindings => r.violations.isEmpty)
    (l := f.files)
  simp only [decide_not, Bool.decide_eq_true] at hlength
  rw [processedCount, violating, ← List.countP_eq_length_filter, hlength, Nat.add_comm]

end Findings

/-- A report depends on the number of processed files and on the records with violations. -/
theorem Report.Format.render_congr (format : Format) {f g : Findings} (generated : Timestamp)
    (hprocessed : f.processedCount = g.processedCount) (hviolating : f.violating = g.violating) :
    format.render f generated = format.render g generated := by
  have htotals : f.totals = g.totals := by
    simp only [Findings.totals, Findings.violatingCount, Findings.violationCount_eq_sum,
      hprocessed, hviolating]
  rw [render_eq_page, render_eq_page, htotals, hviolating]

end LintRun
