import LintRun.Findings
import LintRun.Report.Escape
import LintRun.Report.Timestamp

/-! The report as a page of HTML. -/

namespace LintRun.Report.Html

def style : String :=
  "body \x7b font-family: sans-serif; margin: 2em; \x7d\n" ++
  "h2 \x7b font-size: 1.1em; border-bottom: 1px solid #ccc; \x7d\n" ++
  ".position \x7b color: #666; \x7d\n" ++
  "pre.evidence \x7b background: #f6f6f6; padding: 0.3em; margin: 0.2em 0 0.6em; \x7d"

def evidence : Option String → String
  | none => ""
  | some text => "<pre class=\"evidence\">" ++ escape text ++ "</pre>"

def violation (v : Violation) : String :=
  "<li><span class=\"message\">" ++ escape v.message ++ "</span> <span class=\"position\">" ++
    s!"(line {v.line} character {v.column})</span>" ++ evidence v.evidence ++ "</li>\n"

def file (f : FileFindings) : String :=
  "<div class=\"file\">\n<h2>" ++ escape f.path ++ s!" ({f.violations.length} violations)</h2>\n" ++
    "<ol>\n" ++ String.join (f.violations.map violation) ++ "</ol>\n</div>\n"

def header (title : String) (generated : Timestamp) (totals : Totals) : String :=
  "<!DOCTYPE html>\n<html>\n<head>\n<meta charset=\"utf-8\">\n" ++
    s!"<title>{title}</title>\n<style>\n{style}\n</style>\n</head>\n<body>\n<h1>{title}</h1>\n" ++
    "<p class=\"generated\">" ++ s!"Generated {generated.text}</p>\n" ++
    "<ul class=\"summary\">\n" ++ s!"<li>Processed files: {totals.processed}</li>\n" ++
    s!"<li>Violating files: {totals.violating}</li>\n" ++
    s!"<li>Total violations: {totals.violations}</li>\n</ul>\n"

def footer : String := "</body>\n</html>\n"

end LintRun.Report.Html
