/-! The options file that a user starts with: each option with its default value. -/

namespace LintRun.Options

/-- The lines of the options file that a user starts with. -/
def templateLines : List String :=
  ["# jslint-task options",
    "",
    "[linter]",
    "# \"jslint\" or \"jshint\"",
    "variant = \"jslint\"",
    "# Command printing violations as JSON; defaults to \"jslint-json\" / \"jshint-json\"",
    "# command = [\"jslint-json\"]",
    "",
    "[linter.options]",
    "# Passed to the linter as JSON",
    "# browser = true",
    "# indent = 4",
    "",
    "[include]",
    "# File types picked up when a directory or glob is given",
    "js = true",
    "css = false",
    "html = false",
    "",
    "[ignore]",
    "# Violations between these markers are not reported",
    "start = \"/*ignore jslint start*/\"",
    "end = \"/*ignore jslint end*/\"",
    "",
    "[output]",
    "# Log violations as warnings and succeed even when some are found",
    "treat_violations_as_warnings = false",
    "# Write a report; \".htm\"/\".html\" produce HTML, anything else plain text",
    "# report_file = \"jslint-report.html\"",
    "",
    "[color]",
    "# \"auto\", \"always\", or \"never\"",
    "ui = \"auto\""]

/-- The options file that a user starts with. -/
def template : String := String.join (templateLines.map (· ++ "\n"))

end LintRun.Options
