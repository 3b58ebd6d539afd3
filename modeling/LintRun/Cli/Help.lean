import LintRun.Cli.Usage

/-! The pages of help. -/

namespace LintRun.Cli

/-- The name and number of the program. -/
def version : String := "jslint-task 0.4.0"

def Page.lines : Page → List String
  | .program =>
    ["Lint JavaScript files with JSLint or JSHint",
      "",
      "Usage: jslint-task [OPTIONS] [FILE]... [COMMAND]",
      "",
      "Commands:",
      "  config  Options file management",
      "  help    Print this message or the help of the given subcommand(s)",
      "",
      "Arguments:",
      "  [FILE]...  Files, directories or glob patterns to lint",
      "",
      "Options:",
      "  -c, --options <FILE>  Path to options file (defaults to the nearest .jslint-task.toml)",
      "  -r, --report <FILE>   Write a report to this file (.html/.htm for HTML, anything else " ++
        "for text)",
      "  -w, --warnings        Report violations as warnings and exit successfully",
      "      --color           Force colored output",
      "      --no-color        Disable colored output",
      "  -v, --verbose         Show verbose output",
      "  -h, --help            Print help",
      "  -V, --version         Print version"]
  | .config =>
    ["Options file management",
      "",
      "Usage: jslint-task config <COMMAND>",
      "",
      "Commands:",
      "  init      Generate a default .jslint-task.toml options file",
      "  validate  Validate an options file for unknown fields and bad values",
      "  help      Print this message or the help of the given subcommand(s)",
      "",
      "Options:",
      "  -h, --help  Print help"]
  | .init =>
    ["Generate a default .jslint-task.toml options file",
      "",
      "Usage: jslint-task config init [OPTIONS]",
      "",
      "Options:",
      "  -o, --output <OUTPUT>  Output path for the options file [default: .jslint-task.toml]",
      "      --force            Overwrite existing file",
      "  -h, --help             Print help"]
  | .validate =>
    ["Validate an options file for unknown fields and bad values",
      "",
      "Usage: jslint-task config validate [OPTIONS]",
      "",
      "Options:",
      "  -c, --config <CONFIG>  Path to the options file to validate [default: .jslint-task.toml]",
      "  -h, --help             Print help"]
  | .help => onHelp "jslint-task help"
  | .configHelp => onHelp "jslint-task config help"
where
  /-- The lines of a page on help itself. -/
  onHelp (command : String) : List String :=
    ["Print this message or the help of the given subcommand(s)",
      "",
      s!"Usage: {command} [COMMAND]...",
      "",
      "Arguments:",
      "  [COMMAND]...  Print help for the subcommand(s)"]

def Page.text (page : Page) : String := String.join (page.lines.map (· ++ "\n"))

end LintRun.Cli
