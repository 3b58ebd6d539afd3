import LintRun.Text.Terminal

/-! What a command line may hold: options, operands and subcommands, and what a user reads of one
    that is wrong. -/

namespace LintRun.Cli

/-- A page of help: that of the program, of one of its subcommands, or of help itself. -/
inductive Page where
  | program
  | config
  | init
  | validate
  | help
  | configHelp
  deriving Repr, DecidableEq

/-- What an option does. -/
inductive OptionKind where
  | flag
  | value (name : String)
  | help
  | version
  deriving Repr, DecidableEq

/-- An option: its letter, if it has one, its name, and what it does. -/
structure OptionSpec where
  letter : Option Char := none
  name : String
  kind : OptionKind := .flag
  deriving Repr, DecidableEq

/-- An option as messages call it. -/
def OptionSpec.display (o : OptionSpec) : String :=
  match o.kind with
  | .value v => s!"--{o.name} <{v}>"
  | _ => s!"--{o.name}"

/-- What a command takes. Operands have a name if there may be any; some pairs of options exclude
    each other. -/
structure Grammar where
  page : Page
  options : List OptionSpec
  operand : Option String := none
  conflicts : List (String × String) := []
  subcommands : List (String × Page) := []
  deriving Repr

/-- The option that asks for help. -/
def helpOption : OptionSpec := { letter := some 'h', name := "help", kind := .help }

def optionsFileOption : OptionSpec :=
  { letter := some 'c', name := "options", kind := .value "FILE" }

/-- What the program takes. -/
def Grammar.program : Grammar where
  page := .program
  options :=
    [optionsFileOption,
      { letter := some 'r', name := "report", kind := .value "FILE" },
      { letter := some 'w', name := "warnings" },
      { name := "color" },
      { name := "no-color" },
      { letter := some 'v', name := "verbose" },
      helpOption,
      { letter := some 'V', name := "version", kind := .version }]
  operand := some "[FILE]..."
  conflicts := [("color", "no-color")]
  subcommands := [("config", .config), ("help", .help)]

/-- What the subcommand on options files takes. -/
def Grammar.config : Grammar where
  page := .config
  options := [helpOption]
  subcommands := [("init", .init), ("validate", .validate), ("help", .configHelp)]

/-- What the making of an options file takes. -/
def Grammar.init : Grammar where
  page := .init
  options :=
    [{ letter := some 'o', name := "output", kind := .value "OUTPUT" },
      { name := "force" },
      helpOption]

/-- What the checking of an options file takes. -/
def Grammar.validate : Grammar where
  page := .validate
  options := [{ letter := some 'c', name := "config", kind := .value "CONFIG" }, helpOption]

/-- The subcommands of the command that a page is about. -/
def Page.subcommands : Page → List (String × Page)
  | .program => Grammar.program.subcommands
  | .config => Grammar.config.subcommands
  | _ => []

/-- What is wrong with a command line. -/
inductive UsageError where
  | unexpectedArgument (text : String)
  | unknownSubcommand (name : String)
  | missingValue (argument : String)
  | repeated (argument : String)
  | conflict (argument other : String)
  | unexpectedValue (value argument : String)
  deriving Repr, DecidableEq

/-- What a user reads of a command line that is wrong. What the user gave is shown without the
    sequences that control a terminal. -/
def UsageError.message : UsageError → String
  | .unexpectedArgument text => s!"unexpected argument '{Text.Terminal.plain text}' found"
  | .unknownSubcommand name => s!"unrecognized subcommand '{Text.Terminal.plain name}'"
  | .missingValue argument => s!"a value is required for '{argument}' but none was supplied"
  | .repeated argument => s!"the argument '{argument}' cannot be used multiple times"
  | .conflict argument other => s!"the argument '{argument}' cannot be used with '{other}'"
  | .unexpectedValue value argument =>
    let value := Text.Terminal.plain value
    s!"unexpected value '{value}' for '{argument}' found; no more were expected"

/-- Why a command line is not carried out: it asks for help or the version, lacks a subcommand, or
    is wrong. -/
inductive Stop where
  | help (page : Page)
  | version
  | incomplete (page : Page)
  | usage (cause : UsageError)
  deriving Repr, DecidableEq

end LintRun.Cli
