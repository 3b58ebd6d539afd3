import LintRun.Cli.Arguments
import LintRun.Options.Locate

/-! What a command line asks for. -/

namespace LintRun.Cli

/-- A run of the linter. -/
structure LintRequest where
  inputs : List Path
  optionsFile : Option Path := none
  reportFile : Option Path := none
  warnings : Bool := false
  color : Option Bool := none
  verbose : Bool := false
  deriving Repr, DecidableEq, Inhabited

/-- What a command line asks for. -/
inductive Invocation where
  | lint (request : LintRequest)
  | init (output : Path) (force : Bool)
  | validate (path : Path)
  deriving Repr, DecidableEq

namespace Invocation

/-- The help that some names of subcommands ask for. -/
def helpOn : Page → List String → Stop
  | page, [] => .help page
  | page, name :: rest =>
    match page.subcommands.lookup name with
    | some page => helpOn page rest
    | none => .usage (.unknownSubcommand name)

/-- Reads what follows a subcommand on options files. -/
def ofConfig (arguments : List String) : Parsed Invocation := do
  match ← Arguments.read .config {} arguments with
  | (_, some (.init, rest)) =>
    let (a, _) ← Arguments.read .init {} rest
    return .init (((a.value? "output").map Path.mk).getD Options.fileName) (a.has "force")
  | (_, some (.validate, rest)) =>
    let (a, _) ← Arguments.read .validate {} rest
    return .validate (((a.value? "config").map Path.mk).getD Options.fileName)
  | (_, some (_, rest)) => .error (helpOn .config rest)
  | (_, none) => .error (.incomplete .config)

/-- The colours that flags ask for. -/
def colorOf (a : Arguments) : Option Bool :=
  if a.has "color" then some true else if a.has "no-color" then some false else none

/-- The run of the linter that some arguments ask for. -/
def lintRequest (a : Arguments) : LintRequest where
  inputs := a.operands.map Path.mk
  optionsFile := (a.value? "options").map Path.mk
  reportFile := (a.value? "report").map Path.mk
  warnings := a.has "warnings"
  color := colorOf a
  verbose := a.has "verbose"

/-- Reads a command line. What was held back before a subcommand is checked after it. -/
def ofArguments (arguments : List String) : Parsed Invocation := do
  match ← Arguments.read .program {} arguments with
  | (_, some (.help, rest)) => .error (helpOn .program rest)
  | (a, some (_, rest)) =>
    let invocation ← ofConfig rest
    let _ ← (← a.settle .program).consistent .program
    return invocation
  | (a, none) => return .lint (lintRequest (← a.consistent .program))

end Invocation

end LintRun.Cli
