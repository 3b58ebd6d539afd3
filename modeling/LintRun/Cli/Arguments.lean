import LintRun.Cli.Usage

/-! Reading the arguments of a command line by the grammar of a command.

    Arguments are read from left to right. The value of an option and the operands in a row are held
    back until something else follows, and are checked then; so an argument that nobody knows is
    reported before what is wrong with the one before it. -/

namespace LintRun.Cli

/-- What is held back: an option whose value is known or still to come, or operands in a row. -/
inductive Pending where
  | option (spec : OptionSpec) (value : Option String)
  | operands (values : List String)
  deriving Repr, DecidableEq

/-- What has been read: options with their values in order, operands, and what is held back. -/
structure Arguments where
  options : List (OptionSpec × Option String) := []
  operands : List String := []
  pending : Option Pending := none
  deriving Repr, DecidableEq, Inhabited

/-- The outcome of reading arguments. -/
abbrev Parsed (α : Type) := Except Stop α

namespace Arguments

def has (a : Arguments) (name : String) : Bool := a.options.any (·.1.name = name)

def value? (a : Arguments) (name : String) : Option String :=
  (a.options.find? (·.1.name = name)).bind (·.2)

/-- Whether a subcommand may come next: no operand or value is being read. -/
def atStart (a : Arguments) : Bool :=
  match a.pending with
  | none | some (.option _ (some _)) => true
  | _ => false

/-- Records an option. Each may be given once, and a value must not be empty. -/
def record (g : Grammar) (a : Arguments) (o : OptionSpec) (value : Option String) :
    Parsed Arguments :=
  match o.kind with
  | .help => .error (.help g.page)
  | .version => .error .version
  | _ =>
    if a.has o.name then .error (.usage (.repeated o.display))
    else if value = some "" then .error (.usage (.missingValue o.display))
    else .ok { a with options := a.options ++ [(o, value)] }

/-- Checks and records what is held back. -/
def settle (g : Grammar) (a : Arguments) : Parsed Arguments :=
  let free := { a with pending := none }
  match a.pending with
  | none => .ok a
  | some (.option o none) => .error (.usage (.missingValue o.display))
  | some (.option o value) => free.record g o value
  | some (.operands values) =>
    if values.contains "" then .error (.usage (.missingValue (g.operand.getD "")))
    else .ok { free with operands := a.operands ++ values }

/-- Reads an option that takes a value, which may be attached to it. -/
def takeValue (g : Grammar) (a : Arguments) (o : OptionSpec) (attached : Option String) :
    Parsed Arguments := do
  let a ← a.settle g
  match attached with
  | some v => a.record g o (some v)
  | none => return { a with pending := some (.option o none) }

/-- Reads an option by its name, given what follows the two dashes. -/
def takeLong (g : Grammar) (a : Arguments) (text : List Char) : Parsed Arguments :=
  let name := text.takeWhile (· ≠ '=')
  let attached := ((text.drop name.length).tail?).map String.ofList
  match g.options.find? (·.name = String.ofList name) with
  | none => .error (.usage (.unexpectedArgument (String.ofList ('-' :: '-' :: name))))
  | some o =>
    match o.kind, attached with
    | .value _, attached => a.takeValue g o attached
    | _, some v => .error (.usage (.unexpectedValue v o.display))
    | _, none => do (← a.settle g).record g o none

/-- The value that is attached to a letter. -/
def attachedTo : List Char → Option String
  | [] => none
  | '=' :: v => some (String.ofList v)
  | v => some (String.ofList v)

/-- Reads options by their letters. One that takes a value takes the rest. -/
def takeLetters (g : Grammar) : Arguments → List Char → Parsed Arguments
  | a, [] => .ok a
  | a, c :: rest =>
    match g.options.find? (·.letter = some c) with
    | none => .error (.usage (.unexpectedArgument (String.ofList ['-', c])))
    | some o =>
      match o.kind with
      | .value _ => a.takeValue g o (attachedTo rest)
      | _ => do
        let a ← a.settle g
        takeLetters g (← a.record g o none) rest

/-- The error of an operand where none is taken. After `--` a subcommand is none any more. -/
def strayOperand (g : Grammar) (afterDashes : Bool) (text : String) : UsageError :=
  if g.subcommands.isEmpty || (afterDashes && (g.subcommands.lookup text).isSome) then
    .unexpectedArgument text
  else .unknownSubcommand text

/-- Reads an operand. -/
def takeOperand (g : Grammar) (afterDashes : Bool) (a : Arguments) (text : String) :
    Parsed Arguments :=
  if g.operand.isNone then .error (.usage (strayOperand g afterDashes text))
  else match a.pending with
    | some (.operands values) => .ok { a with pending := some (.operands (values ++ [text])) }
    | _ => do return { ← a.settle g with pending := some (.operands [text]) }

/-- Reads arguments to their end, or to a subcommand with what follows it. There what is held back
    stays so. -/
def read (g : Grammar) : Arguments → List String → Parsed (Arguments × Option (Page × List String))
  | a, [] => do return (← a.settle g, none)
  | a, text :: rest =>
    match if a.atStart then g.subcommands.lookup text else none with
    | some page => .ok (a, some (page, rest))
    | none =>
      match text.toList with
      | ['-', '-'] => do
        let a ← rest.foldlM (takeOperand g true) a
        return (← a.settle g, none)
      | '-' :: '-' :: long => do read g (← a.takeLong g long) rest
      | '-' :: c :: letters => do read g (← a.takeLetters g (c :: letters)) rest
      | _ =>
        match a.pending with
        | some (.option o none) => read g { a with pending := some (.option o (some text)) } rest
        | _ => do read g (← a.takeOperand g false text) rest

/-- The first option that another one excludes, and that one. -/
def conflict? (g : Grammar) (a : Arguments) : Option (OptionSpec × OptionSpec) :=
  a.options.findSome? fun (o, _) =>
    (a.options.find? fun (other, _) =>
      g.conflicts.contains (o.name, other.name) || g.conflicts.contains (other.name, o.name)).map
      fun (other, _) => (o, other)

/-- Arguments in which no two options exclude each other. -/
def consistent (g : Grammar) (a : Arguments) : Parsed Arguments :=
  match a.conflict? g with
  | some (o, other) => .error (.usage (.conflict o.display other.display))
  | none => .ok a

end Arguments

end LintRun.Cli
