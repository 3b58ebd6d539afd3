import LintRun.Command.Awk.Reader
import LintRun.Command.Awk.Run

/-! Starting a line filter: its options, where its program comes from, and what it finds in its
    environment. No result rests on this module. -/

namespace LintRun.Command.Awk

/-- What the arguments of a filter ask for. -/
structure Order where
  settings : List (String × Octets) := []
  files : List Octets := []
  operands : List Octets := []
  stops : Bool := false
  deriving Repr, DecidableEq, Inhabited

/-- The letters of options that take a value. -/
def valueLetters : List Char := ['F', 'W', 'f', 'v']

/-- The names after two dashes that change nothing here. -/
def idleNames : List String := ["compat", "dump", "exec", "interactive", "posix", "random", "sprintf"]

/-- The names after two dashes that only ask for help. -/
def helpNames : List String := ["help", "usage", "version"]

/-- What a name after two dashes asks for. -/
def named? (name : Octets) (o : Order) : Option Order :=
  let isOne := fun (names : List String) =>
    name ≠ [] && names.any fun n => name.isPrefixOf n.toList
  if isOne helpNames then some { o with stops := true }
  else if isOne idleNames then some o
  else none

/-- What an option with a value asks for. -/
def given (letter : Char) (value : Octets) (o : Order) : Except Octets Order :=
  if letter = 'F' then .ok { o with settings := o.settings ++ [("FS", value)] }
  else if letter = 'f' then .ok { o with files := o.files ++ [value] }
  else if letter = 'v' then
    match Act.setting? value with
    | some setting => .ok { o with settings := o.settings ++ [setting] }
    | none => .error (Octets.ofString "improper assignment: -v " ++ value)
  else match named? (value.takeWhile (· ≠ '=')) o with
    | some o => .ok o
    | none => .error (Octets.ofString "vacuous option: -W \"" ++ value ++ ['"'])

/-- Reads arguments. The first argument bounds their number. -/
def readArguments : Nat → List Octets → Order → Except Octets Order
  | 0, _, o => .ok o
  | _ + 1, [], o => .ok o
  | fuel + 1, argument :: rest, o =>
    match argument with
    | ['-', '-'] => .ok { o with operands := rest }
    | ['-'] => .ok { o with operands := rest }
    | '-' :: '-' :: name =>
      match named? (name.takeWhile (· ≠ '=')) o with
      | some o => readArguments fuel rest o
      | none => .error (Octets.ofString "not an option: " ++ argument)
    | ['-', letter] =>
      if valueLetters.contains letter then
        match rest with
        | value :: rest => do readArguments fuel rest (← given letter value o)
        | [] => .error (Octets.ofString s!"option -{letter} lacks argument")
      else .error (Octets.ofString "not an option: " ++ argument)
    | '-' :: letter :: value =>
      if valueLetters.contains letter then do readArguments fuel rest (← given letter value o)
      else .error (Octets.ofString "not an option: " ++ argument)
    | _ => .ok { o with operands := argument :: rest }

/-- The values of variables at the start. -/
def startValues : List (String × Cell) :=
  let form := Cell.text (Octets.ofString "%.6g")
  [("CONVFMT", form), ("FNR", .number 0), ("FS", .text [' ']), ("NR", .number 0), ("OFMT", form),
    ("OFS", .text [' ']), ("ORS", .text ['\n']), ("RS", .text ['\n']), ("SUBSEP", .text ['\x1c'])]

/-- The kinds of names at the start. -/
def startKinds : List (String × Kind) :=
  [("ARGV", .array), ("ENVIRON", .array), ("ARGC", .variable), ("FILENAME", .variable),
    ("RLENGTH", .variable), ("RSTART", .variable)] ++
    startValues.map fun (name, _) => (name, .variable)

namespace Act

/-- Sets the variables that are there at the start. -/
def begin_ (operands : List Octets) : Act Unit := do
  for (name, c) in startValues do setValue name c
  let s ← get
  let all := Octets.ofString s.process.name :: operands
  let arguments ← tableOf (.shared "ARGV")
  changeTable arguments fun t =>
    (all.zipIdx).foldl (fun t (a, i) => t.insert (.number i) (.input a)) t
  setValue "ARGC" (.number (Float.ofNat all.length))
  let environment ← tableOf (.shared "ENVIRON")
  changeTable environment fun t =>
    s.process.environment.foldl (fun t (name, value) =>
      t.insert (.text (Octets.ofString name)) (.input value)) t

def textsOf : List Octets → Act (List Origin)
  | [] => return []
  | name :: rest => do
    let s ← get
    let text ← match ← openIntake name with
      | .ok k => if k.isInput then pure (s.process.input s.machine) else pure k.buffer
      | .error e =>
        giveUp (Octets.ofString "cannot open \"" ++ name ++ Octets.ofString s!"\" ({causeOf e})")
    return { file := some name, text } :: (← textsOf rest)

/-- The texts that make up the program, and the operands behind it. -/
def origins (o : Order) : Act (Option (List Origin) × List Octets) := do
  match o.files, o.operands with
  | [], [] => return (none, [])
  | [], text :: operands => return (some [{ text := text ++ ['\n'] }], operands)
  | files, operands => return (some (← textsOf files), operands)

/-- Does what the arguments of the process ask for. -/
def start (arguments : List Octets) : Act Unit := do
  match readArguments (arguments.length + 1) arguments {} with
  | .error text => giveUp text
  | .ok o =>
    if o.stops then return
    match ← origins o with
    | (none, _) => return
    | (some texts, operands) =>
      begin_ operands
      for (name, value) in o.settings do assignShared name (.input (unescaped value))
      let kinds := startKinds ++ o.settings.map fun (name, _) => (name, Kind.variable)
      match Script.read kinds texts with
      | .error complaints =>
        for text in complaints do complain text
        modify fun s => { s with status := 2 }
      | .ok script =>
        let functions := script.functions.map fun d => (d.name, d)
        modify fun s => { s with functions := .ofList functions }
        runRules script.rules

/-- Does what the arguments of the process ask for, and closes everything behind it. -/
def startAndEnd (arguments : List Octets) : Act Unit := do
  tryCatch (start arguments) fun _ => return
  closeAll

end Act

/-- The line filter as a program; commands are run by a shell. -/
def program (shell : LintRun.Command.Program) : LintRun.Command.Program := fun process arguments m =>
  match (Act.startAndEnd arguments).run { machine := m, process, shell } with
  | .ok _ s | .error _ s => (.exited s.status, s.machine)

end LintRun.Command.Awk
