import LintRun.Command.Shell.Run

/-! Starting a shell: its options, where its script comes from, and what it finds in its
    environment. No result rests on this module. -/

namespace LintRun.Command.Shell

/-- Where the script of a shell comes from: an argument, and the input behind it if that is asked for
    too, a file, or the input. -/
inductive Origin where
  | argument (script : Octets) (thenInput : Bool)
  | file (name : Octets)
  | input
  deriving Repr, DecidableEq

/-- What the arguments of a shell ask for, besides its options. -/
structure Order where
  origin : Origin
  zero : Octets
  arguments : List Octets
  deriving Repr, DecidableEq

/-- Sets the options of an argument; the flag tells whether the script is an argument. -/
def startLetters (on : Bool) :
    Octets → List Octets → Bool → Session → List Octets × Bool × Session
  | [], rest, isGiven, s => (rest, isGiven, s)
  | 'c' :: letters, rest, _, s => startLetters on letters rest true s
  | 'l' :: letters, rest, isGiven, s => startLetters on letters rest isGiven s
  | 'o' :: letters, rest, isGiven, s =>
    let s := Builtin.setNamed on rest.head? s
    if s.isRunning then startLetters on letters (rest.drop 1) isGiven s else (rest, isGiven, s)
  | c :: letters, rest, isGiven, s =>
    let s := Builtin.setLetter on c s
    if s.isRunning then startLetters on letters rest isGiven s else (rest, isGiven, s)

/-- Sets the options that some arguments begin with. The first argument bounds their number. -/
def startOptions : Nat → List Octets → Bool → Session → List Octets × Bool × Session
  | 0, rest, isGiven, s => (rest, isGiven, s)
  | fuel + 1, arguments, isGiven, s =>
    if !s.isRunning then (arguments, isGiven, s)
    else match arguments with
      | ['-'] :: rest | ['-', '-'] :: rest => (rest, isGiven, s)
      | ('-' :: letters) :: rest =>
        let (rest, isGiven, s) := startLetters true letters rest isGiven s
        startOptions fuel rest isGiven s
      | ('+' :: letters) :: rest =>
        let (rest, isGiven, s) := startLetters false letters rest isGiven s
        startOptions fuel rest isGiven s
      | rest => (rest, isGiven, s)

/-- What the arguments behind the options ask for. -/
def orderOf (isGiven : Bool) (rest : List Octets) (s : Session) : Option Order :=
  let readsInput := s.hasOption 's'
  match isGiven, rest with
  | true, [] => none
  | true, script :: zero :: arguments => some ⟨.argument script readsInput, zero, arguments⟩
  | true, [script] => some ⟨.argument script readsInput, s.zero, []⟩
  | false, [] => some ⟨.input, s.zero, []⟩
  | false, name :: arguments =>
    if readsInput then some ⟨.input, s.zero, name :: arguments⟩
    else some ⟨.file name, name, arguments⟩

/-- The directories in which programs are looked up unless the environment tells. -/
def usualPath : String :=
  "/usr/local/sbin:/usr/local/bin:/usr/sbin:/usr/bin:/sbin:/bin"

def startVariables (p : Process) (m : Machine) : List Variable :=
  let given := p.environment.filter fun (name, _) => isName name.toList
  let inherited := given.map fun (name, value) =>
    let value := if name = "IFS" then [' ', '\t', '\n'] else value
    ({ name, value := some value, exported := true } : Variable)
  let own : List Variable :=
    [{ name := "IFS", value := some [' ', '\t', '\n'] },
      { name := "PATH", value := some usualPath.toList },
      { name := "PS1", value := some ['#', ' '] },
      { name := "PS2", value := some ['>', ' '] },
      { name := "PS4", value := some ['+', ' '] }]
  let fixed : List Variable :=
    [{ name := "OPTIND", value := some ['1'] },
      { name := "PPID", value := some (toString p.parent).toList },
      { name := "PWD", value := some (Builtin.pathOf m.tree.here), exported := true }]
  let isNew := fun (v : Variable) => !given.any fun (name, _) => name = v.name
  let kept := inherited.filter fun v => !fixed.any fun w => w.name = v.name
  kept ++ own.filter isNew ++ fixed

def Session.begin (p : Process) (m : Machine) : Session :=
  { machine := m, descriptors := p.descriptors, vars := startVariables p m
    zero := Octets.ofString p.name, number := p.number, root := p.number, parent := p.parent }

/-- Runs the script that is given as the input, all of which is taken. -/
def runInput (r : Runner) (s : Session) : Session :=
  runText r {} s.input (s.leaveInput [])

/-- Runs the script that was asked for. -/
def runOrder (r : Runner) (order : Order) (s : Session) : Session :=
  let s := { s with zero := order.zero, arguments := order.arguments }
  match order.origin with
  | .argument script thenInput =>
    let s := runText r {} script s
    if thenInput && s.isRunning then runInput r s else s
  | .input => runInput r s
  | .file name =>
    match contents s.machine.tree s.input name with
    | .ok text => runText r {} text s
    | .error e => { s with zero := Octets.ofString "sh" }.fail (openFailure true name e)

def program (r : Runner) : Program := fun p arguments m =>
  let start := Session.begin p m
  let (rest, isGiven, s) := startOptions (arguments.length + 1) arguments false start
  let s := if s.isRunning then
      match orderOf isGiven rest s with
      | some order => runOrder r order s
      | none => s.fail (Octets.ofString "-c requires an argument")
    else s
  let (ending, s) := conclude r s
  (ending, s.machine)

end LintRun.Command.Shell
