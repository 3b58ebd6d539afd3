import LintRun.Command.Machine
import LintRun.Command.Shell.Script

/-! The state of a shell while it runs a script.

    Whatever a shell does is a step from one session to the next. A session that is no longer
    running is left as it is by all further steps, up to the place that the script resumes at.

    No result rests on this module. -/

namespace LintRun.Command.Shell

/-- What a shell is about to do: go on, leave or repeat some loops, return from a function, give up
    after an error, or end. -/
inductive Flow where
  | running
  | breaking (levels : Nat)
  | continuing (levels : Nat)
  | returning
  | failing
  | exiting
  | killed (signal : Nat)
  deriving Repr, DecidableEq, Inhabited

/-- What surrounds a command: whether its outcome is tested, and whether it is the last one that the
    shell runs. -/
structure Stance where
  tested : Bool := false
  last : Bool := false
  deriving Repr, DecidableEq

/-- A variable; one without a value only has its marks. -/
structure Variable where
  name : String
  value : Option Octets := none
  exported : Bool := false
  readOnly : Bool := false
  deriving Repr, DecidableEq, Inhabited

/-- The state of a shell. `zero` is what the shell is called by, `builtin` the command that it is
    doing itself, `root` the shell that it has branched off from, `substituted` the outcome of the
    last command whose output was taken, `frames` what the variables were before the functions that are
    running have changed them, and `known` the programs that were looked up before. -/
structure Session where
  machine : Machine
  descriptors : Descriptors
  vars : List Variable := []
  functions : List (String × Script) := []
  documents : List (Nat × Word) := []
  nextKey : Nat := 0
  arguments : List Octets := []
  zero : Octets := []
  status : Nat := 0
  substituted : Nat := 0
  line : Nat := 0
  builtin : Option Octets := none
  blocked : Bool := false
  flow : Flow := .running
  options : List Char := []
  traps : List (Nat × Octets) := []
  number : Nat := 2
  root : Nat := 2
  parent : Nat := 1
  loops : Nat := 0
  calls : Nat := 0
  frames : List (List (String × Option Variable)) := []
  children : List (Nat × Nat) := []
  lastChild : Option Nat := none
  optionOffset : Nat := 0
  known : List Octets := []
  aliases : List (Octets × Octets) := []
  deriving Inhabited

namespace Session

def isRunning (s : Session) : Bool := s.flow = .running

def hasOption (s : Session) (letter : Char) : Bool := s.options.contains letter

/-- Turns an option on or off. -/
def setOption (s : Session) (letter : Char) (on : Bool) : Session :=
  let others := s.options.filter (· ≠ letter)
  { s with options := if on then letter :: others else others }

def write (s : Session) (fd : Nat) (text : Octets) : Session :=
  match s.descriptors.lookup fd with
  | some i => { s with machine := s.machine.write i text }
  | none => s

/-- Whether what is written to a descriptor arrives. -/
def canWrite (s : Session) (fd : Nat) : Bool :=
  match (s.descriptors.lookup fd).map s.machine.port with
  | none | some (.source _) => false
  | some _ => true

def print (s : Session) (text : Octets) : Session :=
  if text = [] then s else if s.canWrite 1 then s.write 1 text else { s with blocked := true }

/-- Writes a line to the output. -/
def printLine (s : Session) (text : Octets) : Session := s.print (text ++ ['\n'])

/-- A message with the name of the shell, the line, and the command that the shell is doing. -/
def message (s : Session) (line : Nat) (text : Octets) : Octets :=
  let command := match s.builtin with
    | some name => name ++ [':', ' ']
    | none => []
  s.zero ++ Octets.ofString s!": {line}: " ++ command ++ text ++ ['\n']

def complain (s : Session) (text : Octets) : Session := s.write 2 (s.message s.line text)

def fail (s : Session) (text : Octets) : Session :=
  { s.complain text with status := 2, flow := .failing }

/-- Complains about something by its name and gives up. -/
def failAt (s : Session) (name : Octets) (text : String) : Session :=
  s.fail (name ++ Octets.ofString s!": {text}")

/-- Gives up because of a script that is malformed. -/
def failSyntax (s : Session) (line : Nat) (text : String) : Session :=
  { s.write 2 (s.message line (Octets.ofString s!"Syntax error: {text}")) with
    status := 2, flow := .failing }

def variableAt? (s : Session) (name : String) : Option Variable :=
  s.vars.find? (·.name = name)

def value? (s : Session) (name : String) : Option Octets := (s.variableAt? name).bind (·.value)

def putVariable (s : Session) (v : Variable) : Session :=
  let s := if v.name = "OPTIND" then { s with optionOffset := 0 } else s
  if (s.variableAt? v.name).isSome then
    { s with vars := s.vars.map fun w => if w.name = v.name then v else w }
  else { s with vars := s.vars ++ [v] }

def dropVariable (s : Session) (name : String) : Session :=
  { s with vars := s.vars.filter (·.name ≠ name) }

def restore (s : Session) (name : String) (old : Option Variable) : Session :=
  match old with
  | some v => s.putVariable v
  | none => s.dropVariable name

/-- Changes the variable of a name, which need not be there yet, unless it must not be changed. -/
def change (s : Session) (name : String) (f : Variable → Variable) : Session :=
  if !isName name.toList then s.failAt (Octets.ofString name) "bad variable name"
  else
    let v := (s.variableAt? name).getD { name }
    if v.readOnly && (f v).value ≠ v.value then s.failAt (Octets.ofString name) "is read only"
    else s.putVariable (f v)

def assign (s : Session) (name : String) (value : Octets) : Session :=
  let exported := s.hasOption 'a'
  if (s.variableAt? name).any (·.readOnly) then s.failAt (Octets.ofString name) "is read only"
  else s.change name fun v => { v with value := some value, exported := v.exported || exported }

/-- The variables that programs are given. -/
def environment (s : Session) : List (String × Octets) :=
  s.vars.filterMap fun v => if v.exported then v.value.map (v.name, ·) else none

def separators (s : Session) : Octets := (s.value? "IFS").getD [' ', '\t', '\n']

/-- The session of a process that branches off. -/
def branch (s : Session) : Session :=
  let (number, machine) := s.machine.started
  { s with machine, number, parent := s.number, children := []
           traps := s.traps.filter fun (_, action) => action = [] }

/-- The session once a process that has branched off has left some machine. -/
def rejoin (s : Session) (m : Machine) : Session :=
  { s with machine := { m with tree := { m.tree with here := s.machine.tree.here } } }

/-- The status that stands for an ending. -/
def statusOf : Ending → Nat
  | .exited n => n % 256
  | .killed n => 128 + n

/-- Takes note of how a process has ended that was waited for. -/
def noted (s : Session) (ending : Ending) : Session :=
  let text := match ending with
    | .killed n => if n = 2 || n = 13 then "" else Signal.epitaph n
    | .exited _ => ""
  let s := if text = "" then s else s.write 2 (Octets.ofString (text ++ "\n"))
  { s with status := statusOf ending }

/-- A session whose descriptor leads to a port. -/
def redirect (s : Session) (fd port : Nat) : Session :=
  { s with descriptors := (fd, port) :: s.descriptors.filter (·.1 ≠ fd) }

/-- A session whose descriptor leads nowhere. -/
def close (s : Session) (fd : Nat) : Session :=
  { s with descriptors := s.descriptors.filter (·.1 ≠ fd) }

/-- A session whose descriptor leads to something new. -/
def connect (s : Session) (fd : Nat) (p : Port) : Session :=
  let (i, machine) := s.machine.opened p
  { s with machine }.redirect fd i

/-- What can still be read from the input. -/
def input (s : Session) : Octets :=
  match s.descriptors.lookup 0 with
  | some i => s.machine.available i
  | none => []

/-- Has only a rest of the input still to be read. -/
def leaveInput (s : Session) (rest : Octets) : Session :=
  match s.descriptors.lookup 0 with
  | some i => { s with machine := s.machine.leave i rest }
  | none => s

end Session

/-- How the parts of a script and other programs are run. -/
structure Runner where
  script : Stance → Script → Session → Session
  program : String → Option Program

/-- What takes a number of steps at most that no script reaches. -/
def endless : Nat := 1000000000

end LintRun.Command.Shell
