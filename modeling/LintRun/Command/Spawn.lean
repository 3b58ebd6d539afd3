import LintRun.Command.Programs
import LintRun.Linter.Child

/-! Starting the command of a linter and waiting for its end.

    What is proved of a linter leaves open how its command is started. This way of doing it, with
    the shells and tools that it needs, is there to run the library, and no result rests on it. -/

namespace LintRun.Command

/-- The directories in which programs are looked up. -/
def searched : List String := ["/bin/", "/usr/bin/"]

/-- The name of a program that is there under a path. -/
def nameAt (program : String) : String :=
  match searched.find? fun dir => dir.toList.isPrefixOf program.toList with
  | some dir => String.ofList (program.toList.drop dir.length)
  | none => program

/-- The program that a name or a path stands for, or why none can be started. -/
def find (t : FileTree) (program : String) : Except OsError Program :=
  if program.toList.contains '/' then
    match program? (nameAt program) with
    | some found => .ok found
    | none =>
      match t.stat ⟨program⟩ with
      | .error e => .error e
      | .ok _ => .error .permissionDenied
  else if FileTree.nameMax < program.utf8ByteSize then .error .nameTooLong
  else match program? program with
    | some found => .ok found
    | none => .error (if program = "." || program = ".." then .permissionDenied else .notFound)

/-- What a process is given that reads an input and has its output and its complaints taken. -/
def childProcess (name : String) (environment : List (String × Octets)) : Process where
  name
  descriptors := [(0, 0), (1, 1), (2, 2)]
  environment

/-- The machine of such a process at its start. -/
def childMachine (t : FileTree) (input : Octets) : Machine where
  tree := t
  ports := #[.source input, .sink [], .sink []]
  lastProcess := 2

/-- Runs a program to its end. -/
def runChild (t : FileTree) (name : String) (environment : List (String × Octets))
    (program : Program) (arguments : List Octets) (input : Octets) : Linter.Child × FileTree :=
  let (ending, m) := program.launch (childProcess name environment) arguments (childMachine t input)
  let status := match ending with
    | .exited n => some (n % 256)
    | .killed _ => none
  ({ status, stdout := Octets.toBytes (m.collected 1), stderr := Octets.toBytes (m.collected 2) },
    { m.tree with here := t.here })

/-- Whether a text cannot be handed to a command. -/
def hasNul (s : String) : Bool := s.toList.contains '\x00'

/-- The error of a text that cannot be handed to a command. -/
def nulError : OsError := .other "nul byte found in provided data"

/-- Starts the command of a call and waits for its end. -/
def spawn (t : FileTree) (call : Linter.Call) : Except OsError Linter.Child × FileTree :=
  let name := call.command.program
  if hasNul name || call.command.arguments.any hasNul then (.error nulError, t)
  else match find t name with
    | .error e => (.error e, t)
    | .ok program =>
      let environment := call.environment.map fun (key, value) => (key, Octets.ofString value)
      let arguments := call.command.arguments.map Octets.ofString
      let (child, t) := runChild t name environment program arguments (Octets.ofString call.input)
      (.ok child, t)

end LintRun.Command
