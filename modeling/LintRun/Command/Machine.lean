import LintRun.Command.Octets
import LintRun.Command.Signal
import LintRun.Files.Tree

/-! What processes share: the files, and what their descriptors lead to.

    One process runs at a time. One that reads what another writes is started when the other has
    ended, and finds all of it.

    No result rests on this module. -/

namespace LintRun.Command

/-- How a process ended. -/
inductive Ending where
  | exited (status : Nat)
  | killed (signal : Nat)
  deriving Repr, DecidableEq, Inhabited

/-- What a descriptor leads to: nothing, text that is still to be read, what was written so far
    (last piece first), or a place in a file. -/
inductive Port where
  | nothing
  | source (rest : Octets)
  | sink (pieces : List Octets)
  | file (place : Place) (offset : Nat) (appends : Bool)
  deriving Repr, DecidableEq, Inhabited

/-- The files, everything that was opened, the signals that were sent but not yet noticed, and the
    number of the process that was started last. -/
structure Machine where
  tree : FileTree
  ports : Array Port := #[]
  sent : List (Nat × Nat) := []
  lastProcess : Nat := 1
  deriving Inhabited

namespace Machine

def port (m : Machine) (i : Nat) : Port := (m.ports[i]?).getD .nothing

/-- The machine with another port of a number. -/
def setPort (m : Machine) (i : Nat) (p : Port) : Machine :=
  { m with ports := m.ports.setIfInBounds i p }

def opened (m : Machine) (p : Port) : Nat × Machine :=
  (m.ports.size, { m with ports := m.ports.push p })

/-- The contents of the file at a place. -/
def contentsAt (m : Machine) (p : Place) : Octets :=
  match m.tree.entry? p with
  | some (.file bytes) => Octets.ofBytes bytes
  | _ => []

/-- A text in which another one takes the place of what stands from an offset on. -/
def overwrite (s : Octets) (offset : Nat) (text : Octets) : Octets :=
  let before := s.take offset
  before ++ List.replicate (offset - before.length) '\x00' ++ text ++ s.drop (offset + text.length)

def write (m : Machine) (i : Nat) (text : Octets) : Machine :=
  if text = [] then m
  else match m.port i with
    | .nothing | .source _ => m
    | .sink pieces => m.setPort i (.sink (text :: pieces))
    | .file place offset appends =>
      let old := m.contentsAt place
      let start := if appends then old.length else offset
      let new := overwrite old start text
      let m := { m with tree := m.tree.set place (.file (Octets.toBytes new)) }
      m.setPort i (.file place (start + text.length) appends)

/-- What can still be read from a port. -/
def available (m : Machine) (i : Nat) : Octets :=
  match m.port i with
  | .source rest => rest
  | .file place offset _ => (m.contentsAt place).drop offset
  | _ => []

/-- Has only a rest of what can be read from a port still to be read. -/
def leave (m : Machine) (i : Nat) (rest : Octets) : Machine :=
  match m.port i with
  | .source _ => m.setPort i (.source rest)
  | .file place _ appends =>
    m.setPort i (.file place ((m.contentsAt place).length - rest.length) appends)
  | _ => m

/-- What was written to a port. -/
def collected (m : Machine) (i : Nat) : Octets :=
  match m.port i with
  | .sink pieces => pieces.reverse.flatten
  | _ => []

def send (m : Machine) (process signal : Nat) : Machine :=
  { m with sent := m.sent ++ [(process, signal)] }

/-- Takes the signals that were sent to a process. -/
def takeSignals (m : Machine) (process : Nat) : List Nat × Machine :=
  (m.sent.filterMap fun (p, n) => if p = process then some n else none,
    { m with sent := m.sent.filter (·.1 ≠ process) })

/-- The number of a new process. -/
def started (m : Machine) : Nat × Machine :=
  (m.lastProcess + 1, { m with lastProcess := m.lastProcess + 1 })

end Machine

/-- Descriptors with the ports that they lead to. -/
abbrev Descriptors := List (Nat × Nat)

/-- What a program is given besides its arguments: the name that it was called by, where its
    descriptors lead, its environment, its number, and that of its parent. -/
structure Process where
  name : String := ""
  descriptors : Descriptors
  environment : List (String × Octets)
  number : Nat := 2
  parent : Nat := 1
  deriving Repr, Inhabited

/-- A program: it runs with some arguments and leaves a machine. -/
abbrev Program := Process → List Octets → Machine → Ending × Machine

namespace Process

/-- The text that is still to be read from a descriptor. -/
def input (p : Process) (m : Machine) (fd : Nat := 0) : Octets :=
  match p.descriptors.lookup fd with
  | some i => m.available i
  | none => []

def inputIsFile (p : Process) (m : Machine) : Bool :=
  match (p.descriptors.lookup 0).map m.port with
  | some (.file ..) => true
  | _ => false

/-- Has only a rest of the input still to be read. -/
def leave (p : Process) (m : Machine) (rest : Octets) : Machine :=
  match p.descriptors.lookup 0 with
  | some i => m.leave i rest
  | none => m

def write (p : Process) (m : Machine) (fd : Nat) (text : Octets) : Machine :=
  match p.descriptors.lookup fd with
  | some i => m.write i text
  | none => m

end Process

/-- What a tool sees: the name it was called by, the files, its arguments, its input, and whether
    that is a file. -/
structure ToolCall where
  name : String
  tree : FileTree
  arguments : List Octets
  input : Octets
  inputIsFile : Bool := false
  deriving Inhabited

/-- What a tool leaves: its exit status, what it wrote to which descriptor, and the input that it did
    not read. -/
structure ToolResult where
  status : Nat := 0
  written : List (Nat × Octets) := []
  rest : Octets := []
  deriving Repr, DecidableEq, Inhabited

/-- Runs a program to its end. A signal that it was sent and that it has not seen to ends it too. -/
def Program.launch (program : Program) (p : Process) (arguments : List Octets) (m : Machine) :
    Ending × Machine :=
  let (ending, m) := program p arguments m
  let (signals, m) := m.takeSignals p.number
  match ending, signals.find? (!Signal.harmless.contains ·) with
  | .exited _, some n => (.killed n, m)
  | ending, _ => (ending, m)

def Program.ofTool (tool : ToolCall → ToolResult) : Program := fun p arguments m =>
  let r := tool ⟨p.name, m.tree, arguments, p.input m, p.inputIsFile m⟩
  let m := p.leave m r.rest
  (.exited r.status, r.written.foldl (fun m (fd, text) => p.write m fd text) m)

def complaint (tool : String) (text : String) : Octets := Octets.ofString s!"{tool}: {text}\n"

/-- The cause of an error without its number. -/
def causeOf (e : OsError) : String :=
  match e.message.splitOn " (os error" with
  | text :: _ => text
  | [] => ""

/-- The files that have no contents of their own. -/
def devices : List (String × Option Nat) :=
  [("/dev/null", none), ("/dev/stdin", some 0), ("/dev/stdout", some 1), ("/dev/stderr", some 2)]

/-- The contents of a file; a device gives the input or nothing. -/
def contents (t : FileTree) (input : Octets) (name : Octets) : Except OsError Octets :=
  let path : Path := ⟨Octets.toText name⟩
  match devices.lookup path.text with
  | some (some 0) => .ok input
  | some _ => .ok []
  | none => (t.readBytes path).map Octets.ofBytes

end LintRun.Command
