import LintRun.Command.Shell.Lookup
import LintRun.Command.Shell.Redirection

/-! Running the parts of a script.

    The parts of a part are run by the runner that is given, so each step here only says what one
    form of a script does.

    No result rests on this module. -/

namespace LintRun.Command.Shell

/-- The words of a command as fields. Arguments that are spelled as assignments are no patterns and
    are not split where the command takes them as such. -/
def commandFields (r : Runner) : List Word → List Octets → Session → List Octets × Session
  | [], done, s => (done, s)
  | word :: rest, done, s =>
    let (fields, s) := match if takesAssignments s done then word.assignment? else none with
      | some (name, value) =>
        let (field, s) := assignmentField r name value s
        ([field], s)
      | none => wordFields r word s
    if s.isRunning then commandFields r rest (done ++ fields) s else (done, s)

/-- Ends the shell as the program that has taken its place ends. -/
def endAs (ending : Ending) (s : Session) : Session :=
  match ending with
  | .exited n => { s with status := n % 256, traps := [], flow := .exiting }
  | .killed n => { s with flow := .killed n }

/-- Runs a program and waits for its end, or has it take the place of the shell. -/
def launch (program : Program) (name : Octets) (arguments : List Octets) (inPlace : Bool)
    (s : Session) : Session :=
  let (number, machine) := if inPlace then (s.number, s.machine) else s.machine.started
  let p : Process :=
    { name := Octets.toText name, descriptors := s.descriptors, environment := s.environment
      number, parent := if inPlace then s.parent else s.number }
  let (ending, machine) := program.launch p arguments machine
  let s := s.rejoin machine
  if inPlace then endAs ending s else s.noted ending

/-- The program that a name stands for, or the status and the reason why it cannot be run. -/
def findProgram (r : Runner) (name : Octets) (s : Session) : Except (Nat × String) Program :=
  let text := Octets.toText name
  if name.contains '/' then
    match (programName? text).bind r.program with
    | some program => .ok program
    | none =>
      match s.machine.tree.stat ⟨text⟩ with
      | .ok _ => .error (126, "Permission denied")
      | .error .notFound | .error .notADirectory => .error (127, "not found")
      | .error e => .error (126, causeOf e)
  else if name = [] then .error (127, "Permission denied")
  else match s.pathOf? r text, r.program text with
    | some _, some program => .ok program
    | _, _ => .error (127, "not found")

/-- Runs the program of a name. -/
def runProgram (r : Runner) (inPlace : Bool) (words : List Octets) (s : Session) : Session :=
  let name := words.headD []
  match findProgram r name s with
  | .ok program => launch program name (words.drop 1) inPlace { s with known := name :: s.known }
  | .error (status, reason) =>
    { s.complain (name ++ Octets.ofString s!": {reason}") with status }

/-- Has a program take the place of the shell, which ends in any case if one is named. -/
def exec (r : Runner) : Builtin := fun arguments s =>
  match arguments with
  | [] => { s with status := 0 }
  | name :: _ =>
    match findProgram r name s with
    | .ok program => launch program name (arguments.drop 1) true s
    | .error (status, reason) =>
      let status := if name = [] then 126 else status
      { s.complain (name ++ Octets.ofString s!": {reason}") with
        status, traps := [], flow := .exiting }

/-- Runs a script in the shell itself. -/
def source (r : Runner) (tested : Bool) : Builtin := fun arguments s =>
  match arguments with
  | [] => { s with status := 0 }
  | name :: _ =>
    if !name.contains '/' then s.failAt name "not found"
    else match contents s.machine.tree s.input name with
      | .error e => s.fail (openFailure true name e)
      | .ok text =>
        let after := runText r { tested } text { s with builtin := some name }
        if after.flow = .returning then { after with flow := .running } else after

/-- Tells what a name stands for, if it is asked to. -/
def command (r : Runner) : Builtin := fun arguments s =>
  Builtin.withOptions [('p', false), ('v', false), ('V', false)] arguments s fun given rest =>
    match rest with
    | [] => { s with status := 0 }
    | word :: _ => describeCommand r (given.getLast?.any (·.1 = 'V')) word { s with status := 0 }

/-- The command of a name that the shell does itself. -/
def builtinOf (r : Runner) (stance : Stance) (name : String) : Builtin :=
  match name with
  | "." => source r stance.tested
  | "command" => command r
  | "eval" => fun arguments s =>
    runText r { tested := stance.tested } ([' '].intercalate arguments) s
  | "exec" => exec r
  | "hash" => hash r
  | "type" => typeOf r
  | name => (builtins.lookup name).getD (Builtin.outcome 0)

/-- Does a command that the shell does itself. Its errors end the shell if it is a special one. -/
def runBuiltin (r : Runner) (stance : Stance) (call : Call) (s : Session) : Session :=
  let name := call.words.headD []
  let arguments := call.words.drop 1
  let after := builtinOf r stance (Octets.toText name) arguments
    { s with builtin := some name, blocked := false }
  let after := if after.blocked then
      { after.complain (name ++ Octets.ofString ": I/O error") with status := 1, blocked := false }
    else after
  let flow := if after.flow = .failing && !call.special then .running else after.flow
  { after with flow, builtin := s.builtin }

/-- How often functions may call functions. -/
def callMax : Nat := 1000

def runFunction (r : Runner) (stance : Stance) (body : Script) (words : List Octets) (s : Session) :
    Session :=
  if callMax ≤ s.calls then
    s.fail (Octets.ofString s!"Maximum function recursion depth ({callMax}) reached")
  else
    let after := r.script { tested := stance.tested } body
      { s with arguments := words.drop 1, loops := 0, calls := s.calls + 1, frames := [] :: s.frames
               optionOffset := 0 }
    let saved := after.frames.headD []
    let after := saved.foldl (fun s (name, old) => s.restore name old) after
    { after with
      arguments := s.arguments, loops := s.loops, calls := s.calls, frames := s.frames
      optionOffset := s.optionOffset
      flow := if after.flow = .returning then .running else after.flow }

/-- Calls what the words of a command stand for. -/
def runCall (r : Runner) (stance : Stance) (call : Call) (s : Session) : Session :=
  match call.words with
  | [] => { s with status := s.substituted }
  | name :: _ =>
    let text := Octets.toText name
    match if call.direct then none else s.functions.lookup text with
    | some body => runFunction r stance body call.words s
    | none =>
      if isBuiltin text then runBuiltin r stance call s
      else runProgram r (stance.last && s.traps.isEmpty) call.words s

/-- Assigns the variables that a command begins with; what they were before is added to `saved` if
    they are the command's own. -/
def assignAll (r : Runner) (isOwn exported : Bool) :
    List (String × Word) → List (String × Option Variable) → Session →
      List (String × Octets) × List (String × Option Variable) × Session
  | [], saved, s => ([], saved, s)
  | (name, word) :: rest, saved, s =>
    let (value, s) := wordText r .colons word s
    if !s.isRunning then ([], saved, s)
    else
      let saved := if isOwn then (name, s.variableAt? name) :: saved else saved
      let s := s.assign name value
      let s := if (isOwn || exported) && s.isRunning then
          s.change name fun v => { v with exported := true }
        else s
      if !s.isRunning then ([], saved, s)
      else
        let (more, saved, s) := assignAll r isOwn exported rest saved s
        ((name, value) :: more, saved, s)

/-- Writes a command to where errors went before, if the shell is asked to. -/
def trace (assigned : List (String × Octets)) (words : List Octets) (descriptors : Descriptors)
    (s : Session) : Session :=
  if s.hasOption 'x' then
    let start := (s.value? "PS4").getD []
    let shown := assigned.map fun (name, value) => Octets.ofString name ++ '=' :: value
    let text := start ++ [' '].intercalate (shown ++ words) ++ ['\n']
    { { s with descriptors }.write 2 text with descriptors := s.descriptors }
  else s

/-- Gives up on a command whose descriptors lead nowhere. -/
def failRedirects (special : Bool) (descriptors : Descriptors) (s : Session) : Session :=
  { s with status := 2, descriptors, flow := if special then .failing else .running }

/-- Runs a command once its words are known. -/
def runWords (r : Runner) (stance : Stance) (assignments : List (String × Word))
    (targets : List Target) (words : List Octets) (s : Session) : Session :=
  let descriptors := s.descriptors
  let call := Call.ofWords s words
  let s := s.connectAll targets
  if !s.isRunning then failRedirects call.special descriptors s
  else
    let isOwn := words ≠ [] && !call.special
    let exported := call.replaces && 1 < call.words.length
    let (assigned, saved, s) := assignAll r isOwn exported assignments [] s
    if !s.isRunning then { s with descriptors }
    else
      let s := runCall r stance call (trace assigned words descriptors s)
      let s := saved.foldl (fun s (name, old) => s.restore name old) s
      if call.replaces then s else { s with descriptors }

/-- Runs a simple command: its words are given their values, then the targets of its redirections,
    then the descriptors lead there, and last its variables are assigned. -/
def runSimple (r : Runner) (stance : Stance) (line : Nat) (assignments : List (String × Word))
    (words : List Word) (redirects : List Redirect) (s : Session) : Session :=
  let (fields, s) := commandFields r words [] { s with line, substituted := 0 }
  if !s.isRunning then s
  else
    let (targets, s) := targetsOf r redirects s
    if !s.isRunning then s else runWords r stance assignments targets fields s

/-- Runs a script with other descriptors. -/
def runRedirected (r : Runner) (stance : Stance) (body : Script) (redirects : List Redirect)
    (s : Session) : Session :=
  let (targets, s) := targetsOf r redirects s
  if !s.isRunning then s
  else
    let after := s.connectAll targets
    if !after.isRunning then failRedirects false s.descriptors after
    else { r.script { tested := stance.tested } body after with descriptors := s.descriptors }

/-- Runs a script in a process that branches off, or in the shell itself if that does nothing
    else. -/
def runSubshell (r : Runner) (stance : Stance) (body : Script) (redirects : List Redirect)
    (s : Session) : Session :=
  let (targets, s) := targetsOf r redirects s
  if !s.isRunning then s
  else
    let work := fun (s : Session) =>
      let s := s.connectAll targets
      if s.isRunning then r.script { stance with last := true } body s else s
    if stance.last && s.traps.isEmpty then
      let after := work s
      match after.flow with
      | .killed _ | .failing => after
      | _ => { after with flow := .exiting }
    else
      let (ending, s) := inBranch r work s
      s.noted ending

/-- Runs a script in a process of its own without waiting for it. It has ended before the script
    goes on, and nothing is said about how. -/
def runBackground (r : Runner) (body : Script) (s : Session) : Session :=
  let number := s.machine.lastProcess + 1
  let work := fun (s : Session) => r.script { last := true } body (s.connect 0 (.source []))
  let (ending, s) := inBranch r work s
  { s with children := (number, Session.statusOf ending) :: s.children, lastChild := some number
           status := 0 }

/-- Runs scripts in processes of their own, each of which reads what the one before has written, and
    tells how they have ended. -/
def runPipeline (r : Runner) (stance : Stance) :
    Option Octets → List Script → Session → List Ending × Session
  | _, [], s => ([], s)
  | input, part :: rest, s =>
    let (port, machine) := s.machine.opened (.sink [])
    let work := fun (s : Session) =>
      let s := match input with
        | some text => s.connect 0 (.source text)
        | none => s
      let s := if rest.isEmpty then s else s.redirect 1 port
      r.script { stance with last := true } part s
    let (ending, s) := inBranch r work { s with machine }
    let text := s.machine.collected port
    let s := { s with machine := s.machine.setPort port .nothing }
    let (endings, s) := runPipeline r stance (some text) rest s
    (ending :: endings, s)

/-- What happens at a loop after a part of it: it goes on, is repeated, or ends. -/
inductive Turn where
  | onward
  | again
  | over
  deriving Repr, DecidableEq

/-- Whether a loop goes on after a part of it, and the session behind that. -/
def turn (s : Session) : Turn × Session :=
  match s.flow with
  | .running => (.onward, s)
  | .breaking n => (.over, { s with flow := if n ≤ 1 then .running else .breaking (n - 1) })
  | .continuing n =>
    if n ≤ 1 then (.again, { s with flow := .running })
    else (.over, { s with flow := .continuing (n - 1) })
  | _ => (.over, s)

/-- The session behind a loop whose last turn had some status. -/
def afterLoop (status : Nat) (s : Session) : Session :=
  { s with loops := s.loops - 1
           status := match s.flow with
             | .running | .breaking _ | .continuing _ => status
             | _ => s.status }

/-- Runs a script as long as a condition comes out as wanted. The first argument bounds the turns,
    and the status is that of the last one. -/
def runLoop (r : Runner) (stance : Stance) (wanted : Bool) (condition body : Script) :
    Nat → Nat → Session → Session
  | 0, status, s => afterLoop status s
  | fuel + 1, status, s =>
    let s := r.script { tested := true } condition s
    let holds := s.status = 0
    match turn s with
    | (.over, s) => afterLoop status s
    | (.again, s) => runLoop r stance wanted condition body fuel status s
    | (.onward, s) =>
      if holds != wanted then afterLoop status s
      else
        let s := r.script { tested := stance.tested } body s
        let status := s.status
        match turn s with
        | (.over, s) => afterLoop status s
        | (_, s) => runLoop r stance wanted condition body fuel status s

/-- Runs a script once for each of some values of a variable. -/
def runEach (r : Runner) (stance : Stance) (name : String) (body : Script) :
    List Octets → Nat → Session → Session
  | [], status, s => afterLoop status s
  | value :: rest, _, s =>
    let s := s.assign name value
    if !s.isRunning then s
    else
      let s := r.script { tested := stance.tested } body s
      let status := s.status
      match turn s with
      | (.over, s) => afterLoop status s
      | (_, s) => runEach r stance name body rest status s

/-- Whether one of some patterns matches a text. -/
def matchesAny (r : Runner) (text : Octets) : List Word → Session → Bool × Session
  | [], s => (false, s)
  | word :: rest, s =>
    let (pattern, s) := wordPattern r word s
    if !s.isRunning then (false, s)
    else if Atom.matches (atomsOf pattern) text then (true, s)
    else matchesAny r text rest s

/-- Runs the first script of which a pattern matches a text. -/
def runArms (r : Runner) (stance : Stance) (text : Octets) :
    List (List Word × Option Script) → Session → Session
  | [], s => { s with status := 0 }
  | (patterns, body) :: rest, s =>
    match matchesAny r text patterns s with
    | (true, s) =>
      match body with
      | some body => r.script stance body s
      | none => { s with status := 0 }
    | (false, s) => if s.isRunning then runArms r stance text rest s else s

/-- Runs a script with the parts that it is made of. -/
def runForm (r : Runner) (stance : Stance) (script : Script) (s : Session) : Session :=
  match script with
  | .simple line assignments words redirects =>
    runSimple r stance line assignments words redirects s
  | .redirected line body redirects => runRedirected r stance body redirects { s with line }
  | .subshell line body redirects => runSubshell r stance body redirects { s with line }
  | .background line body => runBackground r body { s with line }
  | .pipeline parts =>
    let (endings, s) := runPipeline r stance none parts s
    endings.foldl Session.noted s
  | .negate body =>
    let s := r.script { tested := true } body s
    match s.flow with
    | .running | .returning => { s with status := if s.status = 0 then 1 else 0 }
    | _ => s
  | .both left right =>
    let s := r.script { tested := true } left s
    if s.isRunning && s.status = 0 then r.script stance right s else s
  | .either left right =>
    let s := r.script { tested := true } left s
    if s.isRunning && s.status ≠ 0 then r.script stance right s else s
  | .sequence left right =>
    let s := r.script { tested := stance.tested } left s
    if s.isRunning then r.script stance right s else s
  | .branch condition yes no =>
    let s := r.script { tested := true } condition s
    if !s.isRunning then s
    else if s.status = 0 then r.script stance yes s
    else match no with
      | some no => r.script stance no s
      | none => { s with status := 0 }
  | .loop wanted condition body =>
    runLoop r stance wanted condition body endless 0 { s with loops := s.loops + 1 }
  | .forEach line name words body =>
    let (values, s) := wordsFields r words { s with line }
    if s.isRunning then runEach r stance name body values 0 { s with loops := s.loops + 1 } else s
  | .select line word arms =>
    let (text, s) := wordText r .first word { s with line }
    if s.isRunning then runArms r stance text arms s else s
  | .define name body =>
    { s with functions := (name, body) :: s.functions.filter (·.1 ≠ name), status := 0 }

/-- Whether a script is a command whose failure ends a shell that is asked to end at failures. -/
def isChecked : Script → Bool
  | .simple .. | .subshell .. | .background .. | .pipeline _ => true
  | _ => false

def endsAtFailure (stance : Stance) (script : Script) (s : Session) : Bool :=
  s.hasOption 'e' && !stance.tested && isChecked script && s.status ≠ 0 &&
    (s.flow = .running || s.flow = .returning)

/-- Runs a script. Signals are noticed before and after it. -/
def run (r : Runner) (stance : Stance) (script : Script) (s : Session) : Session :=
  if !s.isRunning || s.hasOption 'n' then s
  else
    let s := heed r s
    if !s.isRunning then s
    else
      let s := runForm r stance script s
      if endsAtFailure stance script s then { s with flow := .exiting }
      else heed r s

end LintRun.Command.Shell
