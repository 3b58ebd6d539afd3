import LintRun.Command.Shell.Builtin.Arguments

/-! The commands of a shell that change what is done next: leaving loops, functions and the shell,
    and signals. No result rests on this module. -/

namespace LintRun.Command.Shell.Builtin

def exit : Builtin := fun arguments s =>
  withNumber s.status arguments s fun n => { s with status := n, flow := .exiting }

/-- Returns from a function or a script. -/
def return_ : Builtin := fun arguments s =>
  withNumber s.status arguments s fun n => { s with status := n, flow := .returning }

/-- Leaves or repeats as many of the loops around it as there are at most. -/
def leave (flow : Nat → Flow) : Builtin := fun arguments s =>
  withNumber 1 arguments s fun n =>
    if n = 0 then failNumber (arguments.headD []) s
    else
      let levels := min n s.loops
      { s with status := 0, flow := if levels = 0 then s.flow else flow levels }

/-- The number of a signal, which an argument gives as such or by a name; names may have to begin at
    some number. -/
def signalNumber? (lowest : Nat) (word : Octets) : Option Nat :=
  if word ≠ [] && word.all Char.isDigit then
    let n := Text.natOfDigits 10 (word.filterMap Text.digitValue)
    if n < Signal.bound then some n else none
  else
    let upper := word.map Char.toUpper
    (Signal.names.find? fun entry => entry.1.toList = upper && lowest ≤ entry.2).map (·.2)

/-- Lists what is done when signals arrive. -/
def listTraps (s : Session) : Session :=
  let lines := (s.traps.mergeSort fun a b => a.1 ≤ b.1).map fun (n, action) =>
    Octets.ofString "trap -- " ++ requoted action ++ Octets.ofString s!" {Signal.nameOf n}\n"
  s.print lines.flatten

/-- Has something done, or nothing special, when signals arrive. -/
def setTraps (action : Option Octets) : List Octets → Session → Session
  | [], s => { s with status := 0 }
  | word :: rest, s =>
    match signalNumber? 0 word with
    | none =>
      { s.write 2 (Octets.ofString "trap: " ++ word ++ Octets.ofString ": bad trap\n") with
        status := 1 }
    | some n =>
      let others := s.traps.filter (·.1 ≠ n)
      let traps := match action with
        | some text => (n, text) :: others
        | none => others
      setTraps action rest { s with traps }

/-- Has something done when signals arrive, or lists what is. -/
def trap : Builtin := fun arguments s =>
  withOptions [] arguments s fun _ rest =>
    match rest with
    | [] => { listTraps s with status := 0 }
    | action :: signals =>
      let isSignal := action.all Char.isDigit && (signalNumber? 0 action).isSome
      if signals = [] || isSignal then setTraps none rest s
      else if action = ['-'] then setTraps none signals s
      else setTraps (some action) signals s

def usage : String :=
  "Usage: kill [-s sigspec | -signum | -sigspec] [pid | job]... or\nkill -l [exitstatus]"

/-- Lists the names of all signals, or tells the one that a number or a status stands for. -/
def listSignals (arguments : List Octets) (s : Session) : Session :=
  match arguments with
  | [] =>
    let names := (List.range Signal.bound).drop 1 |>.map Signal.nameOf
    { s.print (Octets.ofString ("0\n" ++ String.join (names.map (· ++ "\n")))) with status := 0 }
  | word :: _ =>
    withNumber 0 arguments s fun n =>
      let n := if 128 < n then n - 128 else n
      if 0 < n && n < Signal.bound then
        { s.printLine (Octets.ofString (Signal.nameOf n)) with status := 0 }
      else s.fail (Octets.ofString "invalid signal number or exit status: " ++ word)

/-- Whether there is a process of a number. -/
def isAlive (s : Session) (number : Nat) : Bool :=
  number = s.number || number = s.root || number = s.parent ||
    (s.children.lookup number).isSome

/-- Sends a signal to some processes. -/
def send (signal : Nat) : List Octets → Session → Session
  | [], s => s
  | word :: rest, s =>
    if word.head? = some '%' then s.fail (Octets.ofString "No such job: " ++ word)
    else match number? word with
      | none => failNumber word s
      | some number =>
        if isAlive s number then
          let machine := if signal = 0 then s.machine else s.machine.send number signal
          send signal rest { s with machine }
        else
          send signal rest
            { s.complain (Octets.ofString "No such process\n") with status := 1 }

def kill : Builtin := fun arguments s =>
  match arguments with
  | [] => s.fail (Octets.ofString usage)
  | first :: rest =>
    let direct := match first with
      | '-' :: name => signalNumber? 1 name
      | _ => none
    match direct with
    | some signal =>
      if rest = [] then s.fail (Octets.ofString usage) else send signal rest { s with status := 0 }
    | none =>
      withOptions [('l', false), ('s', true)] arguments s fun given rest =>
        let lists := given.any (·.1 = 'l')
        let names := given.filterMap fun (c, value) => if c = 's' then some value else none
        match names.find? fun name => (signalNumber? 1 name).isNone with
        | some name => s.fail (Octets.ofString "invalid signal number or name: " ++ name)
        | none =>
          let signal := (names.getLast?.bind (signalNumber? 1)).getD 15
          if lists then
            if names ≠ [] then s.fail (Octets.ofString usage) else listSignals rest s
          else if rest = [] then s.fail (Octets.ofString usage)
          else send signal rest { s with status := 0 }

/-- Waits for processes that have branched off. All of them have ended, so this only tells how. -/
def wait : Builtin := fun arguments s =>
  withOptions [] arguments s fun _ rest =>
    match rest with
    | [] => { s with status := 0, children := [] }
    | rest => each one rest s
where
  /-- Tells how one process has ended. -/
  one (word : Octets) (s : Session) : Session :=
    if word.head? = some '%' then s.fail (Octets.ofString "No such job: " ++ word)
    else match number? word with
      | none => failNumber word s
      | some number =>
        { s with status := (s.children.lookup number).getD 127
                 children := s.children.filter (·.1 ≠ number) }

end LintRun.Command.Shell.Builtin
