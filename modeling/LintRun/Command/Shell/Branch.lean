import LintRun.Command.Shell.Reader
import LintRun.Command.Shell.Session

/-! Running the text of a script, how a shell ends, and processes that branch off from it. No result
    rests on this module. -/

namespace LintRun.Command.Shell

/-- Whether nothing follows what has been read. -/
def Reading.isAtEnd (r : Reading) : Bool :=
  match r.last with
  | .finish => true
  | _ => false

/-- Takes over the documents of the line that was read. -/
def Session.learn (s : Session) (r : Reading) : Session :=
  { s with documents := r.documents ++ s.documents, nextKey := r.nextKey }

/-- What is left of a text once a line of it has been run, and the status of the last command in it,
    if there was any. -/
structure Progress where
  reading : Reading
  outcome : Option Nat := none

/-- Runs a text line by line as long as the shell goes on. The first argument bounds the lines. -/
def runLines (r : Runner) (stance : Stance) : Nat → Progress → Session → Option Nat × Session
  | 0, p, s => (p.outcome, s)
  | fuel + 1, p, s =>
    match readLine { p.reading with documents := [], nextKey := s.nextKey } with
    | .error e => (some 2, s.failSyntax e.line e.text)
    | .ok (none, reading) =>
      let s := s.learn reading
      if reading.rest = [] then (p.outcome, s)
      else runLines r stance fuel { p with reading } s
    | .ok (some script, reading) =>
      let last := stance.last && reading.isAtEnd
      let s := r.script { stance with last } script (s.learn reading)
      if s.isRunning && reading.rest ≠ [] then
        runLines r stance fuel ⟨reading, some s.status⟩ s
      else (some s.status, s)

/-- Runs a text. The status is that of the last command in it, or zero. -/
def runText (r : Runner) (stance : Stance) (text : Octets) (s : Session) : Session :=
  let (outcome, s) := runLines r stance (text.length + 2) ⟨{ rest := text }, none⟩ s
  { s with status := outcome.getD 0 }

/-- Ends a shell: what it was asked to do at its end is done first. -/
def conclude (r : Runner) (s : Session) : Ending × Session :=
  match s.flow, s.traps.lookup 0 with
  | .killed n, _ => (.killed n, s)
  | _, none => (.exited s.status, s)
  | _, some action =>
    let after := runText r {} action
      { s with traps := s.traps.filter (·.1 ≠ 0), flow := .running, builtin := none }
    match after.flow with
    | .killed n => (.killed n, after)
    | .exiting | .failing => (.exited after.status, after)
    | _ => (.exited s.status, after)

/-- Has a process branch off and do something, and waits for its end. -/
def inBranch (r : Runner) (work : Session → Session) (s : Session) : Ending × Session :=
  let (ending, after) := conclude r (work s.branch)
  (ending, s.rejoin after.machine)

/-- A text without the line ends at its end and without what is no text. -/
def trimOutput (text : Octets) : Octets :=
  ((text.filter (· ≠ '\x00')).reverse.dropWhile (· = '\n')).reverse

def outputOf (r : Runner) (script : Option Script) (s : Session) : Octets × Session :=
  let (port, machine) := s.machine.opened (.sink [])
  let status := s.status
  let work := fun (s : Session) => match script with
    | some script => r.script { last := true } script (s.redirect 1 port)
    | none => { s with status := 0 }
  let (ending, s) := inBranch r work { s with machine }
  let s := s.noted ending
  let text := s.machine.collected port
  (trimOutput text,
    { s with machine := s.machine.setPort port .nothing, substituted := s.status, status })

/-- Does something once for each signal that has arrived: nothing, what the script asks for, or
    ending the shell. -/
def heedSignals (r : Runner) : List Nat → Session → Session
  | [], s => s
  | n :: rest, s =>
    if !s.isRunning then s
    else
      let s := match if n = 9 then none else s.traps.lookup n with
        | some [] => s
        | some action =>
          let after := runText r {} action s
          if after.isRunning then { after with status := s.status } else after
        | none => if Signal.harmless.contains n then s else { s with flow := .killed n }
      heedSignals r rest s

/-- Notices the signals that have arrived. -/
def heed (r : Runner) (s : Session) : Session :=
  match s.machine.takeSignals s.number with
  | ([], _) => s
  | (signals, machine) => heedSignals r signals { s with machine }

end LintRun.Command.Shell
