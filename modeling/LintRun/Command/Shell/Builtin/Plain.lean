import LintRun.Command.Shell.Builtin.Arguments
import LintRun.Command.Shell.Reading
import LintRun.Command.Shell.Test
import LintRun.Command.Tool.Echo

/-! The commands of a shell that write, test and look up. No result rests on this module. -/

namespace LintRun.Command.Shell.Builtin

/-- Does nothing, with a given outcome. -/
def outcome (status : Nat) : Builtin := fun _ s => { s with status }

def echo : Builtin := fun arguments s => { s.print (Echo.inShell arguments) with status := 0 }

/-- Writes arguments in the form that the first one describes. -/
def printf : Builtin := fun arguments s =>
  withOptions [] arguments s fun _ rest =>
    match rest with
    | [] => s.fail (Octets.ofString "usage: printf format [arg ...]")
    | form :: values =>
      let result := Printf.format .shell form values
      let s := result.complaints.reverse.foldl (fun s text => s.complain text) s
      { s.print result.written.reverse.flatten with status := result.status }

def test : Builtin := fun arguments s =>
  match Test.holds s.machine.tree arguments with
  | .ok holds => { s with status := if holds then 0 else 1 }
  | .error text => s.fail text

/-- Works out a condition that a bracket closes. -/
def bracket : Builtin := fun arguments s =>
  if arguments.getLast? = some [']'] then test arguments.dropLast s
  else s.fail (Octets.ofString "missing ]")

def pathOf (place : Place) : Octets := Octets.ofString ("/" ++ "/".intercalate place)

/-- Tells the directory in which relative paths begin. -/
def pwd : Builtin := fun arguments s =>
  withOptions [('L', false), ('P', false)] arguments s fun _ _ =>
    { s.printLine (pathOf s.machine.tree.here) with status := 0 }

/-- Has relative paths begin in another directory. -/
def cd : Builtin := fun arguments s =>
  withOptions [('L', false), ('P', false)] arguments s fun _ rest =>
    let back := rest.head? = some ['-']
    let target := if back then (s.value? "OLDPWD").getD []
      else match rest with
        | word :: _ => word
        | [] => (s.value? "HOME").getD []
    let tree := s.machine.tree
    let path : Path := ⟨if target = [] then "." else Octets.toText target⟩
    match tree.resolve path with
    | .ok place =>
      if tree.entry? place = some .directory then
        let old := pathOf tree.here
        let s := { s with machine := { s.machine with tree := { tree with here := place } } }
        let s := (s.assign "OLDPWD" old).assign "PWD" (pathOf place)
        let s := if back then s.printLine (pathOf place) else s
        { s with status := 0 }
      else s.fail (Octets.ofString "can't cd to " ++ target)
    | .error _ => s.fail (Octets.ofString "can't cd to " ++ target)

/-- Tells which permissions new files do not get. -/
def umask : Builtin := fun arguments s =>
  withOptions [('S', false)] arguments s fun given rest =>
    match rest with
    | [] =>
      let text := if given = [] then "0022\n" else "u=rwx,g=rx,o=rx\n"
      { s.print (Octets.ofString text) with status := 0 }
    | word :: _ =>
      if word.all fun c => (Text.digitOf 8 c).isSome || "ugoa+-=rwxXst,".toList.contains c then
        { s with status := 0 }
      else s.fail (Octets.ofString "Illegal mode: " ++ word)

/-- Tells how long processes have taken, which is no time at all. -/
def times : Builtin := fun _ s =>
  let line := "0m0.000000s 0m0.000000s\n"
  { s.print (Octets.ofString (line ++ line)) with status := 0 }

/-- Tells a bound on what processes may use, of which there is none. -/
def ulimit : Builtin := fun _ s => { s.print (Octets.ofString "unlimited\n") with status := 0 }

/-- Asks for a job, of which there is none. -/
def job : Builtin := fun _ s => s.fail (Octets.ofString "No current job")

end LintRun.Command.Shell.Builtin
