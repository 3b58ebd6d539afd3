import LintRun.Cli.Run
import LintRun.Command.Spawn
import LintRun.Files.Changes
import LintRun.Json.Printer
import LintRun.Json.Reader

/-! The command line as a program. Its input is one line, a JSON object of the time and the files
    that the run works on. The output and the complaints of the run are printed as they are; if the
    run has written files, one more line of output holds them. -/

namespace LintRun.World

def number (items : List Json.Value) (i : Nat) : Int :=
  match items[i]? with
  | some (.integer n) => n
  | _ => 0

/-- The time of a world: year, month, day, hour, minute and second. -/
def time (fields : Json.Fields) : Timestamp :=
  match fields.lookup "time" with
  | some (.array items) =>
    let part := fun i => (number items i).toNat
    ⟨number items 0, part 1, part 2, part 3, part 4, part 5⟩
  | _ => default

def files (fields : Json.Fields) : FileTree :=
  match fields.lookup "files" with
  | some (.object entries) =>
    entries.foldl (fun t (path, v) => match v with
      | .string text => (t.writeText ⟨path⟩ text).2
      | _ => t) {}
  | _ => {}

/-- The fields of a world, of which none has to be there. -/
def read (text : String) : Json.Fields :=
  match Json.Value.read text with
  | some (.object fields) => fields
  | _ => []

/-- The files that a run has written, as one line. -/
def writtenLine (before after : FileTree) : String :=
  let written := (before.changes after).map fun (path, bytes) =>
    (path.text, Json.Value.string (Text.Utf8.lossy bytes))
  if written.isEmpty then "" else (Json.Value.object written).print ++ "\n"

end LintRun.World

open LintRun in
/-- Carries out a command line on the world that the input describes. -/
def main (arguments : List String) : IO UInt32 := do
  let world := World.read (← (← IO.getStdin).getLine)
  let before := World.files world
  let (result, after) := Cli.run Command.spawn arguments (World.time world) before
  (← IO.getStdout).putStr (result.out ++ World.writtenLine before after)
  (← IO.getStderr).putStr result.err
  return result.code.toUInt32
