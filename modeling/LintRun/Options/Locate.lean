import LintRun.Files.Tree
import LintRun.Options.Validate

/-! Options files in a tree: finding the nearest one, loading it, and checking it.

    The search goes from a directory to the one above by dropping the last component of its path, so
    `..` is a component like any other. -/

namespace LintRun.Options

def fileName : Path := ⟨".jslint-task.toml"⟩

/-- A directory and those above it, as their paths are spelled, nearest first. The first argument
    bounds their number. -/
def ancestorsWithin : Nat → Path → List Path
  | 0, _ => []
  | levels + 1, dir =>
    match dir.parent? with
    | none => [dir]
    | some parent => dir :: ancestorsWithin levels parent

/-- A directory and those above it, as their paths are spelled, nearest first. -/
def ancestors (dir : Path) : List Path := ancestorsWithin (dir.components.length + 1) dir

/-- The nearest options file at or above a directory. -/
def find (t : FileTree) (dir : Path) : Option Path :=
  ((ancestors dir).map (·.join fileName)).find? t.isFile

def load (t : FileTree) (path : Path) : Except ConfigError Options :=
  if t.isFile path then
    match t.readStrict path with
    | .error cause => .error (.io path cause)
    | .ok text => parse path text
  else .error (.notFound path)

/-- What is wrong with the options of a file. -/
def validateFile (t : FileTree) (path : Path) : Except ConfigError (List OptionsProblem) :=
  match t.readStrict path with
  | .error cause => .error (.io path cause)
  | .ok text => validate path text

end LintRun.Options
