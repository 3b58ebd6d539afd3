import LintRun.Glob.Expand
import LintRun.Options.Basic

/-! From the inputs of a command line to the files to lint.

    A file that is named is always taken. A directory stands for all files below it and a pattern
    for the files it leads to, of the kinds that are included and in the order of paths. Each file
    is taken once, under its first spelling. -/

namespace LintRun

/-- Why inputs give no list of files. -/
inductive SourcesError where
  | notFound (input : Path)
  | invalidPattern (pattern : String) (cause : Glob.PatternError)
  deriving Repr, DecidableEq

def SourcesError.message : SourcesError → String
  | .notFound input => s!"{input.text} not found"
  | .invalidPattern pattern cause => s!"invalid pattern '{pattern}': {cause.message}"

namespace Sources

/-- Whether a text has a character that is special in patterns. -/
def isPattern (s : String) : Bool := s.toList.any fun c => c = '*' || c = '?' || c = '['

/-- Whether a path is that of a file of a kind that is included. -/
def isIncluded (kinds : Include) (path : Path) : Bool :=
  (SourceKind.ofPath path).any kinds.takes

/-- The files that a pattern leads to, of the kinds that are included, in the order of paths. -/
def ofPattern (t : FileTree) (kinds : Include) (pattern : String) :
    Except SourcesError (List Path) :=
  match Glob.expand t pattern with
  | .error cause => .error (.invalidPattern pattern cause)
  | .ok paths =>
    .ok ((paths.filter fun p => t.isFile p && isIncluded kinds p).mergeSort Path.le)

/-- The pattern for everything below a directory. -/
def everythingBelow (dir : Path) : Path := (dir.join ⟨"**"⟩).join ⟨"*"⟩

/-- The files that one input stands for. -/
def ofInput (t : FileTree) (kinds : Include) (input : Path) : Except SourcesError (List Path) :=
  if t.isFile input then .ok [input]
  else if t.isDirectory input then ofPattern t kinds (everythingBelow input).text
  else if isPattern input.text then ofPattern t kinds input.text
  else .error (.notFound input)

/-- Paths without those that are the same as an earlier one. -/
def distinct : List Path → List Path
  | [] => []
  | p :: rest => p :: (distinct rest).filter fun q => !decide (p.Same q)

/-- The files that all inputs stand for, in the order of inputs. -/
def collect (t : FileTree) (kinds : Include) (inputs : List Path) :
    Except SourcesError (List Path) := do
  return distinct (← inputs.mapM (ofInput t kinds)).flatten

end Sources

end LintRun
