import LintRun.Violation

/-! The findings of a run: per file the violations that counted, the files in the order in which
    they were first mentioned.

    An index leads from a path to the place of its record. It is the inverse of the list of records:
    every path has one record and one place. A path here is the text that it is shown as, so files
    that are shown alike share a record. -/

namespace LintRun

structure FileFindings where
  path : String
  violations : List Violation := []
  deriving Repr, DecidableEq, Inhabited

/-- A record with one more violation at its end. -/
def FileFindings.add (f : FileFindings) (v : Violation) : FileFindings :=
  { f with violations := f.violations ++ [v] }

/-- The counts over a whole run. -/
structure Totals where
  processed : Nat := 0
  violating : Nat := 0
  violations : Nat := 0
  deriving Repr, DecidableEq, Inhabited

/-- The records of a run and the place of each path among them. -/
structure Findings where
  files : List FileFindings := []
  index : List (String × Nat) := []
  deriving Repr, DecidableEq, Inhabited

namespace Findings

/-- The findings of a run that has not begun. -/
def empty : Findings := {}

/-- The place of a path among the records; a path that is new gets an empty record at the end. -/
def place (f : Findings) (path : String) : Findings × Nat :=
  match f.index.lookup path with
  | some i => (f, i)
  | none =>
    let i := f.files.length
    ({ files := f.files ++ [{ path }], index := f.index ++ [(path, i)] }, i)

/-- Notes a file that was processed, whether or not it has violations. -/
def mention (f : Findings) (path : String) : Findings := (f.place path).1

/-- Notes a violation in a file. -/
def add (f : Findings) (path : String) (v : Violation) : Findings :=
  let (g, i) := f.place path
  { g with files := g.files.modify i (·.add v) }

/-- The record of a path, if it was ever mentioned. -/
def get? (f : Findings) (path : String) : Option FileFindings := do
  f.files[← f.index.lookup path]?

/-- The records with violations, in their order. -/
def violating (f : Findings) : List FileFindings :=
  f.files.filter fun record => !record.violations.isEmpty

def processedCount (f : Findings) : Nat := f.files.length

def violatingCount (f : Findings) : Nat := f.violating.length

def violationCount (f : Findings) : Nat := (f.files.flatMap (·.violations)).length

def totals (f : Findings) : Totals := ⟨f.processedCount, f.violatingCount, f.violationCount⟩

end Findings

end LintRun
