import LintRun.Ignore.Sections
import LintRun.Violation

/-! Dropping the violations that lie in ignore sections. -/

namespace LintRun

def Violation.position (v : Violation) : Position := ⟨v.line, v.column⟩

/-- The violations that count, in their order, and the number of those that do not. -/
structure Filtered where
  kept : List Violation
  ignored : Nat
  deriving Repr, DecidableEq

/-- Parts violations into those outside and inside of the sections. -/
def filterViolations (sections : List Section) (vs : List Violation) : Filtered :=
  { kept := vs.filter fun v => !isIgnored sections v.position
    ignored := vs.countP fun v => isIgnored sections v.position }

end LintRun
