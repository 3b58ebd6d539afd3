import LintRun.Json.Decode
import LintRun.Json.Printer

/-! What a linter finds in a text, and the JSON form in which linters hand it over. -/

namespace LintRun

/-- One finding of a linter. Lines and columns count from 1. -/
structure Violation where
  line : Nat
  column : Nat
  message : String
  evidence : Option String := none
  deriving Repr, DecidableEq, Inhabited

namespace Violation

/-- The fields of a violation, in the order in which they are written. -/
def fields (v : Violation) : Json.Fields :=
  [("line", .integer v.line), ("column", .integer v.column), ("message", .string v.message)] ++
    (v.evidence.map fun e => ("evidence", Json.Value.string e)).toList

/-- Evidence that is missing or null is none. -/
def evidenceOf : Option Json.Written → Option (Option String)
  | none | some .null => some none
  | some w => w.text?.map some

/-- Reads a violation, given as an object or as an array of its fields in order. -/
def ofWritten (w : Json.Written) : Option Violation :=
  match w.record ["line", "column", "message", "evidence"] with
  | some [some line, some column, some message, evidence] => do
    return ⟨← line.natural?, ← column.natural?, ← message.text?, ← evidenceOf evidence⟩
  | _ => none

def printList (vs : List Violation) : String :=
  (Json.Value.array (vs.map fun v => .object v.fields)).print

def readList (s : String) : Option (List Violation) :=
  match Json.Written.read s with
  | some (.array items) => items.mapM ofWritten
  | _ => none

end Violation

end LintRun
