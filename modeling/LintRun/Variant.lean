import LintRun.Json.Decode
import LintRun.Json.Printer

/-! The dialects of linter that a run can use. -/

namespace LintRun

/-- Which linter dialect to run. -/
inductive Variant where
  | jslint
  | jshint
  deriving Repr, DecidableEq, Inhabited

/-- A text that names no variant. -/
structure UnknownVariant where
  text : String
  deriving Repr, DecidableEq

/-- What a user reads of a text that names no variant. -/
def UnknownVariant.message (e : UnknownVariant) : String :=
  s!"invalid linter variant '{e.text}', expected 'jslint' or 'jshint'"

/-- The text with its ASCII capitals in lower case. -/
def asciiLower (s : String) : String := String.ofList (s.toList.map Char.toLower)

namespace Variant

def name : Variant → String
  | .jslint => "jslint"
  | .jshint => "jshint"

/-- The variant of a name, whose ASCII letters may be of either case. -/
def ofName (s : String) : Except UnknownVariant Variant :=
  if asciiLower s = "jslint" then .ok .jslint
  else if asciiLower s = "jshint" then .ok .jshint
  else .error ⟨s⟩

/-- The command line that runs a linter of this variant unless the options name another. -/
def defaultCommand : Variant → List String
  | .jslint => ["jslint-json"]
  | .jshint => ["jshint-json"]

theorem ofName_name (v : Variant) : ofName v.name = .ok v := by
  cases v <;> rfl

/-- Why a JSON text is not a variant: it is not a text in quotes, or it names none. -/
inductive JsonError where
  | malformed
  | unknown (cause : UnknownVariant)
  deriving Repr, DecidableEq

/-- Reads a JSON text as a variant. A text that names none is the error even when more follows. -/
def readJson (s : String) : Except JsonError Variant :=
  match Json.Written.readFront s with
  | some (.string (some name), rest) =>
    match ofName name with
    | .ok v => if Json.skipGap rest = [] then .ok v else .error .malformed
    | .error e => .error (.unknown e)
  | _ => .error .malformed

end Variant

end LintRun
