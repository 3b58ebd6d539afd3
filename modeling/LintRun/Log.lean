/-! The log of a run: an entry for every violation that counts. -/

namespace LintRun

/-- How grave the violations of a run are taken to be. -/
inductive Severity where
  | error
  | warning
  deriving Repr, DecidableEq, Inhabited

namespace Severity

/-- The severity of a run that treats violations as warnings, or does not. -/
def ofRun (warnings : Bool) : Severity := if warnings then .warning else .error

def name : Severity → String
  | .error => "error"
  | .warning => "warning"

end Severity

/-- One entry of a log. An end at line 0 and column 0 means that there is none. -/
structure LogEntry where
  subcategory : Option String := none
  code : Option String := none
  helpKeyword : Option String := none
  file : String
  line : Nat
  column : Nat
  endLine : Nat := 0
  endColumn : Nat := 0
  message : String
  deriving Repr, DecidableEq, Inhabited

/-- The entries of a log with their severities, in the order in which they were made. -/
abbrev Log := List (Severity × LogEntry)

def Log.count (log : Log) (severity : Severity) : Nat := log.countP (·.1 == severity)

end LintRun
