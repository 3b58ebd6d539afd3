import LintRun.Ignore.Sections
import LintRun.LintOptions
import LintRun.Path.Basic
import LintRun.SourceKind

/-! The options of a run, as an options file gives them. -/

namespace LintRun

/-- Which linter runs, and what it is told. -/
structure LinterSettings where
  variant : Variant := .jslint
  command : Option (List String) := none
  flags : Json.Fields := []
  deriving Inhabited

/-- Which kinds of file are taken from directories and patterns. -/
structure Include where
  js : Bool := true
  css : Bool := false
  html : Bool := false
  deriving Repr, DecidableEq, Inhabited

/-- Whether files of a kind are taken. -/
def Include.takes (i : Include) : SourceKind → Bool
  | .javaScript => i.js
  | .css => i.css
  | .html => i.html

/-- What a run does with violations. -/
structure OutputSettings where
  warnings : Bool := false
  reportFile : Option Path := none
  deriving Repr, DecidableEq, Inhabited

/-- When a terminal gets colours. -/
inductive ColorMode where
  | auto
  | always
  | never
  deriving Repr, DecidableEq, Inhabited

namespace ColorMode

def name : ColorMode → String
  | .auto => "auto"
  | .always => "always"
  | .never => "never"

def ofName? (s : String) : Option ColorMode :=
  if s = "auto" then some .auto
  else if s = "always" then some .always
  else if s = "never" then some .never
  else none

end ColorMode

structure Options where
  linter : LinterSettings := {}
  included : Include := {}
  markers : Markers := {}
  output : OutputSettings := {}
  color : ColorMode := .auto
  deriving Inhabited

namespace Options

/-- What the linter is told on every call. -/
def lintOptions (o : Options) : LintOptions := ⟨o.linter.variant, o.linter.flags⟩

/-- The command line of the linter: the one given, or that of the variant. -/
def linterCommand (o : Options) : List String :=
  o.linter.command.getD o.linter.variant.defaultCommand

end Options

end LintRun
