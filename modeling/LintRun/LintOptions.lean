import LintRun.Variant

/-! What a linter is told on every call: its variant and option flags of any form. -/

namespace LintRun

/-- The options handed to the linter on every call. -/
structure LintOptions where
  variant : Variant := .jslint
  flags : Json.Fields := []
  deriving Inhabited

namespace LintOptions

def set (o : LintOptions) (name : String) (value : Json.Value) : LintOptions :=
  { o with flags := o.flags.set name value }

/-- The options with some flags set one after the other. -/
def setAll (o : LintOptions) (pairs : List (String × Json.Value)) : LintOptions :=
  pairs.foldl (fun o (name, value) => o.set name value) o

def flagsJson (o : LintOptions) : String := (Json.Value.object o.flags).print

/-- The options as a JSON object, the variant first. -/
def print (o : LintOptions) : String :=
  (Json.Value.object [("variant", .string o.variant.name), ("options", .object o.flags)]).print

/-- Whether these are the options of a linter that is told nothing. -/
def isDefault (o : LintOptions) : Bool := o.variant == .jslint && o.flags.isEmpty

/-- A variant that is missing is the first one. -/
def variantOf : Option Json.Written → Option Variant
  | none => some .jslint
  | some w => do (Variant.ofName (← w.text?)).toOption

/-- Flags that are missing are none. They stand two levels deep in a document. -/
def flagsOf : Option Json.Written → Option Json.Fields
  | none => some []
  | some w =>
    match w.toValue (Json.maxDepth - 1) with
    | some (.object fields) => some fields
    | _ => none

/-- Reads options, given as an object or as an array of their two fields. -/
def ofWritten (w : Json.Written) : Option LintOptions :=
  match w.record ["variant", "options"] with
  | some [variant, flags] => do return ⟨← variantOf variant, ← flagsOf flags⟩
  | _ => none

/-- Reads a whole text as options. -/
def read (s : String) : Option LintOptions := do ofWritten (← Json.Written.read s)

end LintOptions

end LintRun
