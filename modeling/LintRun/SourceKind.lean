import LintRun.Path.Basic
import LintRun.Variant

/-! The kinds of source file, told by their extensions. -/

namespace LintRun

inductive SourceKind where
  | javaScript
  | css
  | html
  deriving Repr, DecidableEq, Inhabited

namespace SourceKind

/-- The kind that an extension in lower case stands for. -/
def ofExtension (e : String) : Option SourceKind :=
  if e = "js" || e = "mjs" || e = "cjs" then some .javaScript
  else if e = "css" then some .css
  else if e = "htm" || e = "html" then some .html
  else none

/-- The kind of a file by the extension of its path, in either case. -/
def ofPath {π : Type} [PathLike π] (p : π) : Option SourceKind := do
  ofExtension (asciiLower (← PathLike.extension? p))

/-- Whether a file of this kind, or of none, is linted as plain script source. -/
def isScript : Option SourceKind → Bool
  | none | some .javaScript => true
  | _ => false

end SourceKind

end LintRun
