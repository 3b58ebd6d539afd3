/-! Escaping of text for markup.

    The five special characters are replaced one after the other, the ampersand first, so that no
    replacement touches what an earlier one has put in. -/

namespace LintRun.Report

/-- The characters that have a meaning in markup, each with the entity that stands for it, in the
    order of replacement. -/
def entities : List (Char × String) :=
  [('&', "&amp;"), ('<', "&lt;"), ('>', "&gt;"), ('"', "&quot;"), ('\'', "&apos;")]

/-- Replaces every occurrence of one character. -/
def replaceChar (cs : List Char) (rule : Char × String) : List Char :=
  cs.flatMap fun c => if c = rule.1 then rule.2.toList else [c]

/-- Whether a character has a meaning in markup. -/
def isSpecial (c : Char) : Bool := entities.any (·.1 = c)

/-- A text in which no character has a meaning in markup. -/
def escape (s : String) : String :=
  if s.toList.any isSpecial then String.ofList (entities.foldl replaceChar s.toList) else s

end LintRun.Report
