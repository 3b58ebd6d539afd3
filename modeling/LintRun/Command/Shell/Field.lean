import LintRun.Command.Shell.Pattern

/-! Fields: how the values of the parts of a word are split and joined.

    Of what an expansion gives, separators make fields; what is quoted or stands in the word itself
    belongs to one field.

    No result rests on this module. -/

namespace LintRun.Command.Shell

/-- A piece of a word whose parts have been given their values: a character that is kept, one that
    may separate fields, the end of an expansion, the border between two arguments, or the place of
    quotes. A character that may separate is the border between two arguments too if it is NUL. -/
inductive Glyph where
  | char (c : Char) (quoted : Bool)
  | loose (c : Char)
  | seam
  | cut
  | mark
  deriving Repr, DecidableEq

/-- What is being split: the fields that are complete, last first, the characters of the current one,
    last first, whether anything stands in it, and whether separators are passed over, up to one that
    is no blank if the flag says so. -/
structure Splitting where
  done : List (List PatternChar) := []
  current : List PatternChar := []
  begun : Bool := false
  gap : Option Bool := none

namespace Splitting

/-- Adds a character to the current field. -/
def add (s : Splitting) (c : Char) (quoted : Bool) : Splitting :=
  { s with current := (c, quoted) :: s.current, begun := true, gap := none }

def finish (s : Splitting) (gap : Option Bool) : Splitting :=
  { done := s.current.reverse :: s.done, gap }

/-- Whether a separator is a blank, of which many count as one. -/
def isBlank (c : Char) : Bool := c = ' ' || c = '\t' || c = '\n' || c = '\x00'

/-- Takes a character that may separate fields. -/
def takeLoose (separators : Octets) (s : Splitting) (c : Char) : Splitting :=
  if !(c = '\x00' || separators.contains c) then s.add c false
  else match s.gap with
    | some mark =>
      if isBlank c then s
      else if mark then { s with gap := some false }
      else s.finish (some false)
    | none => if !s.begun && isBlank c then s else s.finish (some (isBlank c))

def step (separators : Octets) (s : Splitting) : Glyph → Splitting
  | .char c quoted => s.add c quoted
  | .loose c => s.takeLoose separators c
  | .seam => { s with gap := none }
  | .cut => s.finish none
  | .mark => { s with begun := true, gap := none }

end Splitting

namespace Glyph

def fields (separators : Octets) (word : List Glyph) : List (List PatternChar) :=
  let s := word.foldl (Splitting.step separators) {}
  (if s.begun then s.finish none else s).done.reverse

def pattern (word : List Glyph) : List PatternChar :=
  word.filterMap fun
    | .char c quoted => some (c, quoted)
    | .loose c => some (c, false)
    | _ => none

def text (word : List Glyph) : Octets := (pattern word).map (·.1)

end Glyph

end LintRun.Command.Shell
