import LintRun.Command.Octets

/-! The classes of characters that patterns may name, and the parts of sets in brackets. A character
    above 127 is of no class. No result rests on this module. -/

namespace LintRun.Command

def isPrintable (c : Char) : Bool := 0x20 ≤ c.toNat && c.toNat < 0x7F

def classNames : List String :=
  ["alnum", "alpha", "blank", "cntrl", "digit", "graph", "lower", "print", "punct", "space",
    "upper", "xdigit"]

/-- Whether a character is of a class. -/
def isOfClass (name : String) (c : Char) : Bool :=
  match name with
  | "alnum" => c.isAlphanum
  | "alpha" => c.isAlpha
  | "blank" => c = ' ' || c = '\t'
  | "cntrl" => c.toNat < 0x20 || c.toNat = 0x7F
  | "digit" => c.isDigit
  | "graph" => isPrintable c && c ≠ ' '
  | "lower" => c.isLower
  | "print" => isPrintable c
  | "punct" => isPrintable c && c ≠ ' ' && !c.isAlphanum
  | "space" => c = ' ' || (9 ≤ c.toNat && c.toNat ≤ 13)
  | "upper" => c.isUpper
  | "xdigit" => c.isDigit || ('a' ≤ c && c ≤ 'f') || ('A' ≤ c && c ≤ 'F')
  | _ => false

/-- A part of a set: a range of characters, or a class by its name. -/
inductive SetPart where
  | range (first last : Char)
  | ofClass (name : String)
  deriving Repr, DecidableEq

/-- Whether a character belongs to a part of a set. -/
def SetPart.holds (c : Char) : SetPart → Bool
  | .range first last => first ≤ c && c ≤ last
  | .ofClass name => isOfClass name c

end LintRun.Command
