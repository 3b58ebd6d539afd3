import LintRun.Command.CharClass

/-! Patterns of a shell: `*`, `?` and sets in brackets, unless they are quoted. No result rests on
    this module. -/

namespace LintRun.Command.Shell

/-- A character of a pattern, and whether it is quoted. -/
abbrev PatternChar := Char × Bool

/-- A part of a pattern. -/
inductive Atom where
  | char (c : Char)
  | any
  | many
  | set (negated : Bool) (parts : List SetPart)
  deriving Repr, DecidableEq

/-- The name of a class after its opening, and what follows it. -/
def readClass (s : List PatternChar) : Option (String × List PatternChar) :=
  let name := (s.takeWhile fun p => p.1 ≠ ':').map (·.1)
  match s.drop name.length with
  | (':', false) :: (']', false) :: rest =>
    if classNames.contains (String.ofList name) then some (String.ofList name, rest) else none
  | _ => none

/-- The parts of a set up to its closing bracket, which closes nothing at the beginning. The first
    argument bounds their number. -/
def readSet : Nat → (begun : Bool) → List PatternChar → Option (List SetPart × List PatternChar)
  | 0, _, _ => none
  | _ + 1, _, [] => none
  | fuel + 1, begun, (c, quoted) :: s =>
    if begun && c = ']' && !quoted then some ([], s)
    else
      match if c = '[' && !quoted && s.head? = some (':', false) then readClass (s.drop 1) else none
      with
      | some (name, rest) => do
        let (parts, rest) ← readSet fuel true rest
        return (.ofClass name :: parts, rest)
      | none =>
        match s with
        | ('-', false) :: (d, dQuoted) :: rest =>
          if d = ']' && !dQuoted then do
            let (parts, rest) ← readSet fuel true s
            return (.range c c :: parts, rest)
          else do
            let (parts, rest) ← readSet fuel true rest
            return (.range c d :: parts, rest)
        | s => do
          let (parts, rest) ← readSet fuel true s
          return (.range c c :: parts, rest)

/-- The parts of a pattern. A bracket that opens no set stands for itself, and a backslash that a
    value has brought along takes the meaning of the next character. The first argument bounds their
    number. -/
def readAtoms : Nat → List PatternChar → List Atom
  | 0, _ => []
  | _ + 1, [] => []
  | fuel + 1, (c, true) :: s => .char c :: readAtoms fuel s
  | fuel + 1, (c, false) :: s =>
    if c = '*' then .many :: readAtoms fuel s
    else if c = '?' then .any :: readAtoms fuel s
    else if c = '\\' then
      match s with
      | (d, _) :: rest => .char d :: readAtoms fuel rest
      | [] => [.char c]
    else if c = '[' then
      let negated := s.head? = some ('!', false)
      match readSet (s.length + 1) false (if negated then s.drop 1 else s) with
      | some (parts, rest) => .set negated parts :: readAtoms fuel rest
      | none => .char c :: readAtoms fuel s
    else .char c :: readAtoms fuel s

def atomsOf (pattern : List PatternChar) : List Atom := readAtoms (pattern.length + 1) pattern

/-- Whether a part that stands for one character stands for a given one. -/
def Atom.holds (c : Char) : Atom → Bool
  | .char d => c = d
  | .any => true
  | .many => false
  | .set negated parts => parts.any (·.holds c) != negated

/-- The rests of a pattern that are still to be matched once a character is taken. -/
def Atom.step (c : Char) : List Atom → List (List Atom)
  | [] => []
  | .many :: rest => (.many :: rest) :: step c rest
  | a :: rest => if a.holds c then [rest] else []

/-- Whether a pattern matches nothing at all. -/
def matchesEmpty (atoms : List Atom) : Bool := atoms.all (· = .many)

/-- Whether one of some patterns matches a whole text. -/
def anyMatches : List (List Atom) → Octets → Bool
  | states, [] => states.any matchesEmpty
  | states, c :: s => !states.isEmpty && anyMatches ((states.flatMap (Atom.step c)).eraseDups) s

/-- Whether a pattern matches a whole text. -/
def Atom.matches (atoms : List Atom) (s : Octets) : Bool := anyMatches [atoms] s

/-- Whether a character has a meaning of its own in a pattern. -/
def isWild (p : PatternChar) : Bool := !p.2 && (p.1 = '*' || p.1 = '?' || p.1 = '[')

/-- A text without the part at one end that a pattern matches, the longest one or the shortest. -/
def trimMatch (atEnd longest : Bool) (atoms : List Atom) (s : Octets) : Octets :=
  let lengths := List.range (s.length + 1)
  let lengths := if longest then lengths.reverse else lengths
  let piece := fun n => if atEnd then s.drop (s.length - n) else s.take n
  match lengths.find? fun n => Atom.matches atoms (piece n) with
  | some n => if atEnd then s.take (s.length - n) else s.drop n
  | none => s

end LintRun.Command.Shell
