/-! Patterns for file names, and which names they match.

    In a pattern `?` stands for any character, `*` for any number of them, and brackets for one
    character out of a set or, after `!`, out of all others. `**` stands for any number of
    directories and is a whole component. -/

namespace LintRun.Glob

/-- One part of a set of characters. -/
inductive CharSpec where
  | single (c : Char)
  | range (first last : Char)
  deriving Repr, DecidableEq

/-- Whether a character belongs to a part of a set. -/
def CharSpec.holds (c : Char) : CharSpec → Bool
  | .single d => c = d
  | .range first last => first ≤ c && c ≤ last

/-- One part of a pattern. -/
inductive Token where
  | char (c : Char)
  | anyChar
  | anyText
  | anyDepth
  | within (set : List CharSpec)
  | except (set : List CharSpec)
  deriving Repr, DecidableEq

/-- Why a pattern is malformed. -/
inductive PatternError where
  | tooManyStars
  | misplacedDepth
  | invalidRange
  deriving Repr, DecidableEq

def PatternError.message : PatternError → String
  | .tooManyStars => "wildcards are either regular `*` or recursive `**`"
  | .misplacedDepth => "recursive wildcards must form a single path component"
  | .invalidRange => "invalid range pattern"

/-- The set that the text between brackets spells. -/
def charSpecs : List Char → List CharSpec
  | [] => []
  | first :: '-' :: last :: rest => .range first last :: charSpecs rest
  | c :: rest => .single c :: charSpecs rest

/-- The text up to a closing bracket and what follows it; the first character never closes. -/
def splitSet : List Char → Option (List Char × List Char)
  | [] => none
  | first :: rest =>
    match rest.span (· ≠ ']') with
    | (set, _ :: after) => some (first :: set, after)
    | (_, []) => none

/-- The set after an opening bracket, and what follows it. -/
def readSet : List Char → Option (Token × List Char)
  | '!' :: s => (splitSet s).map fun (set, rest) => (.except (charSpecs set), rest)
  | s => (splitSet s).map fun (set, rest) => (.within (charSpecs set), rest)

/-- The parts of a pattern. `atStart` tells whether a component begins here; the first argument
    bounds the number of parts. -/
def readTokens : Nat → (atStart : Bool) → List Char → Except PatternError (List Token)
  | 0, _, _ => .ok []
  | _ + 1, _, [] => .ok []
  | fuel + 1, atStart, c :: s =>
    if c = '?' then do return .anyChar :: (← readTokens fuel false s)
    else if c = '*' then
      let stars := ((c :: s).takeWhile (· = '*')).length
      let rest := (c :: s).dropWhile (· = '*')
      if 2 < stars then .error .tooManyStars
      else if stars = 1 then do return .anyText :: (← readTokens fuel false rest)
      else if atStart then
        match rest with
        | [] => .ok [.anyDepth]
        | '/' :: rest => do return .anyDepth :: (← readTokens fuel true rest)
        | _ => .error .misplacedDepth
      else .error .misplacedDepth
    else if c = '[' then
      match readSet s with
      | some (set, rest) => do return set :: (← readTokens fuel false rest)
      | none => .error .invalidRange
    else do return .char c :: (← readTokens fuel (c = '/') s)

def tokens (s : List Char) : Except PatternError (List Token) := readTokens (s.length + 1) true s

/-- Whether a part stands for exactly this one character. -/
def Token.holds (c : Char) : Token → Bool
  | .char d => c = d
  | .anyChar => true
  | .within set => set.any (·.holds c)
  | .except set => !set.any (·.holds c)
  | .anyText => false
  | .anyDepth => false

/-- All ends of a text, the longest first. -/
def tails : List Char → List (List Char)
  | [] => [[]]
  | c :: rest => (c :: rest) :: tails rest

/-- Whether a pattern matches a whole name. -/
def isMatch : List Token → List Char → Bool
  | [], name => name.isEmpty
  | .anyText :: rest, name => (tails name).any (isMatch rest)
  | .anyDepth :: rest, name => (tails name).any (isMatch rest)
  | token :: rest, c :: name => token.holds c && isMatch rest name
  | _ :: _, [] => false

end LintRun.Glob
