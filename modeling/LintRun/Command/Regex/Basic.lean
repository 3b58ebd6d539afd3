import LintRun.Command.CharClass

/-! Regular expressions, and where a text has the leftmost longest match of one.

    What is still to be matched after a character is again a list of expressions, so a text is
    matched by taking such steps. The beginning and the end of a text can be asked for anywhere in
    an expression.

    No result rests on this module. -/

namespace LintRun.Command

/-- A regular expression. -/
inductive Regex where
  | empty
  | start
  | finish
  | one (negated : Bool) (parts : List SetPart)
  | sequence (first second : Regex)
  | either (left right : Regex)
  | many (body : Regex)
  deriving Repr, DecidableEq, Inhabited

namespace Regex

def char (c : Char) : Regex := .one false [.range c c]

def any : Regex := .one true []

/-- An expression that may be left out. -/
def optional (r : Regex) : Regex := .either r .empty

/-- An expression once or more often. -/
def atLeastOnce (r : Regex) : Regex := .sequence r (.many r)

/-- One expression after another, where an empty one adds nothing. -/
def andThen : Regex → Regex → Regex
  | .empty, r => r
  | r, .empty => r
  | r, q => .sequence r q

/-- An expression a number of times. -/
def times (r : Regex) : Nat → Regex
  | 0 => .empty
  | n + 1 => r.andThen (times r n)

/-- An expression at most a number of times. -/
def atMost (r : Regex) : Nat → Regex
  | 0 => .empty
  | n + 1 => .optional (.sequence r (atMost r n))

/-- Whether an expression takes exactly the characters of a fixed number of sets. -/
def isPlain : Regex → Bool
  | .one .. => true
  | .sequence first second => first.isPlain && second.isPlain
  | _ => false

/-- Whether an expression matches nothing at all, at a place that is or is not at the beginning and the
    end of the text. -/
def isOpen (atStart atEnd : Bool) : Regex → Bool
  | .empty | .many _ => true
  | .start => atStart
  | .finish => atEnd
  | .one .. => false
  | .sequence first second => first.isOpen atStart atEnd && second.isOpen atStart atEnd
  | .either left right => left.isOpen atStart atEnd || right.isOpen atStart atEnd

/-- What is still to be matched once a character is taken: any of the expressions. -/
def step (atStart : Bool) (c : Char) : Regex → List Regex
  | .empty | .start | .finish => []
  | .one negated parts => if parts.any (·.holds c) != negated then [.empty] else []
  | .sequence first second =>
    let inFirst := (first.step atStart c).map (·.andThen second)
    if first.isOpen atStart false then inFirst ++ second.step atStart c else inFirst
  | .either left right => left.step atStart c ++ right.step atStart c
  | .many body => (body.step atStart c).map (·.andThen (.many body))

/-- What is still to be matched by one of some expressions once a character is taken. -/
def stepAll (atStart : Bool) (c : Char) (all : List Regex) : List Regex :=
  (all.flatMap (step atStart c)).eraseDups

/-- Whether one of some expressions matches nothing at all. -/
def anyOpen (atStart atEnd : Bool) (all : List Regex) : Bool := all.any (isOpen atStart atEnd)

/-- How many characters the longest match takes with which a text begins; `best` is the longest one
    that was found so far, and `taken` characters are behind. -/
def longestFrom (atStart : Bool) (best : Option Nat) (taken : Nat) :
    List Regex → Octets → Option Nat
  | all, s =>
    let best := if anyOpen atStart s.isEmpty all then some taken else best
    match all, s with
    | [], _ | _, [] => best
    | all, c :: s => longestFrom false best (taken + 1) (stepAll atStart c all) s

/-- How many characters the longest match takes with which a text begins. -/
def longest (r : Regex) (atStart : Bool) (s : Octets) : Option Nat :=
  longestFrom atStart none 0 [r] s

/-- Where the leftmost longest match of a text lies: how many characters stand before it, and how many
    it takes. -/
def find (r : Regex) (atStart : Bool) (before : Nat) : Octets → Option (Nat × Nat)
  | [] => (r.longest atStart []).map fun n => (before, n)
  | c :: s =>
    match r.longest atStart (c :: s) with
    | some n => some (before, n)
    | none => r.find false (before + 1) s

/-- Where the leftmost longest match of a text lies that takes a character. -/
def findFilled (r : Regex) (atStart : Bool) (before : Nat) : Octets → Option (Nat × Nat)
  | [] => none
  | c :: s =>
    match r.longest atStart (c :: s) with
    | some (n + 1) => some (before, n + 1)
    | _ => r.findFilled false (before + 1) s

/-- Whether one of some expressions matches with what a text begins, or the expression with a later
    part of it. -/
def holdsFrom (r : Regex) (atStart : Bool) : List Regex → Octets → Bool
  | all, s =>
    anyOpen atStart s.isEmpty all ||
      match s with
      | [] => false
      | c :: s => holdsFrom r false (r :: stepAll atStart c all).eraseDups s

/-- Whether an expression matches a part of a text. -/
def holds (r : Regex) (s : Octets) : Bool := r.holdsFrom true [r] s

end Regex

end LintRun.Command
