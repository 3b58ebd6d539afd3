import LintRun.Command.Format
import LintRun.Command.Regex.Basic

/-! How regular expressions are written. No result rests on this module. -/

namespace LintRun.Command.Regex

/-- Why a text is no regular expression. -/
inductive Fault where
  | operand
  | unclosed
  | set
  | interval
  | repeated
  | size
  deriving Repr, DecidableEq

/-- What is told of a text that is no regular expression. -/
def Fault.message : Fault → String
  | .operand => "missing operand"
  | .unclosed => "missing ')'"
  | .set => "bad class -- [], [^] or ["
  | .interval => "bad interval expression"
  | .repeated => "syntax error ^* or ^+"
  | .size => "resource exhaustion -- regular expression too large"

/-- The character that stands after a backslash, by a letter, by its number, or for itself. -/
def readEscape : Octets → Char × Octets
  | [] => ('\\', [])
  | 'x' :: s =>
    match (s.take 2).takeWhile fun c => (Text.digitOf 16 c).isSome with
    | [] => ('x', s)
    | ds => (Char.ofNat (Text.natOfDigits 16 (ds.filterMap Text.digitValue)), s.drop ds.length)
  | c :: s => (Format.readEscape (c :: s)).getD (c, s)

/-- The name of a class after its opening, and what follows it. -/
def readClass (s : Octets) : Except Fault (String × Octets) :=
  let name := s.takeWhile (· ≠ ':')
  match s.drop name.length with
  | ':' :: ']' :: rest =>
    if classNames.contains (String.ofList name) then .ok (String.ofList name, rest) else .error .set
  | _ => .error .set

/-- The character that a set goes on with, and what follows it. -/
def readMember : Octets → Option (Char × Octets)
  | [] => none
  | '\\' :: s => if s = [] then none else some (readEscape s)
  | c :: s => some (c, s)

/-- The parts of a set up to its closing bracket, which closes nothing at the beginning. The first
    argument bounds their number. -/
def readSet : Nat → (begun : Bool) → Octets → Except Fault (List SetPart × Octets)
  | 0, _, _ => .error .set
  | fuel + 1, begun, s =>
    match begun, s with
    | true, ']' :: rest => .ok ([], rest)
    | _, '[' :: ':' :: rest => do
      let (name, rest) ← readClass rest
      let (parts, rest) ← readSet fuel true rest
      return (.ofClass name :: parts, rest)
    | _, s =>
      match readMember s with
      | none => .error .set
      | some (first, rest) =>
        let single : Except Fault (List SetPart × Octets) := do
          let (parts, rest) ← readSet fuel true rest
          return (.range first first :: parts, rest)
        match rest with
        | '-' :: ']' :: _ | '-' :: '[' :: ':' :: _ => single
        | '-' :: more =>
          match readMember more with
          | some (last, more) =>
            if last < first then single
            else do
              let (parts, more) ← readSet fuel true more
              return (.range first last :: parts, more)
          | none => single
        | _ => single

/-- A set after its opening bracket. -/
def readBracket (s : Octets) : Except Fault (Regex × Octets) := do
  let negated := s.head? = some '^'
  let body := if negated then s.drop 1 else s
  let (parts, rest) ← readSet (body.length + 1) false body
  return (.one negated parts, rest)

/-- How often something is repeated: at least and at most. -/
structure Interval where
  least : Nat
  most : Option Nat
  deriving Repr, DecidableEq

/-- An interval after its opening brace; none if the brace opens nothing. -/
def readInterval? (s : Octets) : Option (Except Fault (Interval × Octets)) :=
  let (low, rest) := Text.spanDigits s
  let least := Text.natOfDigits 10 low
  match rest with
  | '\x7d' :: rest =>
    if low = [] then some (.error .interval)
    else some (.ok (⟨least, some least⟩, rest))
  | ',' :: rest =>
    let (high, rest) := Text.spanDigits rest
    match rest with
    | '\x7d' :: rest =>
      let most := Text.natOfDigits 10 high
      if low = [] && high = [] then some (.ok (⟨0, some 0⟩, rest))
      else if high = [] then some (.ok (⟨least, none⟩, rest))
      else if most < least then some (.error .interval)
      else some (.ok (⟨least, some most⟩, rest))
    | _ => none
  | _ => none

/-- The highest number of times that something is repeated. -/
def repeatMax : Nat := 1000

/-- An expression as often as an interval says. Single characters are repeated exactly as often as is
    asked for at least, if that is more than once. -/
def Interval.apply (i : Interval) (r : Regex) : Regex :=
  let most := i.most.map (min repeatMax)
  let least := min repeatMax i.least
  if 2 ≤ least && r.isPlain then r.times least
  else
    let first := if least = 0 then .empty else r
    match most with
    | none => first.andThen (.many r)
    | some n => first.andThen (r.atMost (if least = 0 then n else n - 1))

/-- How an expression is repeated. -/
inductive Repetition where
  | any
  | atLeastOnce
  | optional
  | interval (i : Interval)
  deriving Repr, DecidableEq

def Repetition.apply (r : Repetition) (e : Regex) : Regex :=
  match r with
  | .any => .many e
  | .atLeastOnce => e.atLeastOnce
  | .optional => e.optional
  | .interval i => i.apply e

/-- What waits for the expressions around it: an operator, or a parenthesis that was opened. -/
inductive Waiting where
  | either
  | sequence
  | repeated (r : Repetition)
  | group
  deriving Repr, DecidableEq

/-- The expressions that were read so far, the last one first, when one that waited gets its own. It may
    get some from outside of its parentheses, and a sequence does with one. -/
def Waiting.combine : Waiting → List Regex → Except Fault (List Regex)
  | .either, b :: a :: rest => .ok (.either a b :: rest)
  | .either, _ => .error .operand
  | .sequence, b :: a :: rest => .ok (.sequence a b :: rest)
  | .sequence, rest => .ok rest
  | .repeated r, a :: rest => .ok (r.apply a :: rest)
  | .repeated _, [] => .error .operand
  | .group, rest => .ok rest

/-- Whether something that waits gets its expressions before an operator begins to wait. -/
def Waiting.isBefore (w next : Waiting) : Bool :=
  match w, next with
  | .group, _ | _, .group => false
  | _, .either => true
  | .repeated _, _ => true
  | .sequence, .sequence => true
  | _, _ => false

/-- The expressions that were read so far, and what waits for expressions, the last one first. -/
structure Parsing where
  read : List Regex := []
  waiting : List Waiting := []

namespace Parsing

/-- Gives expressions to what waits, as long as it is ready. -/
def settle (isReady : Waiting → Bool) : List Waiting → List Regex → Except Fault Parsing
  | [], read => .ok { read }
  | w :: waiting, read =>
    if isReady w then do settle isReady waiting (← w.combine read)
    else .ok { read, waiting := w :: waiting }

def await (p : Parsing) (w : Waiting) : Except Fault Parsing := do
  let p ← settle (·.isBefore w) p.waiting p.read
  return { p with waiting := w :: p.waiting }

/-- What is read when the next expression is to be joined to the one before it. -/
def joined (p : Parsing) (joins : Bool) : Except Fault Parsing :=
  if joins then p.await .sequence else .ok p

/-- Gives expressions to all that waits up to the last parenthesis. -/
def settled (p : Parsing) : Except Fault Parsing := settle (· ≠ .group) p.waiting p.read

/-- What is read when a parenthesis closes; some expression must have been read before. -/
def closed (p : Parsing) : Except Fault Parsing := do
  let p ← p.settled
  if p.read.isEmpty then throw .operand
  return { p with waiting := p.waiting.drop 1 }

/-- The expression that was read in the end. -/
def result (p : Parsing) : Except Fault Regex := do
  let p ← p.settled
  match p.waiting, p.read with
  | _ :: _, _ => .error .unclosed
  | [], [r] => .ok r
  | [], _ => .error .operand

/-- Reads on to the end of a text, with a number of open parentheses; `joins` tells whether an
    expression stands before. The first argument bounds the characters. -/
def run : Nat → (depth : Nat) → (joins : Bool) → Parsing → Octets → Except Fault Regex
  | 0, _, _, _, _ => .error .size
  | fuel + 1, depth, joins, p, s =>
    let operand := fun (r : Regex) (rest : Octets) => do
      let p ← p.joined joins
      run fuel depth true { p with read := r :: p.read } rest
    let repeats := fun (r : Repetition) (rest : Octets) => do
      run fuel depth true (← p.await (.repeated r)) rest
    match s with
    | [] => p.result
    | '|' :: rest => do run fuel depth false (← p.await .either) rest
    | '*' :: rest => repeats .any rest
    | '+' :: rest => repeats .atLeastOnce rest
    | '?' :: rest => repeats .optional rest
    | '\x7b' :: rest =>
      match readInterval? rest with
      | none => operand (.char '\x7b') rest
      | some (.error e) => .error e
      | some (.ok (i, rest)) =>
        if p.read.isEmpty then .error .size else repeats (.interval i) rest
    | '(' :: rest => do
      let p ← p.joined joins
      run fuel (depth + 1) false (← p.await .group) rest
    | ')' :: rest =>
      if depth = 0 then operand (.char ')') rest
      else do run fuel (depth - 1) true (← p.closed) rest
    | '[' :: rest => do
      let p ← p.joined joins
      let (r, rest) ← readBracket rest
      run fuel depth true { p with read := r :: p.read } rest
    | '.' :: rest => operand .any rest
    | '^' :: '*' :: _ | '^' :: '+' :: _ => do
      let _ ← p.joined joins
      throw .repeated
    | '^' :: rest => operand .start rest
    | '$' :: rest => operand .finish rest
    | '\\' :: rest => let (c, rest) := readEscape rest; operand (.char c) rest
    | c :: rest => operand (.char c) rest

end Parsing

/-- The regular expression that a text writes. -/
def read (s : Octets) : Except Fault Regex :=
  if s = [] then .ok .empty else Parsing.run (s.length + 1) 0 false {} s

end LintRun.Command.Regex
