import LintRun.Command.Numeral
import LintRun.Command.Shell.Session

/-! The arguments of the commands that a shell does itself: options in letters, numbers, and names
    with values. No result rests on this module. -/

namespace LintRun.Command.Shell

/-- A command that a shell does itself: it is given its arguments, and leaves its status. -/
abbrev Builtin := List Octets → Session → Session

namespace Builtin

/-- The options of an argument after its dash. A letter with a flag takes a value, which is the rest
    of the argument or the next one. -/
def readLetters (letters : List (Char × Bool)) :
    Octets → List Octets → Except Octets (List (Char × Octets) × List Octets)
  | [], rest => .ok ([], rest)
  | c :: s, rest =>
    match letters.lookup c with
    | none => .error (Octets.ofString "Illegal option -" ++ [c])
    | some false => do
      let (given, rest) ← readLetters letters s rest
      return ((c, []) :: given, rest)
    | some true =>
      match s, rest with
      | [], [] => .error (Octets.ofString "No arg for -" ++ c :: Octets.ofString " option")
      | [], value :: rest => .ok ([(c, value)], rest)
      | value, rest => .ok ([(c, value)], rest)

/-- The options that some arguments begin with, and the other arguments. The first argument bounds
    their number. -/
def readOptionsWithin (letters : List (Char × Bool)) :
    Nat → List Octets → Except Octets (List (Char × Octets) × List Octets)
  | 0, rest => .ok ([], rest)
  | _ + 1, ['-', '-'] :: rest => .ok ([], rest)
  | fuel + 1, ('-' :: c :: s) :: rest => do
    let (given, rest) ← readLetters letters (c :: s) rest
    let (more, rest) ← readOptionsWithin letters fuel rest
    return (given ++ more, rest)
  | _ + 1, rest => .ok ([], rest)

/-- Goes on with the options that some arguments begin with and the other arguments, unless there is
    an option that is unknown. -/
def withOptions (letters : List (Char × Bool)) (arguments : List Octets) (s : Session)
    (next : List (Char × Octets) → List Octets → Session) : Session :=
  match readOptionsWithin letters (arguments.length + 1) arguments with
  | .ok (given, rest) => next given rest
  | .error text => s.fail text

/-- The highest number that an argument may write. -/
def numberMax : Int := 2147483647

/-- The number that an argument writes. -/
def number? (word : Octets) : Option Nat :=
  match Numeral.whole? false word with
  | some n => if 0 ≤ n && n ≤ numberMax then some n.toNat else none
  | none => none

/-- Gives up because of an argument that is no number. -/
def failNumber (word : Octets) (s : Session) : Session :=
  s.fail (Octets.ofString "Illegal number: " ++ word)

/-- Goes on with the number of the first argument, or with another one if there is none. -/
def withNumber (default : Nat) (arguments : List Octets) (s : Session) (next : Nat → Session) :
    Session :=
  match arguments with
  | [] => next default
  | word :: _ =>
    match number? word with
    | some n => next n
    | none => failNumber word s

/-- The name of an argument and the value behind its equals sign, if it has one. -/
def splitAssignment (word : Octets) : String × Option Octets :=
  let name := word.takeWhile (· ≠ '=')
  (String.ofList name, (word.drop name.length).tail?)

/-- The pieces of a text between single quotes and of the quotes themselves, as a shell reads
    them. -/
def requoted (text : Octets) : Octets :=
  '\'' :: go false text
where
  /-- The rest of a text, inside single or double quotes. -/
  go : Bool → Octets → Octets
    | double, [] => [if double then '"' else '\'']
    | false, '\'' :: s => '\'' :: '"' :: '\'' :: go true s
    | true, '\'' :: s => '\'' :: go true s
    | true, c :: s => '"' :: '\'' :: c :: go false s
    | false, c :: s => c :: go false s

/-- Does one thing after the other for some arguments, as long as the shell goes on. -/
def each (step : Octets → Session → Session) (arguments : List Octets) (s : Session) : Session :=
  arguments.foldl (fun s word => if s.isRunning then step word s else s) s

end Builtin

end LintRun.Command.Shell
