import LintRun.Command.Shell.Script
import LintRun.Text.Digits

/-! The state of reading a script: what is left of its text, and what was read last.

    A backslash at the end of a line joins it to the next one, nearly everywhere. The text of a
    here-document follows the line that names it, and is due until then.

    No result rests on this module. -/

namespace LintRun.Command.Shell

/-- What is wrong with a script, and the line in which that shows. -/
structure SyntaxError where
  line : Nat
  text : String
  deriving Repr, DecidableEq

/-- The sign of a redirection, before its target. -/
inductive RedirectSign where
  | file (descriptor : Nat) (mode : FileMode)
  | join (descriptor : Nat)
  | document (descriptor : Nat) (stripped : Bool)
  deriving Repr, DecidableEq

/-- A word or a mark of a script. -/
inductive Token where
  | finish
  | newline
  | mark (s : String)
  | reserved (s : String)
  | word (w : Word)
  | redirect (sign : RedirectSign)

/-- A token as messages call it. -/
def Token.describe : Token → String
  | .finish => "end of file"
  | .newline => "newline"
  | .mark s | .reserved s => s!"\"{s}\""
  | .word _ => "word"
  | .redirect _ => "redirection"

/-- Whether a token is a certain mark. -/
def Token.isMark (t : Token) (s : String) : Bool :=
  match t with
  | .mark m => m = s
  | _ => false

/-- Whether a token is a certain reserved word. -/
def Token.isReserved (t : Token) (s : String) : Bool :=
  match t with
  | .reserved r => r = s
  | _ => false

/-- Words that have a meaning of their own where a command may begin. -/
def reservedWords : List String :=
  ["!", "case", "do", "done", "elif", "else", "esac", "fi", "for", "if", "in", "then", "until",
    "while", "\x7b", "\x7d"]

/-- A here-document whose text is still to come. -/
structure Due where
  key : Nat
  delimiter : Octets
  stripped : Bool
  expanded : Bool
  deriving Repr, DecidableEq

/-- What the next token is looked at for: whether line ends are passed over, and whether reserved
    words count. -/
structure Heed where
  skipLines : Bool := false
  reserved : Bool := false
  deriving Repr, DecidableEq

/-- What is left of a script, the token that was read last, and whether it is to be read once
    more. -/
structure Reading where
  rest : Octets
  line : Nat := 1
  last : Token := .newline
  again : Bool := false
  heed : Heed := {}
  due : List Due := []
  documents : List (Nat × Word) := []
  nextKey : Nat := 0

/-- What reading gives: a value and what is left, or what is wrong. -/
abbrev Read := StateT Reading (Except SyntaxError)

namespace Reading

/-- Fails in the line that has been reached. -/
def fail {α : Type} (r : Reading) (text : String) : Except SyntaxError α := .error ⟨r.line, text⟩

/-- A text without the joined line ends that it begins with, and how many there were. -/
def dropJoins : Nat → Octets → Nat × Octets
  | n, '\\' :: '\n' :: s => dropJoins (n + 1) s
  | n, s => (n, s)

/-- What is left behind joined line ends. -/
def joined (r : Reading) : Reading :=
  let (n, rest) := dropJoins 0 r.rest
  { r with rest, line := r.line + n }

/-- The next character as it stands. -/
def take? (r : Reading) : Option (Char × Reading) :=
  match r.rest with
  | [] => none
  | c :: rest => some (c, { r with rest, line := if c = '\n' then r.line + 1 else r.line })

/-- The next character behind joined line ends. -/
def next? (r : Reading) : Option (Char × Reading) := r.joined.take?

/-- The next character behind joined line ends, which is not taken. -/
def peek? (r : Reading) : Option Char := r.joined.rest.head?

/-- The characters up to the first one that fails a test, across joined line ends; `done` holds
    those that were read, last first. The first argument bounds their number. -/
def span (p : Char → Bool) : Nat → Octets → Reading → Octets × Reading
  | 0, done, r => (done.reverse, r)
  | fuel + 1, done, r =>
    match r.next? with
    | some (c, after) => if p c then span p fuel (c :: done) after else (done.reverse, r)
    | none => (done.reverse, r)

/-- The bound that what is left sets for a loop over it. -/
def bound (r : Reading) : Nat := r.rest.length + 2

end Reading

end LintRun.Command.Shell
