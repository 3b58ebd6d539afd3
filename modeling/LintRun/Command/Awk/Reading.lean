import LintRun.Command.Awk.Script
import LintRun.Command.Regex.Reader

/-! The state of reading a program: what is left of its text, what was read last, and what is wrong
    with it.

    An error does not end the reading. What follows up to the end of the statement is passed over,
    and errors are told as long as there are not too many of them.

    No result rests on this module. -/

namespace LintRun.Command.Awk

/-- A token of a program. -/
inductive Token where
  | number (x : Float) (spelled : Octets)
  | text (s : Octets)
  | regex (spelled : Octets) (r : Regex)
  | name (s : String)
  | called (s : String)
  | builtin (s : String)
  | field (n : Float)
  | count
  | word (s : String)
  | mark (s : String)
  | outlet (o : Outlet)
  | intake
  | semicolon (faked : Bool)
  | newline
  | odd (c : Char)
  | finish
  deriving Inhabited

namespace Token

/-- A token as messages call it. -/
def describe : Token → Octets
  | .number _ s | .text s => s
  | .regex s _ => '/' :: s ++ ['/']
  | .name s | .called s | .builtin s | .word s | .mark s => Octets.ofString s
  | .field _ | .count => ['$']
  | .outlet .file => ['>']
  | .outlet .append => ['>', '>']
  | .outlet .command => ['|']
  | .intake => ['<']
  | .semicolon faked => if faked then ['\x7d'] else [';']
  | .newline => Octets.ofString "end of line"
  | .odd c => [c]
  | .finish => Octets.ofString "end of file"

/-- Whether a token is a certain mark. -/
def isMark (t : Token) (s : String) : Bool :=
  match t with
  | .mark m => m = s
  | _ => false

/-- Whether a token is a certain word. -/
def isWord (t : Token) (s : String) : Bool :=
  match t with
  | .word w => w = s
  | _ => false

/-- Whether a token ends a statement. -/
def isSeparator : Token → Bool
  | .semicolon _ | .newline => true
  | _ => false

end Token

/-- What a name of the whole program stands for. -/
inductive Kind where
  | variable
  | array
  | function
  deriving Repr, DecidableEq

/-- A kind as messages call it. -/
def Kind.describe : Kind → String
  | .variable => "variable"
  | .array => "array"
  | .function => "function"

/-- What is known of an argument of a function: its kind, or the name that it consists of, which may
    stand for an array. -/
inductive Given where
  | known (kind : Kind)
  | named (name : Name)
  deriving Repr, DecidableEq

/-- A call of a function with arguments of which it is not known yet whether they fit its parameters:
    the line of the call, the function, the arguments with their numbers, and the function that the
    call stands in. `counted` tells whether it is known that there are not too many of them. -/
structure Calling where
  line : Nat
  function : String
  arguments : List (Given × Nat)
  owner : String
  counted : Bool
  deriving Repr, DecidableEq

/-- A text that is part of a program, and the file that it comes from, if it comes from one. -/
structure Origin where
  file : Option Octets := none
  text : Octets
  deriving Repr, DecidableEq

/-- The state of reading a program. `before` is the token that was read last, and `peeked` the same
    one as long as nothing has been made of it. `quiet` counts the tokens for which no error is told
    after another one. `hints` holds what the last call of a function tells of one of its
    parameters, and `callings` the calls that are to be compared with functions, last one first. -/
structure Reading where
  rest : Octets
  file : Option Octets := none
  later : List Origin := []
  line : Nat := 1
  tokenLine : Nat := 1
  before : Token := .newline
  peeked : Option Token := none
  parens : Nat := 0
  braces : Nat := 0
  printing : Bool := false
  getting : Bool := false
  quiet : Nat := 0
  kinds : List (String × Kind) := []
  parameters : Option (List (String × Option Kind)) := none
  complaints : List Octets := []
  functions : List Definition := []
  owner : String := ""
  signatures : List (String × List (Option Kind)) := []
  hints : List (String × Nat × Kind) := []
  callings : List Calling := []
  ranges : Nat := 0
  mayNext : Bool := false
  loops : Nat := 0
  deriving Inhabited

/-- Why a part of a program was not read: it is none, or nothing more is read at all. -/
inductive Stop where
  | wrong
  | over
  deriving Repr, DecidableEq

/-- Reading a part of a program. -/
abbrev Reader := EStateM Stop Reading

/-- How many errors are told before nothing more is read. -/
def complaintMax : Nat := 5

namespace Reader

/-- What stands before an error of the file that is read. -/
def filePart : Reader Octets := do
  return match (← get).file with
    | some name => name ++ [':', ' ']
    | none => []

/-- Tells an error in a line. -/
def complainAt (line : Nat) (text : Octets) : Reader Unit := do
  let text := (← filePart) ++ Octets.ofString s!"line {line}: " ++ text
  modify fun s => { s with complaints := text :: s.complaints }
  if complaintMax ≤ (← get).complaints.length then throw .over

/-- Tells an error in the line of the last token. -/
def complain (text : String) : Reader Unit := do
  complainAt (← get).tokenLine (Octets.ofString text)

/-- Tells an error and reads nothing more. -/
def giveUp {α : Type} (text : Octets) : Reader α := do
  let text := (← filePart) ++ Octets.ofString s!"line {(← get).tokenLine}: " ++ text
  modify fun s => { s with complaints := text :: s.complaints }
  throw .over

/-- Tells of a character that can stand nowhere. -/
def complainOdd (c : Char) : Reader Unit := do
  let shown := if isPrintable c then ['\'', c, '\'']
    else Octets.ofString "0x" ++
      [Nat.digitChar (c.toNat / 16), Nat.digitChar (c.toNat % 16)]
  let text := Octets.ofString s!"{(← get).tokenLine}: unexpected character " ++ shown
  modify fun s => { s with complaints := text :: s.complaints }
  if complaintMax ≤ (← get).complaints.length then throw .over

def rest : Reader Octets := return (← get).rest

def setRest (rest : Octets) : Reader Unit := modify fun s => { s with rest }

def countLine : Reader Unit := modify fun s => { s with line := s.line + 1 }

/-- Whether a character is white space that ends no line. -/
def isBlank (c : Char) : Bool := c ≠ '\n' && Numeral.isSpace c

def skipBlanks : Reader Unit := modify fun s => { s with rest := s.rest.dropWhile isBlank }

def skipComment : Reader Unit := modify fun s => { s with rest := s.rest.dropWhile (· ≠ '\n') }

/-- Passes over white space, comments and ends of lines. The first argument bounds their number. -/
def skipLinesWithin : Nat → Reader Unit
  | 0 => return
  | fuel + 1 => do
    skipBlanks
    match ← rest with
    | '#' :: _ =>
      skipComment
      skipLinesWithin fuel
    | '\n' :: more =>
      setRest more
      countLine
      skipLinesWithin fuel
    | '\\' :: more =>
      match more.dropWhile isBlank with
      | '\n' :: more =>
        setRest more
        countLine
        skipLinesWithin fuel
      | _ => return
    | _ => return

/-- Passes over white space, comments and ends of lines. -/
def skipLines : Reader Unit := do skipLinesWithin ((← rest).length + 1)

def skipSemicolon : Reader Unit := do
  match (← rest).dropWhile isBlank with
  | ';' :: more => setRest more
  | more => setRest more

/-- The kind of a name of the whole program. -/
def kind? (name : String) : Reader (Option Kind) := return (← get).kinds.lookup name

/-- Notes the kind of a name of the whole program. -/
def setKind (name : String) (kind : Kind) : Reader Unit :=
  modify fun s => { s with kinds := (name, kind) :: s.kinds }

/-- Tells that something cannot stand where it does. -/
def misfit (what name : String) : Reader Unit := complain s!"illegal reference to {what} {name}"

/-- What is known of a parameter of a function. -/
def parameterKind? (function : String) (i : Nat) : Reader (Option Kind) := do
  return ((← get).signatures.lookup function).bind fun kinds => kinds[i]?.join

/-- Notes what a parameter of a function is. -/
def setParameterKind (function : String) (i : Nat) (kind : Kind) : Reader Unit :=
  modify fun s =>
    let old := (s.signatures.lookup function).getD []
    let new := (old ++ List.replicate (i + 1 - old.length) none).set i (some kind)
    { s with signatures := (function, new) :: s.signatures.filter (·.1 ≠ function) }

/-- What a name stands for where something of a kind is expected. -/
def resolve (name : String) (expected : Option Kind) : Reader Name := do
  let s ← get
  let own := s.parameters.getD []
  match own.findIdx? (·.1 = name) with
  | some i =>
    match own[i]?.bind (·.2), expected with
    | some kind, some expected =>
      if kind ≠ expected then misfit s!"local {kind.describe}" name
    | none, some expected =>
      set { s with parameters := some (own.set i (name, some expected)) }
      setParameterKind s.owner i expected
    | _, none => pure ()
    return .own i
  | none =>
    match s.kinds.lookup name, expected with
    | some kind, some expected => if kind ≠ expected then misfit kind.describe name
    | none, some expected => setKind name expected
    | _, none => pure ()
    return .shared name

/-- The kind of a name that stands in a function. -/
def kindOf (owner : String) : Name → Reader (Option Kind)
  | .shared name => kind? name
  | .own i => parameterKind? owner i

/-- Notes the kind of a name that stands in a function. -/
def setKindOf (owner : String) (n : Name) (kind : Kind) : Reader Unit :=
  match n with
  | .shared name => setKind name kind
  | .own i => setParameterKind owner i kind

/-- The kind of an argument that stands in a function. -/
def kindOfGiven (owner : String) : Given → Reader (Option Kind)
  | .known kind => return some kind
  | .named n => kindOf owner n

/-- Tells that an argument of a call is not what the parameter is. -/
def misfitArgument (c : Calling) (i : Nat) (actual formal : Kind) : Reader Unit :=
  complainAt c.line (Octets.ofString (s!"type error in arg({i + 1}) in call to {c.function} " ++
    s!"(actual local {actual.describe} vs local {formal.describe})"))

/-- Compares an argument with its parameter, and tells whether anything is known of either. -/
def settle (c : Calling) (given : Given) (i : Nat) : Reader Bool := do
  match ← kindOfGiven c.owner given, ← parameterKind? c.function i with
  | some actual, some formal =>
    if actual ≠ formal then misfitArgument c i actual formal
    return true
  | some actual, none =>
    setParameterKind c.function i actual
    return true
  | none, some formal =>
    match given with
    | .known _ => return true
    | .named n =>
      setKindOf c.owner n formal
      return true
  | none, none => return false

/-- Compares the arguments of a call with the parameters, and gives those that stay unknown, in the
    opposite order. -/
def compareArguments (c : Calling) : Reader (List (Given × Nat)) :=
  c.arguments.foldlM (fun left (given, i) => do
    return if ← settle c given i then left else (given, i) :: left) []

/-- Compares the arguments of calls with parameters as long as more becomes known of them. The first
    argument bounds the passes. -/
def settleAll : Nat → List Calling → Reader Unit
  | 0, _ => return
  | fuel + 1, all => do
    let left ← all.foldlM (fun left c => do
      let waiting ← compareArguments c
      return if waiting = [] then left else { c with arguments := waiting } :: left) []
    let size := fun (calls : List Calling) => calls.foldl (fun n c => n + c.arguments.length) 0
    if size left < size all then settleAll fuel left

end Reader

end LintRun.Command.Awk
