import LintRun.Command.Shell.Builtin.Control
import LintRun.Command.Shell.Builtin.Plain
import LintRun.Command.Shell.Builtin.Variables

/-! What the name of a command stands for. No result rests on this module. -/

namespace LintRun.Command.Shell

/-- The commands that a shell does itself. The ones that run others are only named here. -/
def builtins : List (String × Builtin) :=
  [(":", Builtin.outcome 0), ("true", Builtin.outcome 0), ("false", Builtin.outcome 1),
    ("echo", Builtin.echo), ("printf", Builtin.printf), ("test", Builtin.test),
    ("[", Builtin.bracket), ("pwd", Builtin.pwd), ("cd", Builtin.cd), ("chdir", Builtin.cd),
    ("umask", Builtin.umask), ("times", Builtin.times), ("ulimit", Builtin.ulimit),
    ("jobs", Builtin.outcome 0), ("fg", Builtin.job), ("bg", Builtin.job),
    ("export", Builtin.export_), ("readonly", Builtin.readonly), ("local", Builtin.local_),
    ("unset", Builtin.unset), ("shift", Builtin.shift), ("set", Builtin.set),
    ("alias", Builtin.alias_), ("unalias", Builtin.unalias),
    ("getopts", Builtin.getopts), ("read", Builtin.read), ("exit", Builtin.exit),
    ("return", Builtin.return_), ("break", Builtin.leave .breaking),
    ("continue", Builtin.leave .continuing), ("trap", Builtin.trap), ("kill", Builtin.kill),
    ("wait", Builtin.wait)]

/-- The commands that a shell does itself and that run others or look them up. -/
def runningBuiltins : List String := [".", "command", "eval", "exec", "hash", "type"]

/-- Whether a shell does the command of a name itself. -/
def isBuiltin (name : String) : Bool :=
  (builtins.lookup name).isSome || runningBuiltins.contains name

/-- Whether a command that a shell does itself is one whose errors end the shell. -/
def isSpecialBuiltin (name : String) : Bool := specialNamesOfCommands.contains name

def programDirectories : List String := ["/usr/bin", "/bin"]

def programName? (path : String) : Option String :=
  programDirectories.findSome? fun directory =>
    let start := (directory ++ "/").toList
    if start.isPrefixOf path.toList then some (String.ofList (path.toList.drop start.length))
    else none

/-- The path of a program that is looked up by its name. -/
def Session.pathOf? (s : Session) (r : Runner) (name : String) : Option String :=
  let searched := ((s.value? "PATH").map Octets.toText).getD "/usr/bin"
  let directories := searched.splitOn ":"
  if (r.program name).isSome then
    (directories.find? programDirectories.contains).map (· ++ "/" ++ name)
  else none

/-- What a name stands for. -/
inductive Meaning where
  | reserved
  | function
  | builtin (special : Bool)
  | program (path : String) (known : Bool)
  | nothing
  deriving Repr, DecidableEq

/-- Whether a path leads to a program or to a file of any kind. -/
def Session.holdsPath (s : Session) (r : Runner) (name : String) : Bool :=
  ((programName? name).bind r.program).isSome || s.machine.tree.holds ⟨name⟩

def Session.meaning (s : Session) (r : Runner) (word : Octets) : Meaning :=
  let name := Octets.toText word
  if reservedWords.contains name then .reserved
  else if word.contains '/' then if s.holdsPath r name then .program name false else .nothing
  else if (s.functions.lookup name).isSome then .function
  else if isBuiltin name then .builtin (isSpecialBuiltin name)
  else match s.pathOf? r name with
    | some path => .program path (s.known.contains word)
    | none => .nothing

/-- What a name stands for, in words. -/
def Meaning.describe : Meaning → String
  | .reserved => " is a shell keyword"
  | .function => " is a shell function"
  | .builtin true => " is a special shell builtin"
  | .builtin false => " is a shell builtin"
  | .program path true => s!" is a tracked alias for {path}"
  | .program path false => s!" is {path}"
  | .nothing => ": not found"

/-- Tells what a name stands for, in words or as it can be called. -/
def describeCommand (r : Runner) (inWords : Bool) (word : Octets) (s : Session) : Session :=
  let meaning := s.meaning r word
  let text : Octets :=
    if inWords then word ++ Octets.ofString (meaning.describe ++ "\n")
    else match meaning with
      | .program path _ => Octets.ofString (path ++ "\n")
      | .nothing => []
      | _ => word ++ ['\n']
  let known := match meaning with
    | .program _ false => if word.contains '/' then s.known else word :: s.known
    | _ => s.known
  { s.print text with known, status := if meaning = .nothing then 127 else s.status }

/-- Tells what some names stand for. -/
def typeOf (r : Runner) : Builtin := fun arguments s =>
  arguments.foldl (fun s word => describeCommand r true word s) { s with status := 0 }

def hash (r : Runner) : Builtin := fun arguments s =>
  Builtin.withOptions [('r', false)] arguments s fun _ names =>
    names.foldl (fun s word =>
      match s.meaning r word with
      | .nothing => { s.complain (word ++ Octets.ofString ": not found") with status := 1 }
      | _ => { s with known := word :: s.known }) { s with status := 0 }

/-- The command that is to be called: its name and arguments, whether its errors end the shell,
    whether functions are passed over, and whether it takes the place of the shell. -/
structure Call where
  words : List Octets
  special : Bool := false
  direct : Bool := false
  replaces : Bool := false
  deriving Repr, DecidableEq

/-- The words behind `command` and its options, if these only have another command called. -/
def behindCommand : List Octets → Option (List Octets)
  | [] => none
  | ['-', '-'] :: rest => if rest = [] then none else some rest
  | ('-' :: c :: s) :: rest =>
    if (c :: s).all (· = 'p') then behindCommand rest else none
  | rest => some rest

/-- The command that some words call. The first argument bounds how often they say so. -/
def Call.ofWordsWithin (s : Session) : Nat → Bool → List Octets → Call
  | 0, direct, words => { words, direct }
  | _ + 1, direct, [] => { words := [], direct }
  | fuel + 1, direct, name :: rest =>
    let text := Octets.toText name
    if !direct && (s.functions.lookup text).isSome then { words := name :: rest }
    else match if text = "command" then behindCommand rest else none with
      | some words => { Call.ofWordsWithin s fuel true words with special := false }
      | none =>
        { words := name :: rest, direct, replaces := text = "exec"
          special := !direct && isSpecialBuiltin text }

def Call.ofWords (s : Session) (words : List Octets) : Call :=
  Call.ofWordsWithin s (words.length + 1) false words

/-- Whether the command of some words takes assignments as arguments. -/
def takesAssignments (s : Session) (words : List Octets) : Bool :=
  match (Call.ofWords s words).words with
  | name :: _ => ["export", "readonly", "local"].contains (Octets.toText name)
  | [] => false

end LintRun.Command.Shell
