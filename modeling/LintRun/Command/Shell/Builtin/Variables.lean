import LintRun.Command.Shell.Builtin.Arguments
import LintRun.Command.Shell.Expand

/-! The commands of a shell on variables, arguments and options. No result rests on this module. -/

namespace LintRun.Command.Shell.Builtin

/-- Lists the variables with a mark as commands that make them. -/
def listVariables (title : String) (p : Variable → Bool) (s : Session) : Session :=
  let lines := ((s.vars.filter p).mergeSort fun a b => a.name ≤ b.name).map fun v =>
    let value := match v.value with
      | some text => '=' :: requoted text
      | none => []
    Octets.ofString (title ++ v.name) ++ value ++ ['\n']
  { s.print lines.flatten with status := 0 }

/-- Sets a mark of variables and perhaps their values. -/
def mark (set : Variable → Variable) (arguments : List Octets) (s : Session) : Session :=
  let step := fun word (s : Session) =>
    let (name, value) := splitAssignment word
    let s := match value with
      | some text => s.assign name text
      | none => s
    if s.isRunning then s.change name set else s
  let after := each step arguments s
  if after.isRunning then { after with status := 0 } else after

def export_ : Builtin := fun arguments s =>
  withOptions [('p', false)] arguments s fun given rest =>
    if given ≠ [] || rest = [] then listVariables "export " (·.exported) s
    else mark (fun v => { v with exported := true }) rest s

def readonly : Builtin := fun arguments s =>
  withOptions [('p', false)] arguments s fun given rest =>
    if given ≠ [] || rest = [] then listVariables "readonly " (·.readOnly) s
    else mark (fun v => { v with readOnly := true }) rest s

/-- Has variables be what they are now once the function that is running has ended. -/
def local_ : Builtin := fun arguments s =>
  match s.frames with
  | [] => s.fail (Octets.ofString "not in a function")
  | _ =>
    let step := fun word (s : Session) =>
      let (name, value) := splitAssignment word
      let saved := (name, s.variableAt? name)
      let frames := match s.frames with
        | frame :: outer => (saved :: frame) :: outer
        | [] => []
      let s := { s with frames }
      match value with
      | some text => s.assign name text
      | none => s.change name id
    let after := each step arguments s
    if after.isRunning then { after with status := 0 } else after

def unset : Builtin := fun arguments s =>
  withOptions [('f', false), ('v', false)] arguments s fun given rest =>
    let isFunction := given.getLast?.any (·.1 = 'f')
    let step := fun word (s : Session) =>
      let name := Octets.toText word
      if isFunction then { s with functions := s.functions.filter (·.1 ≠ name) }
      else if !isName word then s.failAt word "bad variable name"
      else if (s.variableAt? name).any (·.readOnly) then s.failAt word "is read only"
      else s.dropVariable name
    let after := each step rest s
    if after.isRunning then { after with status := 0 } else after

/-- Tells or sets what names stand for. -/
def alias_ : Builtin := fun arguments s =>
  let line := fun (name value : Octets) => name ++ '=' :: requoted value ++ ['\n']
  match arguments with
  | [] =>
    let sorted := s.aliases.mergeSort fun a b => a.1.le b.1
    { s.print (sorted.flatMap fun (name, value) => line name value) with status := 0 }
  | words => words.foldl (fun s word =>
    let (name, value) := splitAssignment word
    let key := Octets.ofString name
    match value, s.aliases.lookup key with
    | some value, _ => { s with aliases := (key, value) :: s.aliases.filter (·.1 ≠ key) }
    | none, some old => s.print (line key old)
    | none, none =>
      { s.write 2 (Octets.ofString "alias: " ++ word ++ Octets.ofString " not found\n") with
        status := 1 }) { s with status := 0 }

/-- Has names no longer stand for anything. -/
def unalias : Builtin := fun arguments s =>
  withOptions [('a', false)] arguments s fun given rest =>
    if given ≠ [] then { s with aliases := [], status := 0 }
    else rest.foldl (fun s word =>
      if (s.aliases.lookup word).isSome then
        { s with aliases := s.aliases.filter (·.1 ≠ word) }
      else
        { s.write 2 (Octets.ofString "unalias: " ++ word ++ Octets.ofString " not found\n") with
          status := 1 }) { s with status := 0 }

/-- Drops the first arguments of the script. -/
def shift : Builtin := fun arguments s =>
  withNumber 1 arguments s fun n =>
    if s.arguments.length < n then s.fail (Octets.ofString "can't shift that many")
    else { s with arguments := s.arguments.drop n, status := 0 }

/-- The options with their letters, in the order in which they are listed. -/
def optionNames : List (String × Char) :=
  [("errexit", 'e'), ("noglob", 'f'), ("ignoreeof", 'I'), ("interactive", 'i'), ("monitor", 'm'),
    ("noexec", 'n'), ("stdin", 's'), ("xtrace", 'x'), ("verbose", 'v'), ("vi", 'V'),
    ("emacs", 'E'), ("noclobber", 'C'), ("allexport", 'a'), ("notify", 'b'), ("nounset", 'u'),
    ("privileged", 'p'), ("nolog", '\x01'), ("debug", '\x02')]

/-- Lists the options, as they are or as commands that set them. -/
def listOptions (asCommands : Bool) (s : Session) : Session :=
  let line := fun (entry : String × Char) =>
    let on := s.hasOption entry.2
    if asCommands then (if on then "set -o " else "set +o ") ++ entry.1 ++ "\n"
    else
      let fill := String.ofList (List.replicate (16 - entry.1.length) ' ')
      entry.1 ++ fill ++ (if on then "on\n" else "off\n")
  let title := if asCommands then "" else "Current option settings\n"
  s.print (Octets.ofString (title ++ String.join (optionNames.map line)))

/-- Sets an option by its letter. -/
def setLetter (on : Bool) (c : Char) (s : Session) : Session :=
  if (optionNames.map (·.2)).contains c && c.isAlpha then s.setOption c on
  else s.fail (Octets.ofString "Illegal option -" ++ [c])

/-- Sets an option by its name; without one all options are listed. -/
def setNamed (on : Bool) (name : Option Octets) (s : Session) : Session :=
  match name with
  | none => listOptions (!on) s
  | some word =>
    match optionNames.lookup (Octets.toText word) with
    | some c => s.setOption c on
    | none => s.fail (Octets.ofString "Illegal option -o " ++ word)

/-- Sets the options of an argument, with the arguments behind it. -/
def setLetters (on : Bool) : Octets → List Octets → Session → List Octets × Session
  | [], rest, s => (rest, s)
  | 'o' :: letters, rest, s =>
    let s := setNamed on rest.head? s
    if s.isRunning then setLetters on letters (rest.drop 1) s else (rest, s)
  | c :: letters, rest, s =>
    let s := setLetter on c s
    if s.isRunning then setLetters on letters rest s else (rest, s)

/-- Sets options and, if others are given, the arguments of the script. The first argument bounds
    the arguments that are read. -/
def setFrom : Nat → Builtin
  | 0, _, s => s
  | fuel + 1, arguments, s =>
    if !s.isRunning then s
    else match arguments with
      | [] => s
      | ['-', '-'] :: rest => { s with arguments := rest }
      | ['-'] :: rest =>
        let s := (s.setOption 'x' false).setOption 'v' false
        if rest = [] then s else { s with arguments := rest }
      | ('-' :: letters) :: rest =>
        let (rest, s) := setLetters true letters rest s
        setFrom fuel rest s
      | ('+' :: letters) :: rest =>
        let (rest, s) := setLetters false letters rest s
        setFrom fuel rest s
      | rest => { s with arguments := rest }

/-- Sets options and the arguments of the script, or lists all variables. -/
def set : Builtin := fun arguments s =>
  if arguments = [] then listVariables "" (·.value.isSome) s
  else setFrom (arguments.length + 1) arguments { s with status := 0 }

/-- What reading the next option gives: the letter for the variable, the value, if there is any, the
    index of the next argument and the place in it, and whether there was none. -/
structure NextOption where
  letter : Char := '?'
  value : Option Octets := none
  index : Nat
  offset : Nat := 0
  complaint : Option String := none
  atEnd : Bool := false

/-- The next option of some arguments, of which an index tells the next one and an offset the place
    in the one before it. -/
def nextOption (spec : Octets) (arguments : List Octets) (index offset : Nat) : NextOption :=
  let quiet := spec.head? = some ':'
  let current := if offset = 0 then [] else (arguments.getD (index - 2) []).drop offset
  let found : Option (Octets × Nat × Nat) :=
    if current ≠ [] then some (current, index, offset)
    else match arguments[index - 1]? with
      | some ('-' :: c :: s) => some (c :: s, index + 1, 1)
      | _ => none
  match found with
  | none => { index, atEnd := true }
  | some (text, index, offset) =>
    if offset = 1 && text = ['-'] && current = [] then { index, atEnd := true }
    else
      let c := text.headD '?'
      let rest := text.drop 1
      match if c = ':' then [] else spec.dropWhile (· ≠ c) with
      | [] =>
        if quiet then { value := some [c], index, offset := offset + 1 }
        else { index, offset := offset + 1, complaint := some s!"Illegal option -{c}\n" }
      | _ :: ':' :: _ =>
        if rest ≠ [] then { letter := c, value := some rest, index }
        else match arguments[index - 1]? with
          | some value => { letter := c, value := some value, index := index + 1 }
          | none =>
            if quiet then { letter := ':', value := some [c], index }
            else { index, complaint := some s!"No arg for -{c} option\n" }
      | _ =>
        { letter := c, value := some [], index, offset := if rest = [] then 0 else offset + 1 }

/-- Gives variables the next option of the arguments and its value. -/
def getopts : Builtin := fun arguments s =>
  match arguments with
  | spec :: name :: rest =>
    let all := if rest = [] then s.arguments else rest
    let index := max 1 (((s.value? "OPTIND").bind number?).getD 1)
    let found := nextOption spec all index s.optionOffset
    let s := match found.complaint with
      | some text => s.write 2 (Octets.ofString text)
      | none => s
    let s := match found.value with
      | some value => s.assign "OPTARG" value
      | none => if found.complaint.isSome then s.dropVariable "OPTARG" else s
    let s := s.assign "OPTIND" (toString found.index).toList
    let s := s.assign (Octets.toText name) [found.letter]
    if s.isRunning then
      { s with optionOffset := found.offset, status := if found.atEnd then 1 else 0 }
    else s
  | _ => s.fail (Octets.ofString "Usage: getopts optstring var [arg...]")

/-- A line of the input: its characters, with a flag at those that a backslash protects, what follows
    it, and whether it was ended. -/
def readInput (raw : Bool) : List (Char × Bool) → Octets → List (Char × Bool) × Octets × Bool
  | done, [] => (done.reverse, [], false)
  | done, '\n' :: s => (done.reverse, s, true)
  | done, '\x00' :: s => readInput raw done s
  | done, c :: s =>
    if c = '\\' && !raw then
      match s with
      | [] => (done.reverse, [], false)
      | '\n' :: s => readInput raw done s
      | d :: s => readInput raw ((d, true) :: done) s
    else readInput raw ((c, false) :: done) s

/-- Whether a character of a line separates fields. -/
def separates (separators : Octets) (p : Char × Bool) : Bool := !p.2 && separators.contains p.1

/-- Whether a character of a line is a blank that separates fields. -/
def separatesBlank (separators : Octets) (p : Char × Bool) : Bool :=
  separates separators p && Splitting.isBlank p.1

/-- The first field of a line, and the line behind it and what separates it. -/
def firstField (separators : Octets) (line : List (Char × Bool)) :
    List (Char × Bool) × List (Char × Bool) :=
  let field := line.takeWhile fun p => !separates separators p
  let rest := (line.drop field.length).dropWhile (separatesBlank separators)
  let rest := match rest with
    | p :: more =>
      if separates separators p then more.dropWhile (separatesBlank separators) else rest
    | [] => []
  (field, rest)

/-- The values that a line gives to a number of variables. The last one takes all that is left, but
    for blanks at the end and a separator behind a single field. -/
def lineFields (separators : Octets) : Nat → List (Char × Bool) → List Octets
  | 0, _ => []
  | 1, line =>
    let (field, rest) := firstField separators line
    let last := if rest = [] then field
      else (line.reverse.dropWhile (separatesBlank separators)).reverse
    [last.map (·.1)]
  | n + 1, line =>
    let (field, rest) := firstField separators line
    field.map (·.1) :: lineFields separators n rest

def read : Builtin := fun arguments s =>
  withOptions [('p', true), ('r', false)] arguments s fun given names =>
    if names = [] then s.fail (Octets.ofString "arg count")
    else
      let (line, rest, ended) := readInput (given.any (·.1 = 'r')) [] s.input
      let separators := s.separators
      let line := line.dropWhile (separatesBlank separators)
      let values := lineFields separators names.length line
      let s := s.leaveInput rest
      let s := (names.zip values).foldl
        (fun s (name, value) => if s.isRunning then s.assign (Octets.toText name) value else s) s
      if s.isRunning then { s with status := if ended then 0 else 1 } else s

end LintRun.Command.Shell.Builtin
