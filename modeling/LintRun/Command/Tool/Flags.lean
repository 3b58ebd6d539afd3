import LintRun.Command.Machine
import LintRun.Command.Tool.Quoted

/-! The options of a tool: letters in groups and long names, which may be shortened, before, between
    or only before its operands. No result rests on this module. -/

namespace LintRun.Command

/-- Whether a long option takes a value. -/
inductive ValueUse where
  | never
  | always
  deriving Repr, DecidableEq

/-- A long option: its name, whether it takes a value, and the letter that it stands for. -/
structure LongFlag where
  name : String
  value : ValueUse := .never
  letter : Char
  deriving Repr, DecidableEq

/-- The options that a tool takes. -/
structure FlagSpec where
  letters : List Char
  long : List LongFlag := []
  mixed : Bool := true

/-- What the arguments of a tool hold: options with their values, and operands. -/
structure Flags where
  given : List (Char × Octets) := []
  operands : List Octets := []
  deriving Repr, DecidableEq, Inhabited

namespace Flags

def has (f : Flags) (letter : Char) : Bool := f.given.any (·.1 = letter)

/-- The last value of an option. -/
def value? (f : Flags) (letter : Char) : Option Octets :=
  (f.given.reverse.find? (·.1 = letter)).map (·.2)

/-- The long options that a name stands for: the one of that name, or all that begin with it. -/
def candidates (spec : FlagSpec) (name : List Char) : List LongFlag :=
  match spec.long.find? (·.name.toList = name) with
  | some flag => [flag]
  | none => spec.long.filter fun flag => name.isPrefixOf flag.name.toList

/-- What the candidates of a shortened name are called. -/
def ambiguity (name : Octets) (flags : List LongFlag) : Octets :=
  let all := " ".intercalate (flags.map fun f => s!"'--{f.name}'")
  Octets.ofString "option '--" ++ name ++ Octets.ofString s!"' is ambiguous; possibilities: {all}"

/-- A long option after its two dashes, with the arguments behind it. -/
def readLong (spec : FlagSpec) (text : Octets) (rest : List Octets) :
    Except Octets ((Char × Octets) × List Octets) :=
  let name := text.takeWhile (· ≠ '=')
  let attached := (text.drop name.length).tail?
  match candidates spec name with
  | [] => .error (Octets.ofString "unrecognized option '--" ++ text ++ ['\''])
  | flag :: others =>
    if others.any (·.letter ≠ flag.letter) then .error (ambiguity name (flag :: others))
    else match flag.value, attached, rest with
      | .never, none, rest => .ok ((flag.letter, []), rest)
      | .never, some _, _ => 
        .error (Octets.ofString s!"option '--{flag.name}' doesn't allow an argument")
      | .always, some v, rest => .ok ((flag.letter, v), rest)
      | .always, none, v :: rest => .ok ((flag.letter, v), rest)
      | .always, none, [] => 
        .error (Octets.ofString s!"option '--{flag.name}' requires an argument")

/-- The options of a group of letters. -/
def readLetters (spec : FlagSpec) : Octets → Except Octets (List (Char × Octets))
  | [] => .ok []
  | c :: s =>
    if spec.letters.contains c then do return (c, []) :: (← readLetters spec s)
    else .error (Octets.ofString "invalid option -- '" ++ [c, '\''])

/-- Reads arguments. The first argument bounds their number. -/
def readWithin (spec : FlagSpec) : Nat → List Octets → Except Octets Flags
  | 0, _ => .ok {}
  | _ + 1, [] => .ok {}
  | fuel + 1, a :: rest =>
    match a with
    | ['-', '-'] => .ok { operands := rest }
    | '-' :: '-' :: text => do
      let (flag, rest) ← readLong spec text rest
      let more ← readWithin spec fuel rest
      return { more with given := flag :: more.given }
    | '-' :: c :: s => do
      let flags ← readLetters spec (c :: s)
      let more ← readWithin spec fuel rest
      return { more with given := flags ++ more.given }
    | operand => do
      if spec.mixed then
        let more ← readWithin spec fuel rest
        return { more with operands := operand :: more.operands }
      else return { operands := operand :: rest }

def read (spec : FlagSpec) (arguments : List Octets) : Except Octets Flags :=
  readWithin spec (arguments.length + 1) arguments

end Flags

/-- A complaint about an input that cannot be read. -/
def ToolCall.unread (call : ToolCall) (file : Octets) (e : OsError) : Octets :=
  Octets.ofString s!"{call.name}: " ++ shellQuoted file true ++ Octets.ofString s!": {causeOf e}\n"

/-- What a tool leaves that fails with a complaint. -/
def ToolCall.fail (call : ToolCall) (text : Octets) : ToolResult :=
  { status := 1, rest := call.input
    written := [(2, Octets.ofString s!"{call.name}: " ++ text ++ ['\n'])] }

/-- What a tool leaves that was called with wrong arguments. -/
def ToolCall.refuse (call : ToolCall) (text : Octets) : ToolResult :=
  call.fail (text ++ Octets.ofString s!"\nTry '{call.name} --help' for more information.")

/-- The inputs that are named, in order: each name with its text, or why it cannot be read. `-` is
    the input itself, which can be read only once, and so is no name at all. -/
def ToolCall.inputsWithin (call : ToolCall) :
    Octets → List Octets → List (Octets × Except OsError Octets)
  | _, [] => []
  | input, name :: names =>
    if name = ['-'] then (name, .ok input) :: call.inputsWithin [] names
    else match devices.lookup (Octets.toText name) with
      | some (some 0) => (name, .ok input) :: call.inputsWithin [] names
      | _ => (name, contents call.tree input name) :: call.inputsWithin input names

/-- The inputs of a tool whose operands are names of files. -/
def ToolCall.inputs (call : ToolCall) (names : List Octets) :
    List (Octets × Except OsError Octets) :=
  call.inputsWithin call.input (if names.isEmpty then [['-']] else names)

/-- Whether what a name leads to is a file, and no device. -/
def ToolCall.readsFile (call : ToolCall) (name : Octets) : Bool :=
  if name = ['-'] then call.inputIsFile
  else match devices.lookup (Octets.toText name) with
    | some (some 0) => call.inputIsFile
    | some _ => false
    | none => true

/-- What is left of the input once all inputs were read. -/
def ToolCall.restAfter (call : ToolCall) (names : List Octets) : Octets :=
  if names.isEmpty || names.contains ['-'] then [] else call.input

end LintRun.Command
