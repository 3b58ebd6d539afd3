import LintRun.Command.Tool.Flags

/-! Counting lines, words and bytes. No result rests on this module. -/

namespace LintRun.Command.Wc

def spec : FlagSpec where
  letters := ['c', 'l', 'L', 'm', 'w']
  long :=
    [⟨"bytes", .never, 'c'⟩, ⟨"chars", .never, 'm'⟩, ⟨"lines", .never, 'l'⟩, ⟨"words", .never, 'w'⟩,
      ⟨"files0-from", .always, '0'⟩, ⟨"max-line-length", .never, 'L'⟩, ⟨"total", .always, 't'⟩]

/-- What is counted of one input. -/
structure Counts where
  lines : Nat := 0
  words : Nat := 0
  bytes : Nat := 0
  longest : Nat := 0
  deriving Repr, DecidableEq, Inhabited

/-- The state of counting: what was counted, whether a word is going on, and how wide the line is so
    far. -/
structure State where
  counts : Counts := {}
  inWord : Bool := false
  width : Nat := 0
  deriving Repr, DecidableEq

/-- Ends the word that is going on. -/
def State.endWord (s : State) : State :=
  { s with inWord := false
           counts := { s.counts with words := s.counts.words + (if s.inWord then 1 else 0) } }

/-- Ends the line, as far as its width goes. -/
def State.endLine (s : State) : State :=
  { s with width := 0, counts := { s.counts with longest := max s.counts.longest s.width } }

def step (s : State) (c : Char) : State :=
  let s := { s with counts := { s.counts with bytes := s.counts.bytes + 1 } }
  if c = '\n' then
    let s := s.endWord.endLine
    { s with counts := { s.counts with lines := s.counts.lines + 1 } }
  else if c = '\r' || c = '\x0c' then s.endWord.endLine
  else if c = '\t' then { s.endWord with width := s.width + 8 - s.width % 8 }
  else if c = ' ' then { s.endWord with width := s.width + 1 }
  else if c = '\x0b' then s.endWord
  else if 0x20 < c.toNat && c.toNat < 0x7F then { s with inWord := true, width := s.width + 1 }
  else s

def Counts.of (text : Octets) : Counts := (text.foldl step {}).endWord.endLine.counts

/-- The counts of several inputs together. -/
def Counts.sum (all : List Counts) : Counts :=
  all.foldl (fun a b => ⟨a.lines + b.lines, a.words + b.words, a.bytes + b.bytes,
    max a.longest b.longest⟩) {}

/-- The numbers that are asked for, in their order. -/
def Counts.chosen (flags : Flags) (c : Counts) : List Nat :=
  let all := flags.given.all (·.1 = 't')
  (if all || flags.has 'l' then [c.lines] else []) ++
    (if all || flags.has 'w' then [c.words] else []) ++
    (if flags.has 'm' then [c.bytes] else []) ++
    (if all || flags.has 'c' then [c.bytes] else []) ++
    (if flags.has 'L' then [c.longest] else [])

def column (width n : Nat) : Octets :=
  let ds := (toString n).toList
  List.replicate (width - ds.length) ' ' ++ ds

/-- A line of numbers with a name. -/
def line (flags : Flags) (width : Nat) (name : Octets) (c : Counts) : Octets :=
  let numbers := [' '].intercalate ((c.chosen flags).map (column width))
  numbers ++ (if name = [] then [] else ' ' :: name) ++ ['\n']

/-- An input: the name that stands in its line, whether it is a file, and its text or why it cannot
    be read. -/
structure Input where
  name : Octets
  isFile : Bool
  text : Except OsError Octets

/-- The width of the columns: that of the size of all files together, and more if some input is no
    file. -/
def widthOf (flags : Flags) (inputs : List Input) : Nat :=
  let single := inputs.length ≤ 1 && (({} : Counts).chosen flags).length = 1
  if single then 1
  else
    let sizes := inputs.filterMap fun i => if i.isFile then i.text.toOption.map List.length else none
    let isOther := fun (i : Input) => match i.text with
      | .ok _ => !i.isFile
      | .error .isADirectory => true
      | .error _ => false
    let least := if inputs.any isOther then 7 else 1
    max least (toString (sizes.foldl (· + ·) 0)).length

/-- What is written of an input. -/
def report (call : ToolCall) (flags : Flags) (width : Nat) (i : Input) : List (Nat × Octets) :=
  match i.text with
  | .ok text => [(1, line flags width i.name (Counts.of text))]
  | .error e =>
    let complaint := if i.name = [] then complaint call.name "invalid zero-length file name"
      else call.unread i.name e
    (2, complaint) :: (if e = .isADirectory then [(1, line flags width i.name {})] else [])

/-- Complaints before all other output, which waits until the end. -/
def complaintsFirst (written : List (Nat × Octets)) : List (Nat × Octets) :=
  written.filter (·.1 = 2) ++ written.filter (·.1 ≠ 2)

def run (call : ToolCall) : ToolResult :=
  match Flags.read spec call.arguments with
  | .error text => call.refuse text
  | .ok flags =>
    let inputs := (call.inputs flags.operands).map fun (name, text) =>
      let shown := if flags.operands.isEmpty then [] else name
      (⟨shown, call.readsFile name, text⟩ : Input)
    let width := widthOf flags inputs
    let all := Counts.sum (inputs.filterMap fun i => i.text.toOption.map Counts.of)
    let total := if 1 < inputs.length then [(1, line flags width (Octets.ofString "total") all)]
      else []
    { status := if inputs.all (·.text.toOption.isSome) then 0 else 1
      written := complaintsFirst (inputs.flatMap (report call flags width) ++ total)
      rest := call.restAfter flags.operands }

end LintRun.Command.Wc
