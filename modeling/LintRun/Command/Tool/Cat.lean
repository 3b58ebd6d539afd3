import LintRun.Command.Tool.Flags

/-! Copying inputs one after the other, with marks at what does not show or with numbers. No result
    rests on this module. -/

namespace LintRun.Command.Cat

/-- What is done to the text on its way. -/
structure Style where
  numbers : Bool := false
  numbersFilled : Bool := false
  squeezes : Bool := false
  marksEnds : Bool := false
  marksTabs : Bool := false
  marksHidden : Bool := false
  deriving Repr, DecidableEq

def spec : FlagSpec where
  letters := ['A', 'b', 'e', 'E', 'n', 's', 't', 'T', 'u', 'v']
  long :=
    [⟨"number-nonblank", .never, 'b'⟩, ⟨"number", .never, 'n'⟩, ⟨"squeeze-blank", .never, 's'⟩,
      ⟨"show-nonprinting", .never, 'v'⟩, ⟨"show-ends", .never, 'E'⟩, ⟨"show-tabs", .never, 'T'⟩,
      ⟨"show-all", .never, 'A'⟩]

/-- The style that some options ask for. -/
def Style.ofFlags (f : Flags) : Style where
  numbers := f.has 'n' || f.has 'b'
  numbersFilled := f.has 'b'
  squeezes := f.has 's'
  marksEnds := f.has 'e' || f.has 'E' || f.has 'A'
  marksTabs := f.has 't' || f.has 'T' || f.has 'A'
  marksHidden := f.has 'v' || f.has 'e' || f.has 't' || f.has 'A'

/-- A character below 128 as it shows. -/
def shownLow (n : Nat) : Octets :=
  if n < 32 then ['^', Char.ofNat (n + 64)]
  else if n = 127 then ['^', '?']
  else [Char.ofNat n]

def Style.shown (style : Style) (c : Char) : Octets :=
  let n := c.toNat
  if c = '\t' then if style.marksTabs then ['^', 'I'] else [c]
  else if !style.marksHidden then [c]
  else if n < 128 then shownLow n
  else ['M', '-'] ++ shownLow (n - 128)

/-- The state between two inputs: the number of the last line, how many line ends came last, and
    whether a carriage return is held back that an end of a line may follow. -/
structure State where
  line : Nat := 0
  ends : Nat := 1
  heldReturn : Bool := false
  deriving Repr, DecidableEq

/-- The number in front of a line. -/
def numbered (n : Nat) : Octets :=
  let ds := (toString n).toList
  List.replicate (6 - ds.length) ' ' ++ ds ++ ['\t']

/-- What a character becomes, and the state behind it. -/
def step (style : Style) (s : State) (c : Char) : Octets × State :=
  let held : Octets := if s.heldReturn && c ≠ '\n' then ['\r'] else []
  if c = '\n' then
    if style.squeezes && 2 ≤ s.ends then ([], s)
    else
      let blank := 1 ≤ s.ends
      let counts := blank && style.numbers && !style.numbersFilled
      let line := if counts then s.line + 1 else s.line
      let ending : Octets := if style.marksEnds then
          (if s.heldReturn then ['^', 'M'] else []) ++ ['$'] else []
      ((if counts then numbered line else []) ++ ending ++ ['\n'],
        { line, ends := s.ends + 1, heldReturn := false })
  else
    let starts := 1 ≤ s.ends && !s.heldReturn
    let line := if starts && style.numbers then s.line + 1 else s.line
    let number := if starts && style.numbers then numbered line else []
    let holds := c = '\r' && style.marksEnds && !style.marksHidden
    (held ++ number ++ (if holds then [] else style.shown c),
      { line, ends := 0, heldReturn := holds })

/-- An input as it is copied; `done` holds what was written, last first. -/
def copy (style : Style) : State → List Octets → Octets → Octets × State
  | s, done, [] => (done.reverse.flatten, s)
  | s, done, c :: rest =>
    let (text, s) := step style s c
    copy style s (text :: done) rest

/-- The inputs as they are copied, with complaints about those that cannot be read. -/
def copyAll (call : ToolCall) (style : Style) :
    State → List (Octets × Except OsError Octets) → List (Nat × Octets)
  | s, [] => [(1, if s.heldReturn then ['\r'] else [])]
  | s, (_, .ok text) :: rest =>
    let (out, s) := if style = {} then (text, s) else copy style s [] text
    (1, out) :: copyAll call style s rest
  | s, (file, .error e) :: rest =>
    (2, call.unread file e) :: copyAll call style s rest

def run (call : ToolCall) : ToolResult :=
  match Flags.read spec call.arguments with
  | .error text => call.refuse text
  | .ok flags =>
    let inputs := call.inputs flags.operands
    { status := if inputs.all fun (_, text) => text.toOption.isSome then 0 else 1
      written := copyAll call (Style.ofFlags flags) {} inputs
      rest := call.restAfter flags.operands }

end LintRun.Command.Cat
