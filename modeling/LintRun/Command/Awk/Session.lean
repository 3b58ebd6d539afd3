import LintRun.Command.Awk.Table
import LintRun.Command.Awk.Tokens
import LintRun.Command.Machine

/-! The state of a program while it runs.

    Whatever a program does is a step from one session to the next, and may jump out of what it is
    part of.

    No result rests on this module. -/

namespace LintRun.Command.Awk

/-- What a name stands for while a program runs: a value, an array by its number, or nothing yet; it may
    then become the array of a number. -/
inductive Slot where
  | unset (table : Option Nat)
  | cell (c : Cell)
  | table (i : Nat)
  deriving Inhabited

/-- What fields are separated by: blanks, a character, nothing at all, or what an expression
    matches. -/
inductive Separator where
  | blanks
  | char (c : Char)
  | nothing
  | regex (r : Regex)
  deriving Inhabited

/-- The record that was read last: the whole of it, its fields, their number, and which of these follow
    from others and are still to be found. -/
structure Record where
  whole : Cell := .text []
  fields : Array Cell := #[]
  count : Cell := .number 0
  separator : Separator := .blanks
  byLines : Bool := false
  isSplit : Bool := true
  isJoined : Bool := true
  deriving Inhabited

/-- What records are read from: what was taken from it so far and is not used yet, what is left of it,
    whether that is the input of the process, and how the command ended that has written it. -/
structure Intake where
  name : Octets := []
  isCommand : Bool := false
  buffer : Octets := []
  isInput : Bool := false
  ending : Ending := .exited 0
  deriving Inhabited

/-- What output is collected for: a file by its port, a command, or a descriptor. -/
inductive OutletKind where
  | file (port : Nat)
  | command
  | descriptor (fd : Nat)
  deriving Repr, DecidableEq, Inhabited

/-- Where output goes under a name, and what is still to be written there, last piece first. -/
structure Outflow where
  name : Octets
  kind : OutletKind
  pieces : List Octets := []
  deriving Repr, DecidableEq, Inhabited

/-- Why what is going on is left. -/
inductive Jump where
  | next
  | nextFile
  | exit
  | break
  | continue
  | return
  | fault
  deriving Repr, DecidableEq, Inhabited

/-- The state of a program. `held` counts the values that are kept for what is going on, `active` holds
    the numbers of the ranges that have begun, and `operand` is the number of the argument that is read
    next. -/
structure Session where
  machine : Machine
  process : Process
  shell : Program
  functions : Std.HashMap String Definition := {}
  slots : Std.HashMap String Slot := {}
  own : Array Slot := #[]
  tables : Array Table := #[]
  record : Record := {}
  result : Cell := .unset
  held : Nat := 0
  status : Nat := 0
  active : List Nat := []
  main : Option Intake := none
  operand : Nat := 1
  readsInput : Bool := false
  intakes : List Intake := []
  outflows : List Outflow := []
  pending : List Octets := []
  seed : Cell := .number 0
  random : UInt64 := 1

abbrev Act := EStateM Jump Session

/-- More turns than any loop takes. -/
def endless : Nat := 4611686018427387904

namespace Act

/-- The slot of a name. -/
def slot (n : Name) : Act Slot := do
  let s ← get
  match n with
  | .shared name => return (s.slots[name]?).getD (.unset none)
  | .own i => return (s.own[i]?).getD (.unset none)

def setSlot (n : Name) (slot : Slot) : Act Unit :=
  match n with
  | .shared name => modify fun s => { s with slots := s.slots.insert name slot }
  | .own i => modify fun s => { s with own := s.own.setIfInBounds i slot }

/-- The value of a variable of the whole program. -/
def valueOf (name : String) : Act Cell := do
  match ← slot (.shared name) with
  | .cell c => return c
  | _ => return .unset

/-- Sets a variable of the whole program. -/
def setValue (name : String) (c : Cell) : Act Unit := setSlot (.shared name) (.cell c)

/-- How numbers that are no integers become texts. -/
def textForm : Act Octets := do
  match ← valueOf "CONVFMT" with
  | .text s | .input s => return s
  | _ => return Octets.ofString "%.6g"

def textOf (c : Cell) : Act Octets := do
  match c with
  | .text s | .input s => return s
  | .unset => return []
  | .number x => return numberText (← textForm) x

/-- The text of a variable of the whole program. -/
def textAt (name : String) : Act Octets := do textOf (← valueOf name)

/-- Keeps some values while something is done. -/
def holding {α : Type} (count : Nat) (act : Act α) : Act α := do
  modify fun s => { s with held := s.held + count }
  let result ← act
  modify fun s => { s with held := s.held - count }
  return result

def complain (text : Octets) : Act Unit :=
  modify fun s =>
    let text := Octets.ofString s!"{s.process.name}: " ++ text ++ ['\n']
    { s with machine := s.process.write s.machine 2 text }

/-- Ends the program with a complaint. -/
def giveUp {α : Type} (text : Octets) : Act α := do
  complain text
  modify fun s => { s with status := 2 }
  throw .fault

/-- Ends the program with a complaint that tells what is being read. -/
def fail {α : Type} (text : Octets) : Act α := do
  let file ← textAt "FILENAME"
  let number := fun name => do return numberText (Octets.ofString "%.6g") (← valueOf name).toNumber
  let place := Octets.ofString "\n\tFILENAME=\"" ++ file ++ Octets.ofString "\" FNR=" ++
    (← number "FNR") ++ Octets.ofString " NR=" ++ (← number "NR")
  giveUp (Octets.ofString "run time error: " ++ text ++ place)

/-- The array of a name, which is made if there is none. -/
def tableOf (n : Name) : Act Nat := do
  match ← slot n with
  | .table i => return i
  | .unset (some i) =>
    setSlot n (.table i)
    return i
  | _ =>
    let i := (← get).tables.size
    modify fun s => { s with tables := s.tables.push {} }
    setSlot n (.table i)
    return i

/-- Takes a number for an array that a name may become. -/
def reserve (n : Name) : Act Slot := do
  match ← slot n with
  | .unset none =>
    let i := (← get).tables.size
    modify fun s => { s with tables := s.tables.push {} }
    setSlot n (.unset (some i))
    return .unset (some i)
  | slot => return slot

def changeTable (i : Nat) (f : Table → Table) : Act Unit :=
  modify fun s => { s with tables := s.tables.modify i f }

/-- The value under a key, if there is one. -/
def lookup? (i : Nat) (key : Key) : Act (Option Cell) := do
  changeTable i fun t => t.touched key
  return (← get).tables[i]?.bind (·.find? key)

/-- Looks up a key, which is made if there is none. -/
def ensure (i : Nat) (key : Key) : Act Unit := do
  if (← lookup? i key).isNone then changeTable i fun t => t.insert key .unset

end Act

end LintRun.Command.Awk
