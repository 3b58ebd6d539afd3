import LintRun.Command.Awk.Record

/-! Where records come from and where output goes: files, commands, and the input and output of the
    process.

    Output is kept back until a command is run, a file is closed, or the program ends.

    No result rests on this module. -/

namespace LintRun.Command.Awk

inductive RecordEnd where
  | char (c : Char)
  | blankLines
  | regex (r : Regex)
  deriving Inhabited

namespace RecordEnd

/-- The rest of a text behind an empty line, and what stands before it. -/
def splitAtBlankLine : Octets → Option (Octets × Octets)
  | [] => none
  | '\n' :: '\n' :: s => some ([], s.dropWhile (· = '\n'))
  | c :: s => (splitAtBlankLine s).map fun (before, rest) => (c :: before, rest)

/-- The first record of a text and what follows it. What is not ended is a record only if nothing more
    is to come. -/
def take? (e : RecordEnd) (isAll : Bool) (s : Octets) : Option (Octets × Octets) :=
  let last := if isAll && s ≠ [] then some (s, []) else none
  match e with
  | .char c =>
    let part := s.takeWhile (· ≠ c)
    match s.drop part.length with
    | [] => last
    | _ :: rest => some (part, rest)
  | .blankLines =>
    match s.dropWhile (· = '\n') with
    | [] => none
    | s =>
      match splitAtBlankLine s with
      | some found => some found
      | none =>
        if isAll then some (if s.getLast? = some '\n' then (s.dropLast, []) else (s, [])) else none
  | .regex r =>
    match r.findFilled true 0 s with
    | some (before, length) =>
      if isAll || before + length < s.length then
        some (s.take before, s.drop (before + length))
      else none
    | none => last

end RecordEnd

namespace Act

/-- How much of the input is taken at once. -/
def blockSize : Nat := 4096

/-- Takes more of what records are read from, if there is more. -/
def fill (k : Intake) : Act (Option Intake) := do
  if !k.isInput then return none
  let s ← get
  match s.process.input s.machine with
  | [] => return none
  | text =>
    set { s with machine := s.process.leave s.machine (text.drop blockSize) }
    return some { k with buffer := k.buffer ++ text.take blockSize }

def recordEnd : Act RecordEnd := do
  match ← textAt "RS" with
  | [] => return .blankLines
  | [c] => return .char c
  | s =>
    match Regex.read s with
    | .ok r => return .regex r
    | .error e => failRegex s e

/-- Takes a record; the first argument bounds how often more is taken. -/
def takeRecordWithin (e : RecordEnd) : Nat → Intake → Act (Option Octets × Intake)
  | 0, k => return (none, k)
  | fuel + 1, k => do
    match e.take? false k.buffer with
    | some (text, buffer) => return (some text, { k with buffer })
    | none =>
      match ← fill k with
      | some k => takeRecordWithin e fuel k
      | none =>
        match e.take? true k.buffer with
        | some (text, buffer) => return (some text, { k with buffer })
        | none => return (none, { k with buffer := [] })

def takeRecord (k : Intake) : Act (Option Octets × Intake) := do
  takeRecordWithin (← recordEnd) endless k

/-- Writes out what was kept back of the output of the process. -/
def flushOutput : Act Unit :=
  modify fun s => { s with
    machine := s.process.write s.machine 1 s.pending.reverse.flatten, pending := [] }

/-- Writes out what was kept back for a file. -/
def flushOutflow (o : Outflow) : Act Outflow := do
  match o.kind with
  | .file port =>
    modify fun s => { s with machine := s.machine.write port o.pieces.reverse.flatten }
    return { o with pieces := [] }
  | _ => return o

/-- Writes out what was kept back, but for commands. -/
def flushAll : Act Unit := do
  flushOutput
  let flows ← (← get).outflows.mapM flushOutflow
  modify fun s => { s with outflows := flows }

/-- Runs a command with some descriptors and waits for its end. -/
def runCommand (name : String) (text : Octets) (descriptors : Descriptors) : Act Ending :=
  modifyGet fun s =>
    let (number, machine) := s.machine.started
    let p : Process :=
      { name, descriptors, environment := s.process.environment, number, parent := s.process.number }
    let (ending, machine) := s.shell.launch p [['-', 'c'], text] machine
    (ending, { s with machine })

/-- The number that tells how a command ended. -/
def statusOf : Ending → Float
  | .exited n => Float.ofNat (n % 256)
  | .killed n => Float.ofNat (256 + n)

/-- The descriptors of the process with another port for one of them. -/
def descriptorsWith (fd port : Nat) : Act Descriptors := do
  return (fd, port) :: (← get).process.descriptors.filter (·.1 ≠ fd)

def openPort (p : Port) : Act Nat :=
  modifyGet fun s =>
    let (port, machine) := s.machine.opened p
    (port, { s with machine })

/-- Opens a file that is written. -/
def openFile (name : Octets) (appends : Bool) : Act Nat := do
  let tree := (← get).machine.tree
  let path : Path := ⟨Octets.toText name⟩
  let place ← match tree.filePlace path with
    | .ok place => pure place
    | .error e =>
      giveUp (Octets.ofString "cannot open \"" ++ name ++
        Octets.ofString s!"\" for output ({causeOf e})")
  if !(appends && (tree.entry? place).isSome) then
    modify fun s =>
      { s with machine := { s.machine with tree := s.machine.tree.set place (.file []) } }
  openPort (.file place 0 appends)

/-- Opens where output goes under a name. -/
def openOutflow (o : Outlet) (name : Octets) : Act Outflow := do
  match o with
  | .command =>
    flushAll
    return { name, kind := .command }
  | o =>
    match devices.lookup (Octets.toText name) with
    | some (some fd) => return { name, kind := .descriptor fd }
    | some none => return { name, kind := .descriptor 1000 }
    | none => return { name, kind := .file (← openFile name (o = .append)) }

/-- Writes a text to where output goes. -/
def emit (target : Option (Outlet × Octets)) (text : Octets) : Act Unit := do
  match target with
  | none => modify fun s => { s with pending := text :: s.pending }
  | some (o, name) =>
    let isHere := fun (f : Outflow) => f.name = name && ((f.kind = .command) == (o = .command))
    let flow ← match (← get).outflows.find? isHere with
      | some flow => pure flow
      | none => openOutflow o name
    let flow ← match flow.kind with
      | .descriptor 1 =>
        modify fun s => { s with pending := text :: s.pending }
        pure flow
      | .descriptor fd =>
        modify fun s => { s with machine := s.process.write s.machine fd text }
        pure flow
      | _ => pure { flow with pieces := text :: flow.pieces }
    modify fun s => { s with outflows := flow :: s.outflows.filter fun f => !isHere f }

/-- Closes where output went; a command is run with what was written to it. -/
def closeOutflow (o : Outflow) : Act Float := do
  match o.kind with
  | .file _ =>
    let _ ← flushOutflow o
    return 0
  | .descriptor _ => return 0
  | .command =>
    let port ← openPort (.source o.pieces.reverse.flatten)
    let ending ← runCommand "/bin/sh" o.name (← descriptorsWith 0 port)
    return statusOf ending

/-- Closes everything under a name, and tells how that went. -/
def close (name : Octets) : Act Float := do
  let s ← get
  let flows := s.outflows.filter (·.name = name)
  let intakes := s.intakes.filter (·.name = name)
  set { s with
    outflows := s.outflows.filter (·.name ≠ name), intakes := s.intakes.filter (·.name ≠ name) }
  let ends ← flows.mapM closeOutflow
  let ends := ends ++ intakes.map fun k => if k.isCommand then statusOf k.ending else 0
  return ends.getLast?.getD (-1)

/-- Closes everything at the end of the program: commands first, and the output of the process after
    them. -/
def closeAll : Act Unit := do
  let flows := (← get).outflows
  modify fun s => { s with outflows := [] }
  for flow in flows.filter (·.kind = .command) do
    let _ ← closeOutflow flow
  for flow in flows.filter (·.kind ≠ .command) do
    let _ ← closeOutflow flow
  flushOutput

/-- Gives up because a directory cannot be read. -/
def failReading {α : Type} (e : OsError) : Act α :=
  giveUp (Octets.ofString s!"read error ({causeOf e})")

/-- Opens a file that is read, or tells why it cannot be opened. -/
def openIntake (name : Octets) : Act (Except OsError Intake) := do
  if name = ['-'] || name = Octets.ofString "/dev/stdin" then return .ok { name, isInput := true }
  let s ← get
  match contents s.machine.tree [] name with
  | .ok buffer => return .ok { name, buffer }
  | .error .isADirectory => failReading .isADirectory
  | .error e => return .error e

def openCommand (text : Octets) : Act Intake := do
  flushAll
  let port ← openPort (.sink [])
  let ending ← runCommand "/bin/sh" text (← descriptorsWith 1 port)
  modifyGet fun s =>
    let buffer := s.machine.collected port
    ({ name := text, isCommand := true, buffer, ending },
      { s with machine := s.machine.setPort port .nothing })

/-- Takes a record from a file or from what a command writes; nothing if there is no such file. -/
def recordFrom (isCommand : Bool) (name : Octets) : Act (Option (Option Octets)) := do
  let isHere := fun (k : Intake) => k.name = name && k.isCommand == isCommand
  let found ← match (← get).intakes.find? isHere with
    | some k => pure (some k)
    | none =>
      if isCommand then some <$> openCommand name
      else Except.toOption <$> openIntake name
  match found with
  | none => return none
  | some k =>
    let (text, k) ← takeRecord k
    modify fun s => { s with intakes := k :: s.intakes.filter fun k => !isHere k }
    return some text

/-- Sets a variable of the whole program as it is assigned to. Before separators change, the fields of
    the record are found. -/
def assignShared (name : String) (c : Cell) : Act Unit := do
  if name = "NF" then setFieldCount c
  else
    if name = "FS" || name = "RS" then splitRecord
    setValue name c

/-- The name and the value of an argument that sets a variable. -/
def setting? (argument : Octets) : Option (String × Octets) :=
  let name := argument.takeWhile isNameChar
  match name, argument.drop name.length with
  | c :: _, '=' :: value =>
    if beginsName c then some (String.ofList name, value) else none
  | _, _ => none

/-- Opens what records are read from, by the name that it has among the arguments. -/
def openMain (name : Octets) : Act Unit := do
  setValue "FILENAME" (.text name)
  setValue "FNR" (.number 0)
  match ← openIntake name with
  | .ok k => modify fun s => { s with main := some k, readsInput := true }
  | .error e =>
    giveUp (Octets.ofString "cannot open \"" ++ name ++ Octets.ofString s!"\" ({causeOf e})")

/-- Goes on with the next file among the arguments, or with the input if there was none; tells whether
    there is any. The first argument bounds the arguments. -/
def openNext : Nat → Act Bool
  | 0 => return false
  | fuel + 1 => do
    let count := (← valueOf "ARGC").toNumber.toUInt64.toNat
    let i := (← get).operand
    if i < count then
      modify fun s => { s with operand := i + 1 }
      let table ← tableOf (.shared "ARGV")
      match ← lookup? table (.number i) with
      | none => openNext fuel
      | some c =>
        let argument ← textOf c
        match argument, setting? argument with
        | [], _ => openNext fuel
        | _, some (name, value) =>
          assignShared name (.input (unescaped value))
          openNext fuel
        | name, none =>
          openMain name
          return true
    else if (← get).readsInput then return false
    else
      openMain ['-']
      return true

/-- The next record of the files among the arguments. The first argument bounds their number. -/
def mainRecordWithin : Nat → Act (Option Octets)
  | 0 => return none
  | fuel + 1 => do
    match (← get).main with
    | some k =>
      let (text, k) ← takeRecord k
      match text with
      | some text =>
        modify fun s => { s with main := some k }
        return some text
      | none =>
        modify fun s => { s with main := none }
        mainRecordWithin fuel
    | none => if ← openNext fuel then mainRecordWithin fuel else return none

def countRecord : Act Unit := do
  for name in ["NR", "FNR"] do
    setValue name (.number ((← valueOf name).toNumber + 1))

/-- The next record of the files among the arguments. -/
def mainRecord : Act (Option Octets) := do
  let text ← mainRecordWithin endless
  if text.isSome then countRecord
  return text

end Act

end LintRun.Command.Awk
