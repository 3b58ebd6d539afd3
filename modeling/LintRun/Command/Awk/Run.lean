import LintRun.Command.Awk.Function

/-! Running a program: its expressions, its statements and its rules. No result rests on this
    module. -/

namespace LintRun.Command.Awk

/-- Something that can be assigned to; an element of an array has been made then. -/
inductive Place where
  | variable (n : Name)
  | element (table : Nat) (key : Key)
  | field (i : Nat)
  deriving Inhabited

namespace Act

/-- How many values are kept at most. -/
def heldMax : Nat := 1006

def named (n : Name) : Act Cell := do
  if n = .shared "NF" then fieldCount
  else match ← slot n with
    | .cell c => return c
    | _ => return .unset

def setVariable (n : Name) (c : Cell) : Act Unit :=
  match n with
  | .shared name => assignShared name c
  | n => setSlot n (.cell c)

def readPlace : Place → Act Cell
  | .variable n => named n
  | .element table key => return (((← get).tables[table]?).bind (·.find? key)).getD .unset
  | .field i => field i

/-- Sets the value at a place. -/
def writePlace (p : Place) (c : Cell) : Act Unit := do
  match p with
  | .variable n => setVariable n c
  | .element table key => changeTable table fun t => t.set key c
  | .field i => setField i c

/-- The text of a value as it is printed. -/
def printedText (c : Cell) : Act Octets := do
  match c with
  | .number x =>
    match integerText? x with
    | some text => return text
    | none => return formed (← textAt "OFMT") x
  | c => textOf c

/-- The expression that a value writes. -/
def regexOf (c : Cell) : Act Regex := do
  let s ← textOf c
  match Regex.read s with
  | .ok r => return r
  | .error e => failRegex s e

/-- The separator that a value stands for, which may be an expression itself. -/
def separatorFor : Option (Expr × Cell) → Act Separator
  | none => do separatorOf (← textAt "FS")
  | some (.regex _ r, _) => return .regex r
  | some (_, c) => do separatorOf (← textOf c)

/-- Sets what the last match is told by. -/
def noteMatch (found : Option (Nat × Nat)) : Act Cell := do
  let (start, length) : Float × Float := match found with
    | some (before, length) => (Float.ofNat (before + 1), Float.ofNat length)
    | none => (0, -1)
  setValue "RSTART" (.number start)
  setValue "RLENGTH" (.number length)
  return .number start

/-- Does one turn of a loop, and tells whether the loop goes on. -/
def turn (act : Act Unit) : Act Bool :=
  tryCatch (do act; return true) fun
    | .continue => return true
    | .break => return false
    | j => throw j

/-- Does something up to where it jumps in some way. -/
def upTo (jump : Jump) (act : Act Unit) : Act Unit :=
  tryCatch act fun j => if j = jump then return else throw j

/-- What was read, to be put at a place or to be the record; the number tells how that went. -/
def keep (text : Option (Option Octets)) (target : Option Place) : Act Cell := do
  match text with
  | none => return .number (-1)
  | some none => return .number 0
  | some (some text) =>
    match target with
    | none => setRecord text
    | some p => writePlace p (.input text)
    return .number 1

mutual
/-- The value of an expression. The first argument of each of these bounds the depth. -/
def eval : Nat → Expr → Act Cell
  | 0, _ => return .unset
  | fuel + 1, e => do
    match e with
    | .number x => return .number x
    | .text s => return .text s
    | .regex _ r => return Cell.ofBool (r.holds (← textOf (← field 0)))
    | .variable n => named n
    | .element .. => readPlace (← place fuel e)
    | .field (.number x) => field (← fieldNumber (.number x))
    | .field index =>
      let i ← fieldNumber (← eval fuel index)
      splitRecord
      field i
    | .list all => return .text (← key fuel all).toText
    | .assign target value =>
      let p ← place fuel target
      let c ← holding 1 (eval fuel value)
      writePlace p c
      return c
    | .update op target value =>
      let p ← place fuel target
      let y := (← holding 1 (eval fuel value)).toNumber
      let c := Cell.number (op.apply (← readPlace p).toNumber y)
      writePlace p c
      return c
    | .step amount after target =>
      let p ← place fuel target
      let x := (← readPlace p).toNumber
      writePlace p (.number (x + amount))
      return .number (if after then x else x + amount)
    | .arithmetic op left right =>
      let x ← eval fuel left
      let y ← holding 1 (eval fuel right)
      return .number (op.apply x.toNumber y.toNumber)
    | .compare op left right =>
      let x ← eval fuel left
      let y ← holding 1 (eval fuel right)
      return Cell.ofBool (op.holds (Cell.compare (← textForm) x y))
    | .join left right =>
      let x ← eval fuel left
      let y ← holding 1 (eval fuel right)
      return .text ((← textOf x) ++ (← textOf y))
    | .positive e => return .number (← eval fuel e).toNumber
    | .negative e => return .number (-(← eval fuel e).toNumber)
    | .not e => return Cell.ofBool !(← eval fuel e).isTrue
    | .both left right =>
      if (← eval fuel left).isTrue then return Cell.ofBool (← eval fuel right).isTrue
      else return Cell.ofBool false
    | .either left right =>
      if (← eval fuel left).isTrue then return Cell.ofBool true
      else return Cell.ofBool (← eval fuel right).isTrue
    | .choose condition yes no =>
      if (← eval fuel condition).isTrue then eval fuel yes else eval fuel no
    | .matches text pattern =>
      let s ← textOf (← eval fuel text)
      let r ← regex fuel pattern
      return Cell.ofBool (r.holds s)
    | .member index array =>
      let k ← key fuel [index]
      return Cell.ofBool (← lookup? (← tableOf array) k).isSome
    | .call name arguments => call fuel name arguments
    | .builtin f arguments => callFunction f (← evalAll fuel arguments)
    | .size n =>
      match ← slot n with
      | .table i => return .number (Float.ofNat ((← get).tables[i]?.getD {}).size)
      | .unset (some i) => return .number (Float.ofNat ((← get).tables[i]?.getD {}).size)
      | _ => return .number (Float.ofNat (← textOf (← named n)).length)
    | .locate text pattern =>
      let s ← textOf (← eval fuel text)
      let r ← regex fuel pattern
      noteMatch (r.find true 0 s)
    | .split text array separator =>
      let s ← textOf (← eval fuel text)
      let table ← tableOf array
      let given ← match separator with
        | none => pure none
        | some (.regex spelled r) => pure (some (.regex spelled r, Cell.unset))
        | some e => do pure (some (e, ← eval fuel e))
      let parts := (← separatorFor given).parts false s
      changeTable table fun _ => Table.ofList (parts.map Cell.input)
      return .number (Float.ofNat parts.length)
    | .substitute all pattern replacement target =>
      let r ← regex fuel pattern
      let by_ ← textOf (← eval fuel replacement)
      let p ← place fuel target
      let (text, count) := replaced all r by_ (← textOf (← readPlace p))
      if 0 < count then writePlace p (.text text)
      return .number (Float.ofNat count)
    | .readLine source target =>
      let place := target.mapM (place fuel)
      match source with
      | .main =>
        let p ← place
        keep (some (← mainRecord)) p
      | .file name =>
        let p ← place
        keep (← recordFrom false (← textOf (← eval fuel name))) p
      | .command text =>
        let command ← textOf (← eval fuel text)
        let p ← place
        keep (← recordFrom true command) p

def evalAll : Nat → List Expr → Act (List Cell)
  | 0, _ => return []
  | fuel + 1, all => do
    match all with
    | [] => return []
    | e :: rest =>
      let c ← eval fuel e
      return c :: (← holding 1 (evalAll fuel rest))

/-- The key that expressions make up. -/
def key : Nat → List Expr → Act Key
  | 0, _ => return .text []
  | fuel + 1, all => do
    match all with
    | [.list all] => key fuel all
    | [e] => return .ofCell (← textForm) (← eval fuel e)
    | all =>
      let texts ← (← evalAll fuel all).mapM textOf
      return .text ((← textAt "SUBSEP").intercalate texts)

/-- The place that an expression stands for. -/
def place : Nat → Expr → Act Place
  | 0, _ => return .variable (.shared "")
  | fuel + 1, e => do
    match e with
    | .variable n => return .variable n
    | .element array index =>
      let k ← key fuel index
      let table ← tableOf array
      ensure table k
      return .element table k
    | .field (.number x) => return .field (← fieldNumber (.number x))
    | .field index =>
      let i ← fieldNumber (← eval fuel index)
      readyField i
      return .field i
    | _ => return .variable (.shared "")

/-- The regular expression that an expression stands for. -/
def regex : Nat → Expr → Act Regex
  | 0, _ => return .empty
  | fuel + 1, e => do
    match e with
    | .regex _ r => return r
    | e => regexOf (← eval fuel e)

/-- The slots of the arguments of a function. A name that stands for nothing yet may become an array
    in the function. -/
def slots : Nat → List Expr → Act (List Slot)
  | 0, _ => return []
  | fuel + 1, all => do
    match all with
    | [] => return []
    | e :: rest =>
      let first ← match e with
        | .variable n => if n = .shared "NF" then Slot.cell <$> fieldCount else reserve n
        | e => Slot.cell <$> eval fuel e
      return first :: (← holding 1 (slots fuel rest))

/-- Calls a function of the program. -/
def call : Nat → String → List Expr → Act Cell
  | 0, _, _ => return .unset
  | fuel + 1, name, arguments => do
    match (← get).functions[name]? with
    | none => return .unset
    | some d =>
      let given ← slots fuel arguments
      let s ← get
      let count := d.parameters.length
      if heldMax < s.held + count then
        giveUp (Octets.ofString "program limit exceeded: eval stack size=1024")
      let own := (given ++ List.replicate (count - given.length) (Slot.unset none)).toArray
      set { s with own, held := s.held + count, result := .unset }
      upTo .return (exec fuel d.body)
      modifyGet fun after => (after.result, { after with own := s.own, held := s.held, result := .unset })

def exec : Nat → Stmt → Act Unit
  | 0, _ => return
  | fuel + 1, stmt => do
    match stmt with
    | .run e =>
      let _ ← eval fuel e
    | .print arguments outlet =>
      let texts ← if arguments.isEmpty then do pure [← textOf (← field 0)]
        else (← evalAll fuel arguments).mapM printedText
      let target ← destination fuel outlet
      emit target ((← textAt "OFS").intercalate texts ++ (← textAt "ORS"))
    | .printf arguments outlet =>
      let values ← evalAll fuel arguments
      let target ← destination fuel outlet
      emit target (← format "printf" false (emit target) values)
    | .block body => execAll fuel body
    | .branch condition yes no =>
      if (← eval fuel condition).isTrue then exec fuel yes
      else match no with
        | some no => exec fuel no
        | none => return
    | .loop condition body =>
      if (← eval fuel condition).isTrue then
        if ← turn (exec fuel body) then exec fuel stmt
    | .loopOnce body condition =>
      if ← turn (exec fuel body) then
        if (← eval fuel condition).isTrue then exec fuel stmt
    | .forLoop (some first) condition next body =>
      let _ ← eval fuel first
      exec fuel (.forLoop none condition next body)
    | .forLoop none condition next body =>
      let goesOn ← match condition with
        | some e => Cell.isTrue <$> eval fuel e
        | none => pure true
      if goesOn then
        if ← turn (exec fuel body) then
          match next with
          | some e =>
            let _ ← eval fuel e
          | none => pure ()
          exec fuel stmt
    | .forEach k array body =>
      let table ← tableOf array
      let keys ← modifyGet fun s =>
        let (keys, t) := ((s.tables[table]?).getD {}).keys
        (keys, { s with tables := s.tables.setIfInBounds table t })
      each fuel k body keys
    | .next => throw .next
    | .nextFile => throw .nextFile
    | .exit status =>
      match status with
      | some e =>
        let c ← eval fuel e
        modify fun s => { s with status := (toPlace c.toNumber % 256).toNat }
      | none => pure ()
      throw .exit
    | .return value =>
      let result ← match value with
        | some e => eval fuel e
        | none => pure .unset
      modify fun s => { s with result }
      throw .return
    | .break => throw .break
    | .continue => throw .continue
    | .delete array [] => changeTable (← tableOf array) fun _ => {}
    | .delete array index =>
      let k ← key fuel index
      changeTable (← tableOf array) fun t => t.erase k

def execAll : Nat → List Stmt → Act Unit
  | 0, _ => return
  | fuel + 1, all => do
    match all with
    | [] => return
    | stmt :: rest =>
      exec fuel stmt
      execAll fuel rest

/-- Carries out a statement for each of some keys. -/
def each : Nat → Name → Stmt → List Octets → Act Unit
  | 0, _, _, _ => return
  | fuel + 1, k, body, keys => do
    match keys with
    | [] => return
    | first :: rest =>
      setVariable k (.text first)
      if ← turn (exec fuel body) then each fuel k body rest

def destination : Nat → Option (Outlet × Expr) → Act (Option (Outlet × Octets))
  | 0, _ => return none
  | fuel + 1, outlet => do
    match outlet with
    | none => return none
    | some (o, e) => return some (o, ← textOf (← eval fuel e))
end

/-- Whether the action of a rule is carried out for the record. -/
def applies (t : Trigger) : Act Bool := do
  match t with
  | .first | .last => return false
  | .always => return true
  | .holds e => return (← eval endless e).isTrue
  | .range number first last =>
    let isActive := (← get).active.contains number
    let begins ← if isActive then pure true else Cell.isTrue <$> eval endless first
    if begins then
      let ends := (← eval endless last).isTrue
      modify fun s =>
        let others := s.active.filter (· ≠ number)
        { s with active := if ends then others else number :: others }
    return begins

/-- Carries out the action of a rule. -/
def act (r : Rule) : Act Unit :=
  match r.action with
  | some stmt => exec endless stmt
  | none => exec endless (.print [] none)

/-- Carries out rules for the record. -/
def actAll (rules : List Rule) : Act Unit := do
  for r in rules do
    if ← applies r.trigger then act r

/-- Leaves what records are read from. -/
def leaveFile : Act Unit := modify fun s => { s with main := none }

/-- Carries out rules for the record, up to where the next one is gone on to. -/
def actOnRecord (rules : List Rule) : Act Unit :=
  tryCatch (actAll rules) fun
    | .next => return
    | .nextFile => leaveFile
    | j => throw j

/-- Carries out rules for all records. The first argument bounds their number. -/
def actOnRecords (rules : List Rule) : Nat → Act Unit
  | 0 => return
  | fuel + 1 => do
    match ← mainRecord with
    | none => return
    | some text =>
      setRecord text
      actOnRecord rules
      actOnRecords rules fuel

/-- Whether a rule is carried out for records. -/
def isForRecords (r : Rule) : Bool :=
  match r.trigger with
  | .first | .last => false
  | _ => true

/-- Whether a rule is carried out at the beginning. -/
def isFirst (r : Rule) : Bool :=
  match r.trigger with
  | .first => true
  | _ => false

/-- Whether a rule is carried out at the end. -/
def isLast (r : Rule) : Bool :=
  match r.trigger with
  | .last => true
  | _ => false

def runRules (rules : List Rule) : Act Unit := do
  let main := rules.filter isForRecords
  let last := rules.filter isLast
  upTo .exit (do
    for r in rules.filter isFirst do act r
    if !(main.isEmpty && last.isEmpty) then actOnRecords main endless)
  modify fun s => { s with held := 0, own := #[] }
  upTo .exit (for r in last do act r)

end Act

end LintRun.Command.Awk
