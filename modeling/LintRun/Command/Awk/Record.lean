import LintRun.Command.Awk.Session

/-! Records and their fields.

    The fields of a record are found when one of them is asked for, and the whole record is put
    together again when it is asked for after one of them was set.

    No result rests on this module. -/

namespace LintRun.Command.Awk

/-- Whether a character separates fields where blanks do. -/
def isFieldBlank (c : Char) : Bool := c = ' ' || c = '\t' || c = '\n'

/-- The parts of a text between blanks. The first argument bounds their number. -/
def blankParts : Nat → Octets → List Octets
  | 0, _ => []
  | fuel + 1, s =>
    match s.dropWhile isFieldBlank with
    | [] => []
    | s =>
      let part := s.takeWhile fun c => !isFieldBlank c
      part :: blankParts fuel (s.drop part.length)

/-- The parts of a text between characters of one kind. The first argument bounds their number. -/
def charParts (c : Char) : Nat → Octets → List Octets
  | 0, s => [s]
  | fuel + 1, s =>
    let part := s.takeWhile (· ≠ c)
    match s.drop part.length with
    | [] => [part]
    | _ :: rest => part :: charParts c fuel rest

/-- The parts of a text between matches of an expression that take a character. The first argument
    bounds their number. -/
def regexParts (r : Regex) : Nat → Bool → Octets → List Octets
  | 0, _, s => [s]
  | fuel + 1, atStart, s =>
    match r.findFilled atStart 0 s with
    | none => [s]
    | some (before, length) => s.take before :: regexParts r fuel false (s.drop (before + length))

namespace Separator

/-- The separator that a text stands for. -/
def ofText (s : Octets) : Except Regex.Fault Separator :=
  match s with
  | [' '] => .ok .blanks
  | [] => .ok .nothing
  | [c] => .ok (.char c)
  | s => (Regex.read s).map .regex

/-- The expression that matches a separator. -/
def toRegex : Separator → Regex
  | .blanks => .one false [.ofClass "space"]
  | .char c => .char c
  | .nothing => .empty
  | .regex r => r

/-- The parts of a text; lines may separate them too. -/
def parts (sep : Separator) (byLines : Bool) (s : Octets) : List Octets :=
  match s with
  | [] => []
  | s =>
    match sep, byLines with
    | .blanks, _ => blankParts (s.length + 1) s
    | .nothing, _ => s.map fun c => [c]
    | .char c, false => charParts c (s.length + 1) s
    | .regex r, false => regexParts r (s.length + 1) true s
    | sep, true => regexParts (.either sep.toRegex (.char '\n')) (s.length + 1) true s

end Separator

namespace Act

/-- Gives up because of a text that is no regular expression. -/
def failRegex {α : Type} (spelled : Octets) (e : Regex.Fault) : Act α :=
  fail (Octets.ofString s!"regular expression compile failed ({e.message})\n" ++ spelled)

/-- The separator that a text stands for. -/
def separatorOf (s : Octets) : Act Separator := do
  match Separator.ofText s with
  | .ok sep => return sep
  | .error e => failRegex s e

def setRecord (s : Octets) : Act Unit := do
  let separator ← separatorOf (← textAt "FS")
  let byLines := (← textAt "RS") = []
  modify fun st => { st with
    record := { whole := .input s, separator, byLines, isSplit := false, isJoined := true } }

/-- Finds the fields of the record. -/
def splitRecord : Act Unit := do
  let r := (← get).record
  if !r.isSplit then
    let parts := r.separator.parts r.byLines (← textOf r.whole)
    modify fun s => { s with record := { s.record with
      fields := (parts.map Cell.input).toArray, count := .number (Float.ofNat parts.length)
      isSplit := true } }

/-- Puts the record together from its fields. -/
def joinRecord : Act Unit := do
  let r := (← get).record
  if !r.isJoined then
    let texts ← r.fields.toList.mapM textOf
    let whole := Cell.text ((← textAt "OFS").intercalate texts)
    modify fun s => { s with record := { s.record with whole, isJoined := true } }

def fieldNumber (c : Cell) : Act Nat := do
  let x := c.toNumber
  if x < 0 || x.isNaN then
    fail (Octets.ofString "negative field index $" ++ formed (Octets.ofString "%.6g") x)
  return (toPlace x).toNat

/-- The value of a field; that of number zero is the whole record. -/
def field (i : Nat) : Act Cell := do
  if i = 0 then
    joinRecord
    return (← get).record.whole
  else
    splitRecord
    return ((← get).record.fields[i - 1]?).getD (.text [])

/-- The fields with a number of them. -/
def resized (fields : Array Cell) (n : Nat) : Array Cell :=
  fields.take n ++ Array.replicate (n - fields.size) (.text [])

def setField (i : Nat) (c : Cell) : Act Unit := do
  if i = 0 then setRecord (← textOf c)
  else
    splitRecord
    modify fun s =>
      let r := s.record
      let isNew := r.fields.size < i
      let fields := if isNew then resized r.fields i else r.fields
      { s with record := { r with
          fields := fields.setIfInBounds (i - 1) c, isJoined := false
          count := if isNew then .number (Float.ofNat i) else r.count } }

def fieldCount : Act Cell := do
  splitRecord
  return (← get).record.count

def setFieldCount (c : Cell) : Act Unit := do
  splitRecord
  let n := toPlace c.toNumber
  if n < 0 then fail (Octets.ofString "negative value assigned to NF")
  modify fun s => { s with record := { s.record with
    fields := resized s.record.fields n.toNat, count := c, isJoined := false } }

/-- Gets a field ready to be set whose number was worked out. The whole record is lost if its fields
    have not been found yet. -/
def readyField (i : Nat) : Act Unit := do
  let s ← get
  if i = 0 && !s.record.isSplit then set { s with record := { s.record with whole := .text [] } }

end Act

end LintRun.Command.Awk
