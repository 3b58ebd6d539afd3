import LintRun.Command.Awk.Cell
import Std.Data.HashMap

/-! Arrays: values under keys that are texts, and the order in which a loop goes through them.

    Keys are spread over buckets by a hash of their text, and a key that is looked up comes first in
    its bucket. A key that is an integer is looked up by its number, and gets its text only when
    some key is looked up by its text or a loop begins.

    No result rests on this module. -/

namespace LintRun.Command.Awk

/-- A key: an integer or a text. -/
inductive Key where
  | number (n : Int)
  | text (s : Octets)
  deriving Repr, DecidableEq

def Key.toText : Key → Octets
  | .number n => (toString n).toList
  | .text s => s

/-- The key that a value stands for. -/
def Key.ofCell (form : Octets) : Cell → Key
  | .number x =>
    if x == signedBound then .number Numeral.signedMax
    else if -signedBound ≤ x && x < signedBound && Float.ofInt (integerOf x) == x then
      .number (integerOf x)
    else .text (formed form x)
  | c => .text (c.toText form)

/-- What stands under a key: its value, the number of the key if it is looked up by one, and when it
    was last moved to the front among numbers and among texts. -/
structure Entry where
  cell : Cell := .unset
  number : Option Int := none
  numberTime : Nat := 0
  textTime : Option Nat := none
  deriving Inhabited

/-- An array. `byText` tells whether its keys have their texts, and `clock` counts the moves. -/
structure Table where
  entries : Std.HashMap Octets Entry := {}
  byText : Bool := false
  buckets : Nat := 64
  clock : Nat := 0
  deriving Inhabited

/-- How many keys a bucket holds on average before there are more buckets. -/
def bucketLoad : Nat := 12

def hashOf (s : Octets) : Nat :=
  s.foldl (fun h c => (h ^^^ c.toNat) * 16777619 % 4294967296) 2166136261

namespace Table

/-- How many keys an array has. -/
def size (t : Table) : Nat := t.entries.size

def numberBucket (t : Table) (n : Int) : Nat := (n % (t.buckets : Int)).toNat

def textBucket (t : Table) (s : Octets) : Nat := hashOf s % t.buckets

/-- Whether one of two keys with a bucket and a time comes first. -/
def comesBefore (a b : Octets × Nat × Nat) : Bool :=
  a.2.1 < b.2.1 || (a.2.1 = b.2.1 && b.2.2 ≤ a.2.2)

/-- The array with texts for all of its keys. -/
def withTexts (t : Table) : Table :=
  if t.byText then t
  else
    let keys := t.entries.toList.map fun (key, e) =>
      (key, t.numberBucket (e.number.getD 0), e.numberTime)
    let t := (keys.mergeSort comesBefore).foldl (fun t (key, _) =>
      { t with
        entries := t.entries.modify key fun e => { e with textTime := some t.clock }
        clock := t.clock + 1 }) t
    { t with byText := true }

/-- The keys in the order in which a loop goes through them, and the array behind that. -/
def keys (t : Table) : List Octets × Table :=
  let t := t.withTexts
  let keys := t.entries.toList.map fun (key, e) => (key, t.textBucket key, e.textTime.getD 0)
  ((keys.mergeSort comesBefore).map (·.1), t)

/-- The array with room for its keys. -/
def grown (t : Table) : Table :=
  if t.buckets * bucketLoad < t.size then { t with buckets := t.buckets * 2 } else t

/-- The value under a key, if there is one. -/
def find? (t : Table) (key : Key) : Option Cell := (t.entries[key.toText]?).map (·.cell)

/-- The array as it is when a key has been looked up. -/
def touched (t : Table) (key : Key) : Table :=
  if t.entries.isEmpty then t
  else match key with
    | .text s =>
      let t := t.withTexts
      { t with
        entries := t.entries.modify s fun e => { e with textTime := some t.clock }
        clock := t.clock + 1 }
    | .number n =>
      { t with
        entries := t.entries.modify key.toText fun e =>
          let textTime := if e.number.isSome then e.textTime else some t.clock
          { e with number := some n, numberTime := t.clock, textTime }
        clock := t.clock + 1 }

/-- The array with a value under a key. -/
def insert (t : Table) (key : Key) (cell : Cell) : Table :=
  let s := key.toText
  let t := match key with
    | .text _ => t.withTexts
    | .number _ => t
  let now := t.clock
  let e := (t.entries[s]?).getD {}
  let isNew := !t.entries.contains s
  let e := match key with
    | .text _ => { e with cell, textTime := some now }
    | .number n =>
      let textTime := if !t.byText || (!isNew && e.number.isSome) then e.textTime else some now
      { e with cell, textTime, number := some n, numberTime := now }
  let t := { t with entries := t.entries.insert s e, clock := now + 1 }
  if isNew then t.grown else t

/-- The array with a value under a key that may have been made before; that moves no key. -/
def set (t : Table) (key : Key) (cell : Cell) : Table :=
  let s := key.toText
  if t.entries.contains s then
    { t with entries := t.entries.modify s fun e => { e with cell } }
  else t.insert key cell

def erase (t : Table) (key : Key) : Table :=
  let t := t.touched key
  let t := { t with entries := t.entries.erase key.toText }
  if t.entries.isEmpty then {} else t

/-- An array of some values under the numbers from one on. -/
def ofList (cells : List Cell) : Table :=
  (cells.foldl (fun (n, t) cell => (n + 1, Table.insert t (.number n) cell))
    ((1 : Int), ({} : Table))).2

end Table

end LintRun.Command.Awk
