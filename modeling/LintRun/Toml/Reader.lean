import LintRun.Toml.Number
import LintRun.Toml.Table
import LintRun.Toml.Text

/-! Reading TOML.

    A document is a list of statements, one a line: headers, repeated headers and assignments. They
    are read first and carried out in order afterwards, so that a document is refused when a line is
    malformed or when a line contradicts an earlier one. -/

namespace LintRun.Toml

/-- The number of levels that arrays and inline tables stay below, and that the parts of a key
    stay below. -/
def levelLimit : Nat := 80

/-- What follows a comment, if the text begins with one. -/
def afterComment? : List Char → Option (List Char)
  | '#' :: s => some (s.dropWhile isPlain)
  | _ => none

/-- A text without the blanks, line breaks and comments it begins with. -/
def skipFiller : Nat → List Char → List Char
  | 0, s => s
  | fuel + 1, s =>
    match afterComment? (skipBlank s) with
    | some rest => skipFiller fuel rest
    | none => skipBlank s

/-- Whether a character may stand in a key without quotes. -/
def isBare (c : Char) : Bool := c.isAlphanum || c = '-' || c = '_'

def readKeyPart (s : List Char) : Option (String × List Char) :=
  match s with
  | '"' :: _ | '\'' :: _ => readLineString s
  | s =>
    match s.span isBare with
    | ([], _) => none
    | (part, rest) => some (String.ofList part, rest)

/-- The parts of a key, separated by dots. The first argument bounds their number. -/
def readKeyParts : Nat → List Char → Option (List String × List Char)
  | 0, _ => none
  | fuel + 1, s => do
    let (part, s) ← readKeyPart (skipSpace s)
    match skipSpace s with
    | '.' :: s =>
      let (parts, s) ← readKeyParts fuel s
      return (part :: parts, s)
    | s => return ([part], s)

/-- A key: the parts before the last one, and the last one. -/
structure Key where
  path : List String
  name : String
  deriving Repr, DecidableEq

def readKey (s : List Char) : Option (Key × List Char) := do
  let (parts, s) ← readKeyParts s.length s
  let name ← parts.getLast?
  if parts.length < levelLimit then return (⟨parts.dropLast, name⟩, s) else none

/-- A date, a time or a number. -/
def readScalar (s : List Char) : Option (Value × List Char) :=
  match DateTime.read s with
  | some (d, rest) => some (.dateTime d, rest)
  | none => readNumber s

mutual
/-- A value in arrays and inline tables that are nested `levels` deep. The first argument bounds the
    parts that are read. -/
def readValue : Nat → (levels : Nat) → List Char → Option (Value × List Char)
  | 0, _, _ => none
  | fuel + 1, levels, s =>
    match s with
    | '"' :: _ | '\'' :: _ => (readString s).map fun (t, rest) => (.string t, rest)
    | 't' :: 'r' :: 'u' :: 'e' :: rest => some (.bool true, rest)
    | 'f' :: 'a' :: 'l' :: 's' :: 'e' :: rest => some (.bool false, rest)
    | '[' :: rest =>
      if levels + 1 < levelLimit then
        (readItems fuel (levels + 1) rest).map fun (items, rest) => (.array items, rest)
      else none
    | '\x7b' :: rest =>
      if levels + 1 < levelLimit then
        match skipSpace rest with
        | '\x7d' :: rest => some (.table [], rest)
        | rest =>
          (readPairs fuel (levels + 1) {} rest).map fun (table, rest) => (.table table.finish, rest)
      else none
    | s => readScalar s

/-- The items of an array, up to its bracket. A comma may follow the last one. -/
def readItems : Nat → (levels : Nat) → List Char → Option (List Value × List Char)
  | 0, _, _ => none
  | fuel + 1, levels, s =>
    match skipFiller s.length s with
    | ']' :: rest => some ([], rest)
    | s => do
      let (item, s) ← readValue fuel levels s
      match skipFiller s.length s with
      | ',' :: s =>
        let (items, s) ← readItems fuel levels s
        return (item :: items, s)
      | ']' :: s => return ([item], s)
      | _ => none

/-- The assignments of an inline table, up to its brace; there is at least one. -/
def readPairs : Nat → (levels : Nat) → Table → List Char → Option (Table × List Char)
  | 0, _, _, _ => none
  | fuel + 1, levels, table, s => do
    let (key, '=' :: s) ← readKey s | none
    let (value, s) ← readValue fuel levels (skipSpace s)
    let table ← table.assign key.path key.name value
    match skipSpace s with
    | ',' :: s => readPairs fuel levels table s
    | '\x7d' :: s => return (table, s)
    | _ => none
end

/-- One line of a document that says something. -/
inductive Statement where
  | header (key : Key)
  | repeated (key : Key)
  | assign (key : Key) (value : Value)

/-- What follows the end of a line, before which a comment may stand. -/
def readLineEnd (s : List Char) : Option (List Char) :=
  let s := skipSpace s
  match (afterComment? s).getD s with
  | [] => some []
  | s => afterBreak? s

/-- A statement, without the end of its line. -/
def readStatement (s : List Char) : Option (Statement × List Char) :=
  match s with
  | '[' :: '[' :: s => do
    let (key, ']' :: ']' :: s) ← readKey s | none
    return (.repeated key, s)
  | '[' :: s => do
    let (key, ']' :: s) ← readKey s | none
    return (.header key, s)
  | s => do
    let (key, '=' :: s) ← readKey s | none
    let (value, s) ← readValue (s.length + 1) 0 (skipSpace s)
    return (.assign key value, s)

/-- The statements of a document; `done` holds those read, last first. The first argument bounds the
    lines. -/
def readStatements : Nat → List Statement → List Char → Option (List Statement)
  | 0, _, _ => none
  | fuel + 1, done, s =>
    match skipSpace s with
    | [] => some done.reverse
    | s =>
      match readLineEnd s with
      | some rest => readStatements fuel done rest
      | none => do
        let (statement, s) ← readStatement s
        readStatements fuel (statement :: done) (← readLineEnd s)

/-- A document under construction: all its tables, and the path of the one that assignments go
    to. -/
structure Draft where
  root : Table := {}
  path : List String := []

def Draft.add (d : Draft) : Statement → Option Draft
  | .header key => do
    let root ← Table.descend .implied (Table.openTable key.name) key.path d.root
    return ⟨root, key.path ++ [key.name]⟩
  | .repeated key => do
    let root ← Table.descend .implied (Table.openNext key.name) key.path d.root
    return ⟨root, key.path ++ [key.name]⟩
  | .assign key value => do
    let root ← Table.descend .implied (Table.assign key.path key.name value) d.path d.root
    return ⟨root, d.path⟩

def Draft.addAll : Draft → List Statement → Option Draft
  | d, [] => some d
  | d, statement :: rest => do (← d.add statement).addAll rest

/-- A text without the byte order mark it may begin with. -/
def dropMark : List Char → List Char
  | '\uFEFF' :: s => s
  | s => s

/-- Reads a whole text as a document: the fields of its root table. -/
def read (text : String) : Option Fields := do
  let s := dropMark text.toList
  let statements ← readStatements (s.length + 1) [] s
  return (← Draft.addAll {} statements).root.finish

end LintRun.Toml
