import LintRun.Files.OsError
import LintRun.Path.Basic
import LintRun.Text.Utf8

/-! A tree of files and directories, how a path leads through it, and what reading and writing do.

    A place is the list of names that lead to it from the root. The tree is the list of places that
    hold something; the root always holds a directory. A path is walked name by name, and each name
    must be looked up in a directory. -/

namespace LintRun

/-- The names that lead from the root to a place. -/
abbrev Place := List String

/-- What a place holds. -/
inductive Entry where
  | file (bytes : List UInt8)
  | directory
  deriving Repr, DecidableEq, Inhabited

/-- All files and directories, and the directory in which relative paths begin. -/
structure FileTree where
  entries : List (Place × Entry) := []
  here : Place := []
  deriving Repr, DecidableEq, Inhabited

namespace FileTree

/-- The number of bytes that a name may have. -/
def nameMax : Nat := 255

/-- The number of bytes that a path stays below. -/
def pathLimit : Nat := 4096

/-- What a place holds, if anything. -/
def entry? (t : FileTree) (p : Place) : Option Entry :=
  if p = [] then some .directory else t.entries.lookup p

def set (t : FileTree) (p : Place) (e : Entry) : FileTree :=
  if (t.entries.lookup p).isSome then
    { t with entries := t.entries.map fun (q, old) => if q = p then (q, e) else (q, old) }
  else { t with entries := t.entries ++ [(p, e)] }

/-- The names in a directory, in their order. -/
def children (t : FileTree) (p : Place) : List String :=
  (t.entries.filterMap fun (q, _) =>
    if q.dropLast = p then q.getLast? else none).mergeSort fun a b => a ≤ b

/-- One step of a walk: a name, `.` or nothing, or `..`, looked up in a directory. -/
def step (t : FileTree) (p : Place) (name : String) : Except OsError Place :=
  match t.entry? p with
  | none => .error .notFound
  | some (.file _) => .error .notADirectory
  | some .directory =>
    if name = "" || name = "." then .ok p
    else if name = ".." then .ok p.dropLast
    else if nameMax < name.utf8ByteSize then .error .nameTooLong
    else if (t.entry? (p ++ [name])).isSome then .ok (p ++ [name])
    else .error .notFound

/-- A walk over some names. -/
def walk (t : FileTree) : Place → List String → Except OsError Place
  | p, [] => .ok p
  | p, name :: rest => do walk t (← t.step p name) rest

/-- Where the walk along a path begins, unless it cannot begin at all. -/
def start (t : FileTree) (path : Path) : Except OsError Place :=
  if path.text.toList.contains '\x00' then .error .nulInPath
  else if path.isEmpty then .error .notFound
  else if pathLimit ≤ path.text.utf8ByteSize then .error .nameTooLong
  else .ok (if path.isAbsolute then [] else t.here)

/-- The place that a path leads to. -/
def resolve (t : FileTree) (path : Path) : Except OsError Place := do
  t.walk (← t.start path) path.segments

/-- What a path leads to. -/
def stat (t : FileTree) (path : Path) : Except OsError Entry := do
  match t.entry? (← t.resolve path) with
  | some e => .ok e
  | none => .error .notFound

def isFile (t : FileTree) (path : Path) : Bool :=
  match t.stat path with
  | .ok (.file _) => true
  | _ => false

def isDirectory (t : FileTree) (path : Path) : Bool :=
  match t.stat path with
  | .ok .directory => true
  | _ => false

/-- Whether a path leads anywhere. -/
def holds (t : FileTree) (path : Path) : Bool := (t.stat path).toOption.isSome

def readBytes (t : FileTree) (path : Path) : Except OsError (List UInt8) := do
  match ← t.stat path with
  | .file bytes => .ok bytes
  | .directory => .error .isADirectory

/-- The text of a file that must be well formed. -/
def readStrict (t : FileTree) (path : Path) : Except OsError String := do
  match Text.Utf8.strict (← t.readBytes path) with
  | some s => .ok s
  | none => .error .invalidText

/-- The text of a file, without a byte order mark and with replacements for what is malformed. -/
def readText (t : FileTree) (path : Path) : Except OsError String := do
  return Text.Utf8.lossy (Text.Utf8.dropMark (← t.readBytes path))

/-- A path as something that may come to be: the names of its parent, its own name, and whether
    separators follow it. -/
structure Target where
  parent : List String
  name : String
  trailing : Bool
  deriving Repr, DecidableEq

/-- The target that some names of a path spell. -/
def Target.ofSegments (segments : List String) : Target :=
  match segments.reverse.dropWhile (· = "") with
  | [] => ⟨[], "", true⟩
  | name :: parent => ⟨parent.reverse, name, segments.getLast? = some ""⟩

/-- Whether the name is none that a directory could hold. -/
def Target.isLoose (target : Target) : Bool :=
  target.name = "" || target.name = "." || target.name = ".."

/-- The directory that a target lies in. -/
def parentOf (t : FileTree) (path : Path) : Except OsError (Place × Target) := do
  let target := Target.ofSegments path.segments
  let p ← t.walk (← t.start path) target.parent
  match t.entry? p with
  | some .directory => .ok (p, target)
  | some (.file _) => .error .notADirectory
  | none => .error .notFound

/-- The place where the file of a path is or comes to be. -/
def filePlace (t : FileTree) (path : Path) : Except OsError Place := do
  let (p, target) ← t.parentOf path
  if target.isLoose || target.trailing then .error .isADirectory
  else if nameMax < target.name.utf8ByteSize then .error .nameTooLong
  else match t.entry? (p ++ [target.name]) with
    | some .directory => .error .isADirectory
    | _ => .ok (p ++ [target.name])

/-- Writes a file in a directory that is there. A file that is there is replaced. That a write fails
    after the file was opened, on a full device or beyond the size that a file may have, is left
    out. -/
def create (t : FileTree) (path : Path) (bytes : List UInt8) : Except OsError Unit × FileTree :=
  match t.filePlace path with
  | .error e => (.error e, t)
  | .ok p => (.ok (), t.set p (.file bytes))

/-- Makes one directory in a directory that is there. -/
def makeDirectory (t : FileTree) (path : Path) : Except OsError FileTree := do
  let (p, target) ← t.parentOf path
  if target.isLoose then .error .fileExists
  else if nameMax < target.name.utf8ByteSize then .error .nameTooLong
  else if (t.entry? (p ++ [target.name])).isSome then .error .fileExists
  else .ok (t.set (p ++ [target.name]) .directory)

/-- Makes a directory once its parent is there. That it is there already is fine. -/
def settle (t : FileTree) (path : Path) : Except OsError Unit × FileTree :=
  match t.makeDirectory path with
  | .ok t => (.ok (), t)
  | .error e => if t.isDirectory path then (.ok (), t) else (.error e, t)

/-- Makes a directory and those above it that are missing. The first argument bounds their
    number. -/
def makeAllWithin : Nat → FileTree → Path → Except OsError Unit × FileTree
  | 0, t, _ => (.error .notFound, t)
  | levels + 1, t, path =>
    if path.components = [] then (.ok (), t)
    else match t.makeDirectory path with
      | .error .notFound =>
        match path.parent? with
        | none => (.error (.other "failed to create whole tree"), t)
        | some parent =>
          match makeAllWithin levels t parent with
          | (.error e, t) => (.error e, t)
          | (.ok _, t) => t.settle path
      | _ => t.settle path

/-- Makes a directory and those above it that are missing. -/
def makeAll (t : FileTree) (path : Path) : Except OsError Unit × FileTree :=
  makeAllWithin (path.components.length + 1) t path

/-- Writes a file and makes the directories on the way to it. -/
def write (t : FileTree) (path : Path) (bytes : List UInt8) : Except OsError Unit × FileTree :=
  match path.parent? with
  | some parent =>
    if parent.isEmpty then t.create path bytes
    else match t.makeAll parent with
      | (.error e, t) => (.error e, t)
      | (.ok _, t) => t.create path bytes
  | none => t.create path bytes

/-- Writes a text to a file and makes the directories on the way to it. -/
def writeText (t : FileTree) (path : Path) (text : String) : Except OsError Unit × FileTree :=
  t.write path (Text.Utf8.encode text)

end FileTree

end LintRun
