import LintRun.Command.Shell.Expand

/-! Where the descriptors of a command lead. No result rests on this module. -/

namespace LintRun.Command.Shell

/-- A redirection whose words have been given their values. -/
inductive Target where
  | file (descriptor : Nat) (mode : FileMode) (name : Octets)
  | join (descriptor source : Nat)
  | close (descriptor : Nat)
  | text (descriptor : Nat) (content : Octets)
  deriving Repr, DecidableEq

/-- The descriptor that a word names, to be joined or closed. -/
def joinTarget (fd : Nat) (word : Octets) : Option Target :=
  match word with
  | ['-'] => some (.close fd)
  | [c] => if c.isDigit then some (.join fd (c.toNat - '0'.toNat)) else none
  | _ => none

/-- The target of a redirection; none once the shell gives up. -/
def targetOf (r : Runner) (redirect : Redirect) (s : Session) : Option Target × Session :=
  match redirect with
  | .file fd mode word =>
    let (name, s) := wordText r .first word s
    (some (.file fd mode name), s)
  | .join fd word =>
    let (name, s) := wordText r .first word s
    match joinTarget fd name with
    | some target => (some target, s)
    | none => (none, if s.isRunning then s.failSyntax s.line "Bad fd number" else s)
  | .document fd key =>
    let (text, s) := wordText r .never ((s.documents.lookup key).getD []) s
    (some (.text fd text), s)

def targetsOf (r : Runner) : List Redirect → Session → List Target × Session
  | [], s => ([], s)
  | redirect :: rest, s =>
    match targetOf r redirect s with
    | (some target, s) =>
      if s.isRunning then
        let (more, s) := targetsOf r rest s
        (target :: more, s)
      else ([], s)
    | (none, s) => ([], s)

/-- Why a file cannot be opened, to be read or to be written. -/
def openFailure (reads : Bool) (name : Octets) (e : OsError) : Octets :=
  let verb := if reads then "cannot open " else "cannot create "
  let cause := match e with
    | .notFound | .notADirectory => if reads then "No such file" else "Directory nonexistent"
    | e => causeOf e
  Octets.ofString verb ++ name ++ Octets.ofString s!": {cause}"

/-- Gives up because a file cannot be opened. -/
def failOpening (reads : Bool) (name : Octets) (e : OsError) (s : Session) : Session :=
  s.fail (openFailure reads name e)

namespace Session

/-- Has a descriptor lead where another one does. -/
def join (s : Session) (fd source : Nat) : Session :=
  match s.descriptors.lookup source with
  | some port => s.redirect fd port
  | none => s.fail (Octets.ofString s!"{source}: Bad file descriptor")

/-- Has a descriptor lead to a file that is read. -/
def openToRead (s : Session) (fd : Nat) (name : Octets) : Session :=
  let path : Path := ⟨Octets.toText name⟩
  match s.machine.tree.resolve path with
  | .ok place =>
    if s.machine.tree.entry? place = some .directory then s.connect fd .nothing
    else s.connect fd (.file place 0 false)
  | .error e => failOpening true name e s

/-- Has a descriptor lead to a file that is written, and made before if it is not there. -/
def openToWrite (s : Session) (fd : Nat) (mode : FileMode) (name : Octets) : Session :=
  let path : Path := ⟨Octets.toText name⟩
  let tree := s.machine.tree
  match tree.filePlace path with
  | .error e => failOpening false name e s
  | .ok place =>
    let isThere := (tree.entry? place).isSome
    if isThere && mode = .write && s.hasOption 'C' then failOpening false name .fileExists s
    else
      let empties := mode = .write || mode = .replace
      let tree := if isThere && !empties then tree else tree.set place (.file [])
      { s with machine := { s.machine with tree } }.connect fd (.file place 0 (mode = FileMode.append))

/-- Has a descriptor lead to its target. -/
def connectTo (s : Session) : Target → Session
  | .join fd source => s.join fd source
  | .close fd => s.close fd
  | .text fd content => s.connect fd (.source content)
  | .file fd mode name =>
    match devices.lookup (Octets.toText name) with
    | some (some source) => s.join fd source
    | some none => s.connect fd (if mode = .read then .source [] else .nothing)
    | none => if mode = .read then s.openToRead fd name else s.openToWrite fd mode name

/-- Has descriptors lead to their targets, one after the other. -/
def connectAll (s : Session) (targets : List Target) : Session :=
  targets.foldl (fun s target => if s.isRunning then s.connectTo target else s) s

end Session

end LintRun.Command.Shell
