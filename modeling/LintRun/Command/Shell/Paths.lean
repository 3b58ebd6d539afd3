import LintRun.Command.Shell.Pattern
import LintRun.Files.Tree

/-! The files whose paths a pattern matches, in the order of their octets. No result rests on this
    module. -/

namespace LintRun.Command.Shell

/-- The names of a pattern of paths, between its slashes. -/
def splitSlashes : List PatternChar → List (List PatternChar)
  | [] => [[]]
  | p :: s =>
    if p.1 = '/' then [] :: splitSlashes s
    else match splitSlashes s with
      | first :: rest => (p :: first) :: rest
      | [] => [[p]]

/-- The names in the directory of a path; none if it is no directory. -/
def namesIn (t : FileTree) (directory : Octets) : List Octets :=
  let path : Path := ⟨if directory = [] then "." else Octets.toText directory⟩
  match t.resolve path with
  | .ok place =>
    if t.entry? place = some .directory then
      ['.'] :: ['.', '.'] :: (t.children place).map Octets.ofString
    else []
  | .error _ => []

/-- Whether a name matches a part of a pattern. A dot at its beginning has to be spelled. -/
def matchesName (pattern : List PatternChar) (name : Octets) : Bool :=
  (name.head? ≠ some '.' || pattern.head?.any (·.1 = '.')) && Atom.matches (atomsOf pattern) name

/-- The paths that begin in some way and go on as some patterns say. -/
def pathsFrom (t : FileTree) : Octets → List (List PatternChar) → List Octets
  | start, [] => if t.holds ⟨Octets.toText start⟩ then [start] else []
  | start, pattern :: rest =>
    let slash : Octets := if rest = [] then [] else ['/']
    if pattern.any isWild then
      let names := (namesIn t start).filter (matchesName pattern)
      let names := if rest = [] then names
        else names.filter fun name => t.isDirectory ⟨Octets.toText (start ++ name)⟩
      (names.mergeSort fun a b => a ≤ b).flatMap fun name =>
        pathsFrom t (start ++ name ++ slash) rest
    else pathsFrom t (start ++ pattern.map (·.1) ++ slash) rest

/-- A field as paths, if it is a pattern that matches some, or as it is. -/
def pathsOf (t : FileTree) (field : List PatternChar) : List Octets :=
  let text := field.map (·.1)
  if field.any isWild then
    match pathsFrom t [] (splitSlashes field) with
    | [] => [text]
    | paths => paths
  else [text]

end LintRun.Command.Shell
