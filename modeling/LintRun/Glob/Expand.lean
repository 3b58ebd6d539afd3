import LintRun.Files.Tree
import LintRun.Glob.Pattern

/-! The paths in a tree that a pattern leads to.

    A pattern is taken component by component, beginning in the directory `.` or at the root. A
    component without special characters is a name that must be there; one with them matches the
    names in a directory; `**` leads to everything below a directory, whose name the next component
    must match. -/

namespace LintRun

namespace FileTree

/-- The names in the directory of a path, in their order. -/
def list (t : FileTree) (path : Path) : List String :=
  match t.resolve path with
  | .ok p => if t.entry? p = some .directory then t.children p else []
  | .error _ => []

/-- Whether a list of names comes before another one or is the same. -/
def namesLE : List String → List String → Bool
  | [], _ => true
  | _ :: _, [] => false
  | a :: as, b :: bs => if a = b then namesLE as bs else a < b

/-- The names that lead from the directory of a path to all that lies below it: each directory comes
    right before what it holds, and names in one directory stand in their order. -/
def below (t : FileTree) (path : Path) : List (List String) :=
  match t.resolve path with
  | .ok p =>
    (t.entries.filterMap fun (q, _) =>
      if p.isPrefixOf q && q ≠ p then some (q.drop p.length) else none).mergeSort namesLE
  | .error _ => []

end FileTree

namespace Glob

/-- One component of a pattern. -/
inductive Segment where
  | name (text : String)
  | pattern (tokens : List Token)
  | anyDepth
  deriving Repr, DecidableEq

/-- The text of parts that are characters only. -/
def plainText : List Token → Option (List Char)
  | [] => some []
  | .char c :: rest => (plainText rest).map (c :: ·)
  | _ :: _ => none

/-- The component that some parts form. -/
def Segment.ofTokens (ts : List Token) : Segment :=
  if ts.contains .anyDepth then .anyDepth
  else match plainText ts with
    | some cs => .name (String.ofList cs)
    | none => .pattern ts

/-- Whether a component matches a name. -/
def Segment.isMatch : Segment → String → Bool
  | .name text, s => text = s
  | .pattern ts, s => Glob.isMatch ts s.toList
  | .anyDepth, _ => true

/-- Components in which `**` does not repeat. -/
def collapse : List Segment → List Segment
  | [] => []
  | .anyDepth :: rest =>
    match collapse rest with
    | .anyDepth :: more => .anyDepth :: more
    | more => .anyDepth :: more
  | s :: rest => s :: collapse rest

/-- A pattern as it is carried out: where it begins, its components, and whether it only leads to
    directories. -/
structure Plan where
  scope : Path
  segments : List Segment
  directories : Bool
  deriving Repr, DecidableEq

/-- The pieces of a text, each ended by a separator or by the end of the text. -/
def pieces (s : List Char) : List (List Char) :=
  let all := Path.segmentsOf s
  if all.getLast? = some [] then all.dropLast else all

/-- The plan of a pattern. The whole pattern must be well formed, and each component too. -/
def Plan.ofText (s : String) : Except PatternError Plan := do
  let _ ← tokens s.toList
  let absolute := s.toList.head? = some '/'
  let parts ← (pieces (if absolute then s.toList.drop 1 else s.toList)).mapM tokens
  return { scope := ⟨if absolute then "/" else "."⟩
           segments := collapse (parts.map Segment.ofTokens)
           directories := s.toList.getLast? = some '/' }

/-- Whether a path is the directory in which relative patterns begin. -/
def isCurrent (path : Path) : Bool := path.components = [.current]

/-- A path below another one, which is not spelled if it is where relative patterns begin. -/
def under (path : Path) (names : List String) : Path :=
  let rest : Path := ⟨"/".intercalate names⟩
  if isCurrent path then rest else path.join rest

/-- Whether a name component leads on from a path. -/
def leads (t : FileTree) (path next : Path) (name : String) : Bool :=
  if name = "." || name = ".." then t.isDirectory path else t.holds next

/-- The entries `..` and `.` of a directory, where a pattern asks for them: its first character must
    be a dot. -/
def dots (ts : List Token) : List String :=
  if ts.head? = some (.char '.') then
    ["..", "."].filter fun s => Glob.isMatch ts s.toList
  else []

/-- The paths that some components lead to from a path, in the order in which they are found. -/
def expandFrom (t : FileTree) (directories : Bool) : List Segment → Path → List Path
  | [], path => if directories && !t.isDirectory path then [] else [path]
  | .name text :: rest, path =>
    let next := under path [text]
    if leads t path next text then expandFrom t directories rest next else []
  | .pattern ts :: rest, path =>
    if t.isDirectory path then
      (dots ts).flatMap (fun s => expandFrom t directories rest (path.join ⟨s⟩)) ++
        ((t.list path).filter fun s => Glob.isMatch ts s.toList).flatMap fun s =>
          expandFrom t directories rest (under path [s])
    else []
  | [.anyDepth], path => ((t.below path).map (under path)).filter t.isDirectory
  | .anyDepth :: next :: rest, path =>
    ((t.below path).filter fun names => names.getLast?.any next.isMatch).flatMap fun names =>
      expandFrom t directories rest (under path names)

/-- The paths that a pattern leads to. -/
def Plan.expand (t : FileTree) (plan : Plan) : List Path :=
  if plan.segments = [] then [] else expandFrom t plan.directories plan.segments plan.scope

/-- The paths that a pattern leads to, in the order in which they are found. -/
def expand (t : FileTree) (pattern : String) : Except PatternError (List Path) := do
  return (← Plan.ofText pattern).expand t

end Glob

end LintRun
