/-! Paths as they are spelled, and the components that they are made of.

    Separators that repeat, stand at the end or enclose a lone `.` do not count, save a `.` at the
    very beginning. Two paths are the same when their components are, and they are ordered by their
    components.

    A path here is text, and is shown as the text that it is. A system may know paths that are no
    text. What goes by no more of a path than how it is shown takes any type of paths
    (`PathLike`). -/

namespace LintRun

/-- A path as it is spelled. Only paths that are text, in well formed UTF-8, are of this type, so a
    path is told by what it is shown as. -/
structure Path where
  text : String
  deriving Repr, DecidableEq, Inhabited

/-- A type of paths, among them those that are text: how one is shown, whether it is empty, and its
    extension, if that is text. Two paths may be shown as the same text, but a path that is text is
    shown as that text. -/
class PathLike (π : Type) where
  ofPath : Path → π
  display : π → String
  isEmpty : π → Bool
  extension? : π → Option String
  display_ofPath : ∀ p, display (ofPath p) = p.text
  isEmpty_ofPath : ∀ p, isEmpty (ofPath p) = p.text.isEmpty

inductive Component where
  | root
  | current
  | parent
  | name (text : String)
  deriving Repr, DecidableEq, Inhabited

/-- Paths that are text are told by what they are shown as. -/
theorem PathLike.eq_of_display_eq {π : Type} [PathLike π] {p q : Path}
    (h : display (ofPath p : π) = display (ofPath q : π)) : p = q := by
  rw [display_ofPath, display_ofPath] at h
  exact congrArg Path.mk h

namespace Path

/-- The pieces of a text between separators. -/
def segmentsOf : List Char → List (List Char)
  | [] => [[]]
  | c :: rest =>
    if c = '/' then [] :: segmentsOf rest
    else match segmentsOf rest with
      | [] => [[c]]
      | s :: more => (c :: s) :: more

/-- The pieces of a path between separators. A path that begins at the root has an empty first
    piece. -/
def segments (p : Path) : List String := (segmentsOf p.text.toList).map String.ofList

def isAbsolute (p : Path) : Bool := p.text.toList.head? = some '/'

def isEmpty (p : Path) : Bool := p.text.isEmpty

/-- The component that a piece stands for, if it counts. -/
def bodyComponent (s : String) : Option Component :=
  if s = "" || s = "." then none
  else if s = ".." then some .parent
  else some (.name s)

def components (p : Path) : List Component :=
  match p.segments with
  | [] => []
  | first :: rest =>
    let head : List Component :=
      if p.isAbsolute then [.root]
      else if first = "." then [.current]
      else (bodyComponent first).toList
    head ++ rest.filterMap bodyComponent

/-- Whether two paths have the same components. -/
def Same (p q : Path) : Prop := p.components = q.components

instance (p q : Path) : Decidable (Same p q) := inferInstanceAs (Decidable (_ = _))

/-- The name at the end of a path; there is none after `..`, nor for a path of dots or the root. -/
def fileName? (p : Path) : Option String :=
  match p.components.getLast? with
  | some (.name s) => some s
  | _ => none

/-- What follows the last dot of a name, unless that is its first character and the only dot. -/
def extensionOf (name : List Char) : Option (List Char) :=
  let tail := name.reverse.takeWhile (· ≠ '.')
  let stem := name.take (name.length - tail.length - 1)
  if tail.length = name.length || stem = [] then none else some tail.reverse

/-- The extension of the name at the end of a path. -/
def extension? (p : Path) : Option String := do
  return String.ofList (← extensionOf (← p.fileName?).toList)

@[default_instance]
instance : PathLike Path := ⟨id, text, isEmpty, extension?, fun _ => rfl, fun _ => rfl⟩

@[simp] theorem ofPath_eq : (PathLike.ofPath : Path → Path) = id := rfl

@[simp] theorem display_eq (p : Path) : PathLike.display p = p.text := rfl

@[simp] theorem isEmpty_eq (p : Path) : PathLike.isEmpty p = p.isEmpty := rfl

@[simp] theorem extension?_eq (p : Path) : PathLike.extension? p = p.extension? := rfl

/-- A path below another one. A path that begins at the root stays as it is. -/
def join (p q : Path) : Path :=
  if q.isAbsolute || p.isEmpty then q
  else if p.text.toList.getLast? = some '/' then ⟨p.text ++ q.text⟩
  else ⟨p.text ++ "/" ++ q.text⟩

/-- The pieces without those at the end that are no components; `first` tells whether the first
    piece is there, at which a lone `.` counts. -/
def dropLoose (first : Bool) (pieces : List String) : List String :=
  match pieces.reverse.dropWhile fun s => (bodyComponent s).isNone with
  | [] => if first && pieces.head? = some "." then ["."] else []
  | kept => kept.reverse

/-- The pieces up to the last component, without that one and what is loose before it. -/
def dropComponent (first : Bool) (pieces : List String) : List String :=
  match dropLoose first pieces with
  | [] => []
  | kept => if kept = ["."] then [] else dropLoose first kept.dropLast

/-- The path without its last component. There is none for the root and for the empty path. -/
def parent? (p : Path) : Option Path :=
  match p.components.getLast? with
  | none | some .root => none
  | some _ =>
    if p.isAbsolute then some ⟨"/" ++ "/".intercalate (dropComponent false p.segments.tail)⟩
    else some ⟨"/".intercalate (dropComponent true p.segments)⟩

end Path

namespace Component

/-- The root comes first, then `.`, then `..`, then names. -/
def rank : Component → Nat
  | .root => 0
  | .current => 1
  | .parent => 2
  | .name _ => 3

/-- Whether a component comes before another one; names stand in the order of their characters. -/
def precedes : Component → Component → Bool
  | .name a, .name b => a < b
  | a, b => a.rank < b.rank

end Component

namespace Path

/-- Whether a list of components comes before another one or is the same. -/
def componentsLE : List Component → List Component → Bool
  | [], _ => true
  | _ :: _, [] => false
  | a :: as, b :: bs => if a = b then componentsLE as bs else a.precedes b

/-- The order of paths by components. -/
def le (p q : Path) : Bool := componentsLE p.components q.components

end Path

end LintRun
