import LintRun.Command.Shell.Arithmetic
import LintRun.Command.Shell.Branch
import LintRun.Command.Shell.Field
import LintRun.Command.Shell.Paths

/-! The values of words: parameters, the output of commands, arithmetic, and what becomes of all of
    it. No result rests on this module. -/

namespace LintRun.Command.Shell

/-- The letters of options in the order in which they are told. -/
def optionLetters : List Char :=
  ['u', 'b', 'a', 'C', 'E', 'V', 'v', 'x', 's', 'n', 'm', 'i', 'I', 'f', 'e']

namespace Session

/-- The value of a parameter that is no list. -/
def parameter? (s : Session) (name : String) : Option Octets :=
  let number := fun (n : Nat) => some (toString n).toList
  match name with
  | "#" => number s.arguments.length
  | "?" => number s.status
  | "$" => number s.root
  | "!" => s.lastChild.bind number
  | "-" => some (optionLetters.filter s.hasOption)
  | "0" => some s.zero
  | name =>
    if name.toList.all Char.isDigit then
      s.arguments[Text.natOfDigits 10 (name.toList.filterMap Text.digitValue) - 1]?
    else s.value? name

/-- What stands between the arguments of a list: a border where fields are made, unless the list is
    quoted as one; otherwise the first separator. -/
def listSeparator (s : Session) (full quoted : Bool) (name : String) : Octets :=
  if full && (!quoted || name = "@") then ['\x00'] else s.separators.take 1

def valueOf (s : Session) (full quoted : Bool) (name : String) : Option Octets :=
  if name = "@" || name = "*" then
    some ((s.listSeparator full quoted name).intercalate s.arguments)
  else s.parameter? name

/-- The home of a user, as far as it is known. -/
def home? (s : Session) (user : Octets) : Option Octets :=
  if user = [] then s.value? "HOME"
  else if user = "root".toList then some "/root".toList
  else none

end Session

/-- The pieces of a value. The arguments of a quoted list are fields of their own even if they are
    empty. -/
def valueGlyphs (full quoted : Bool) (value : Octets) : List Glyph :=
  if quoted then
    value.flatMap fun c => if c = '\x00' then [.mark, .cut, .mark] else [.char c true]
  else if full then value.map .loose ++ [.seam]
  else value.map (.char · false)

/-- The pieces of the value of a parameter. -/
def parameterGlyphs (s : Session) (full quoted : Bool) (name : String) (value : Octets) :
    List Glyph :=
  let isMarked := quoted && full && name = "@" && !s.arguments.isEmpty
  (if isMarked then [.mark] else []) ++ valueGlyphs full quoted value

/-- The pieces of a text in a word. -/
def textGlyphs (loose quoted : Bool) (text : Octets) : List Glyph :=
  if loose && !quoted then text.map .loose ++ [.seam] else text.map (.char · quoted)

/-- Where in a word a tilde stands for a home: nowhere, at the beginning, or behind colons too. -/
inductive Tildes where
  | never
  | first
  | colons
  deriving Repr, DecidableEq

/-- A part of a text that may begin with a tilde. A name that the text does not end is none. -/
def homePiece (s : Session) (eligible ends : Bool) (text : Octets) : List Part :=
  match text with
  | '~' :: t =>
    let user := t.takeWhile (· ≠ '/')
    let after := t.drop user.length
    match if eligible && (ends || after ≠ []) then s.home? user else none with
    | some home => [.text home true, .text after false]
    | none => [.text text false]
  | text => [.text text false]

/-- The parts of a text between its colons. -/
def homePieces (s : Session) (eligible ends : Bool) : List Octets → List Part
  | [] => []
  | [piece] => homePiece s eligible ends piece
  | piece :: rest =>
    homePiece s eligible true piece ++ .text [':'] false :: homePieces s true ends rest

/-- A text cut at its colons. -/
def splitColons : Octets → List Octets
  | [] => [[]]
  | c :: s =>
    if c = ':' then [] :: splitColons s
    else match splitColons s with
      | first :: rest => (c :: first) :: rest
      | [] => [[c]]

/-- The parts of a text that is not quoted, with homes in place of tildes. -/
def withHomes (s : Session) (tildes : Tildes) (isFirst isLast : Bool) (text : Octets) : List Part :=
  if !text.contains '~' then [.text text false]
  else match tildes with
    | .never => [.text text false]
    | .first => homePiece s isFirst isLast text
    | .colons => homePieces s isFirst isLast (splitColons text)

/-- How a word is given its value: whether it makes fields, whether the texts in it are split too,
    and where tildes count. -/
structure Manner where
  full : Bool := false
  loose : Bool := false
  tildes : Tildes := .never
  deriving Repr, DecidableEq

/-- The pieces of a text that is not quoted. -/
def plainGlyphs (s : Session) (m : Manner) (isFirst isLast : Bool) (text : Octets) : List Glyph :=
  (withHomes s m.tildes isFirst isLast text).flatMap fun
    | .text t quoted => textGlyphs (m.full && m.loose) quoted t
    | _ => []

/-- The value of an arithmetic expression as a text. -/
def arithmeticValue (s : Session) (text : Octets) : Octets × Session :=
  let vars : Arithmetic.Variables :=
    ⟨fun name => s.value? name, fun name => (s.variableAt? name).any (·.readOnly)⟩
  match Arithmetic.value vars text with
  | .ok (n, assigned) =>
    let s := assigned.reverse.foldl (fun s (name, n) => s.assign name (toString n).toList) s
    ((toString n).toList, s)
  | .error (.malformed reason) =>
    ([], s.fail (Octets.ofString s!"arithmetic expression: {reason}: \"" ++ text ++ ['"']))
  | .error (.illegalNumber value) => ([], s.fail (Octets.ofString "Illegal number: " ++ value))
  | .error (.readOnly name) => ([], s.failAt (Octets.ofString name) "is read only")

/-- Gives up because a parameter is not set. -/
def failUnset (s : Session) (name : String) (orEmpty : Bool) (reason : Octets) : Session :=
  let text := if reason ≠ [] then reason
    else Octets.ofString (if orEmpty then "parameter not set or null" else "parameter not set")
  s.fail (Octets.ofString s!"{name}: " ++ text)

mutual
/-- The pieces of a part that is no text. -/
def partGlyphs (r : Runner) (m : Manner) : Part → Session → List Glyph × Session
  | .text t quoted, s => (textGlyphs (m.full && m.loose) quoted t, s)
  | .mark, s => ([.mark], s)
  | .parameter name use quoted, s => useGlyphs r m name quoted use s
  | .output script quoted, s =>
    let (text, s) := outputOf r script s
    (valueGlyphs m.full quoted text, s)
  | .arithmetic expression quoted, s =>
    let (glyphs, s) := wordGlyphs r {} true expression s
    if s.isRunning then
      let (text, s) := arithmeticValue s (Glyph.text glyphs)
      (valueGlyphs m.full quoted text, s)
    else ([], s)

def useGlyphs (r : Runner) (m : Manner) (name : String) (quoted : Bool) :
    Use → Session → List Glyph × Session
  | .malformed, s => ([], s.fail (Octets.ofString "Bad substitution"))
  | .value, s =>
    match s.valueOf m.full quoted name with
    | some v => (parameterGlyphs s m.full quoted name v, s)
    | none => if s.hasOption 'u' then ([], failUnset s name false []) else ([], s)
  | .length, s =>
    match s.valueOf m.full quoted name with
    | some v => (valueGlyphs m.full quoted (toString v.length).toList, s)
    | none =>
      if s.hasOption 'u' then ([], failUnset s name false [])
      else (valueGlyphs m.full quoted ['0'], s)
  | .otherwise orEmpty word, s =>
    match (s.valueOf m.full quoted name).filter fun v => !orEmpty || v ≠ [] with
    | some v => (parameterGlyphs s m.full quoted name v, s)
    | none => wordGlyphs r { m with loose := true, tildes := .first } true word s
  | .instead orEmpty word, s =>
    match (s.valueOf m.full quoted name).filter fun v => !orEmpty || v ≠ [] with
    | some _ => wordGlyphs r { m with loose := true, tildes := .first } true word s
    | none => ([], s)
  | .assign orEmpty word, s =>
    match (s.valueOf m.full quoted name).filter fun v => !orEmpty || v ≠ [] with
    | some v => (parameterGlyphs s m.full quoted name v, s)
    | none =>
      let (glyphs, s) := wordGlyphs r { tildes := .first } true word s
      if s.isRunning then
        let value := Glyph.text glyphs
        (valueGlyphs m.full quoted value, s.assign name value)
      else ([], s)
  | .demand orEmpty word, s =>
    match (s.valueOf m.full quoted name).filter fun v => !orEmpty || v ≠ [] with
    | some v => (parameterGlyphs s m.full quoted name v, s)
    | none =>
      let (glyphs, s) := wordGlyphs r { tildes := .first } true word s
      if s.isRunning then ([], failUnset s name orEmpty (Glyph.text glyphs)) else ([], s)
  | .trim atEnd longest pattern, s =>
    match s.valueOf m.full quoted name with
    | some v =>
      let (glyphs, s) := wordGlyphs r { tildes := .first } true pattern s
      let v := trimMatch atEnd longest (atomsOf (Glyph.pattern glyphs)) v
      (parameterGlyphs s m.full quoted name v, s)
    | none => if s.hasOption 'u' then ([], failUnset s name false []) else ([], s)

def wordGlyphs (r : Runner) (m : Manner) (isFirst : Bool) :
    List Part → Session → List Glyph × Session
  | [], s => ([], s)
  | part :: rest, s =>
    let (glyphs, s) := match part with
      | .text t false => (plainGlyphs s m isFirst rest.isEmpty t, s)
      | part => partGlyphs r m part s
    if s.isRunning then
      let (more, s) := wordGlyphs r m false rest s
      (glyphs ++ more, s)
    else ([], s)
end

/-- The value of a word as one text. -/
def wordText (r : Runner) (tildes : Tildes) (word : Word) (s : Session) : Octets × Session :=
  let (glyphs, s) := wordGlyphs r { tildes } true word s
  (Glyph.text glyphs, s)

/-- The value of a word as a pattern. -/
def wordPattern (r : Runner) (word : Word) (s : Session) : List PatternChar × Session :=
  let (glyphs, s) := wordGlyphs r { tildes := .first } true word s
  (Glyph.pattern glyphs, s)

def wordFields (r : Runner) (word : Word) (s : Session) : List Octets × Session :=
  let (glyphs, s) := wordGlyphs r { full := true, tildes := .first } true word s
  let fields := Glyph.fields s.separators glyphs
  let texts := if s.hasOption 'f' then fields.map fun field => field.map (·.1)
    else fields.flatMap (pathsOf s.machine.tree)
  (texts, s)

/-- The fields of some words; none once the shell gives up. -/
def wordsFields (r : Runner) : List Word → Session → List Octets × Session
  | [], s => ([], s)
  | word :: rest, s =>
    let (fields, s) := wordFields r word s
    if s.isRunning then
      let (more, s) := wordsFields r rest s
      (fields ++ more, s)
    else ([], s)

/-- The field of a word that is spelled as an assignment. -/
def assignmentField (r : Runner) (name : String) (value : Word) (s : Session) : Octets × Session :=
  let (text, s) := wordText r .colons value s
  (Octets.ofString name ++ '=' :: text, s)

end LintRun.Command.Shell
