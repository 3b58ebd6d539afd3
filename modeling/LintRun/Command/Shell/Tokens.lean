import LintRun.Command.Shell.Words

/-! Reading the words and marks of a script, and the documents that are due at the end of a line. No
    result rests on this module. -/

namespace LintRun.Command.Shell

/-- A line without the tabs that it begins with, if these are stripped. -/
def stripTabs (stripped : Bool) (line : Octets) : Octets :=
  if stripped then line.dropWhile (· = '\t') else line

/-- Whether a line ends in a backslash that joins it to the next one. -/
def isJoined (line : Octets) : Bool := (line.reverse.takeWhile (· = '\\')).length % 2 = 1

/-- The lines of a document up to its delimiter, last first, and what follows that. A line that is
    joined to the one before is none of its own. -/
def documentLines (d : Due) : Nat → (joined : Bool) → List Octets → Octets → List Octets × Octets
  | 0, _, done, s => (done, s)
  | _ + 1, _, done, [] => (done, [])
  | fuel + 1, joined, done, s =>
    let raw := s.takeWhile (· ≠ '\n')
    let rest := s.drop raw.length
    let line := if joined then raw else stripTabs d.stripped raw
    if !joined && line = d.delimiter then (done, rest.drop 1)
    else if rest = [] then (line :: done, [])
    else documentLines d fuel (d.expanded && isJoined line) ((line ++ ['\n']) :: done) (rest.drop 1)

/-- Reads the text of one document. -/
def readDocument (b : Below) (r : Reading) (d : Due) : Except SyntaxError Reading := do
  let (lines, rest) := documentLines d (r.rest.length + 1) false [] r.rest
  let text := lines.reverse.flatten
  let used := r.rest.take (r.rest.length - rest.length)
  let after := { r with rest, line := r.line + used.count '\n' }
  if d.expanded then
    let inner := { r with rest := text, due := [] }
    let (word, inner) ← b.parts .document inner
    return { after with documents := (d.key, word) :: inner.documents, nextKey := inner.nextKey }
  else return { after with documents := (d.key, [.text text true]) :: r.documents }

/-- Reads the texts of all documents that are due. -/
def readDue (b : Below) (r : Reading) : Except SyntaxError Reading :=
  r.due.foldlM (readDocument b) { r with due := [] }

/-- The sign of a redirection after its first character; a digit before it names the
    descriptor. -/
def readSign (c : Char) (descriptor : Option Nat) (r : Reading) : RedirectSign × Reading :=
  let fd := descriptor.getD (if c = '>' then 1 else 0)
  if c = '>' then
    match r.next? with
    | some ('>', after) => (.file fd .append, after)
    | some ('&', after) => (.join fd, after)
    | some ('|', after) => (.file fd .replace, after)
    | _ => (.file fd .write, r)
  else
    match r.next? with
    | some ('<', after) =>
      match after.next? with
      | some ('-', last) => (.document fd true, last)
      | _ => (.document fd false, after)
    | some ('&', after) => (.join fd, after)
    | some ('>', after) => (.file fd .readWrite, after)
    | _ => (.file fd .read, r)

/-- What is left behind blanks and comments. The first argument bounds their number. -/
def dropBlanks : Nat → Reading → Reading
  | 0, r => r
  | fuel + 1, r =>
    match r.next? with
    | some (c, after) =>
      if c = ' ' || c = '\t' then dropBlanks fuel after
      else if c = '#' then dropBlanks fuel { after with rest := after.rest.dropWhile (· ≠ '\n') }
      else r
    | none => r

/-- A mark that may be doubled. -/
def readMark (c : Char) (r : Reading) : Token × Reading :=
  match r.next? with
  | some (d, after) =>
    if d = c && (c = '&' || c = '|' || c = ';') then (.mark (String.ofList [c, c]), after)
    else (.mark (String.ofList [c]), r)
  | none => (.mark (String.ofList [c]), r)

/-- The next word or mark of a text. Of a delimiter, only quotes have a meaning. -/
def readRaw (b : Below) (delimiter : Bool) (r : Reading) : Except SyntaxError (Token × Reading) :=
  let r := dropBlanks r.bound r
  match r.next? with
  | none => .ok (.finish, r.joined)
  | some (c, after) =>
    if c = '\n' then .ok (.newline, after)
    else if c = '&' || c = '|' || c = ';' || c = '(' || c = ')' then
      let (t, r) := readMark c after
      .ok (if c = '(' || c = ')' then (.mark (String.ofList [c]), after) else (t, r))
    else if c = '<' || c = '>' then
      let (sign, r) := readSign c none after
      .ok (.redirect sign, r)
    else
      match if c.isDigit then after.next? else none with
      | some ('<', last) =>
        let (sign, r) := readSign '<' (some (c.toNat - '0'.toNat)) last
        .ok (.redirect sign, r)
      | some ('>', last) =>
        let (sign, r) := readSign '>' (some (c.toNat - '0'.toNat)) last
        .ok (.redirect sign, r)
      | _ => do
        let (w, r) ← b.parts (.word delimiter) r
        return (.word w, r)

/-- The next token, which is the last one if that is to be read once more. -/
def takeToken (b : Below) (delimiter : Bool) (r : Reading) : Except SyntaxError Reading :=
  if r.again then .ok { r with again := false }
  else do
    let (t, r) ← readRaw b delimiter r
    return { r with last := t }

/-- Passes over line ends, at which documents are read. The first argument bounds their number. -/
def passLines (b : Below) : Nat → Reading → Except SyntaxError Reading
  | 0, r => .ok r
  | fuel + 1, r =>
    match r.last with
    | .newline => do
      let r ← readDue b r
      passLines b fuel (← takeToken b false r)
    | _ => .ok r

/-- A word as a reserved word, if it is one. -/
def Token.promote : Token → Token
  | .word w =>
    match w.bare? with
    | some s => if reservedWords.contains s then .reserved s else .word w
    | none => .word w
  | t => t

/-- Reads the next token, as it is heeded. -/
def readToken (b : Below) (delimiter : Bool := false) : Read Token := fun r => do
  let heed := r.heed
  let r ← takeToken b delimiter { r with heed := {} }
  let r ← if heed.skipLines then passLines b r.bound r else .ok r
  let t := if heed.reserved then r.last.promote else r.last
  return (t, { r with last := t })

/-- Has the last token read once more. -/
def unread : Read Unit := modify fun r => { r with again := true }

/-- Heeds line ends and reserved words in some way at the next token. -/
def heeding (skipLines reserved : Bool) : Read Unit :=
  modify fun r => { r with heed := ⟨skipLines, reserved⟩ }

/-- Fails at the last token, of which another one was expected, if that is known. -/
def unexpected {α : Type} (wanted : Option String) : Read α := fun r =>
  let text := match wanted with
    | some w => s!"{r.last.describe} unexpected (expecting {w})"
    | none => s!"{r.last.describe} unexpected"
  r.fail (String.ofList (text.toList.take 63))

end LintRun.Command.Shell
