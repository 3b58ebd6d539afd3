import LintRun.Command.Shell.Reading

/-! Reading the words of a script, part by part.

    A word may hold commands, whose words may hold commands again; how such inner parts are read is
    left open here, as `Below`.

    No result rests on this module. -/

namespace LintRun.Command.Shell

/-- What surrounds the parts that are read, and so where they end. -/
inductive Context where
  | word (delimiter : Bool)
  | braces
  | quotes
  | quotedBraces (inner : Bool)
  | document
  | arithmetic (depth : Nat)
  deriving Repr, DecidableEq

/-- Whether parts are quoted by what surrounds them. -/
def Context.isQuoted : Context → Bool
  | .word _ | .braces => false
  | _ => true

/-- The readers of inner parts: commands up to the end that a number tells, one command, and the
    parts of a word. -/
structure Below where
  list : Nat → Reading → Except SyntaxError (Option Script × Reading)
  command : Reading → Except SyntaxError (Script × Reading)
  parts : Context → Reading → Except SyntaxError (Word × Reading)

/-- A word that is being read: its parts and the text at its end, all last first. -/
structure Draft where
  done : List Part := []
  run : Octets := []
  quoted : Bool := false

namespace Draft

/-- The parts so far, last first. -/
def parts (d : Draft) : List Part :=
  if d.run = [] then d.done else .text d.run.reverse d.quoted :: d.done

def char (d : Draft) (c : Char) (quoted : Bool) : Draft :=
  if quoted = d.quoted then { d with run := c :: d.run } else ⟨d.parts, [c], quoted⟩

def chars (d : Draft) (s : Octets) (quoted : Bool) : Draft := s.foldl (fun d c => d.char c quoted) d

def part (d : Draft) (p : Part) : Draft := ⟨p :: d.parts, [], d.quoted⟩

/-- Adds what double quotes hold. They leave a mark unless they hold nothing but all arguments. -/
def enclose (d : Draft) (inner : Word) : Draft :=
  match inner with
  | [.parameter "@" .value true] => d.part (.parameter "@" .value true)
  | inner => inner.foldl part (d.part .mark)

def word (d : Draft) : Word := d.parts.reverse

end Draft

/-- The characters at which a word ends. -/
def endsWord (c : Char) : Bool :=
  c = ' ' || c = '\t' || c = '\n' || c = ';' || c = '&' || c = '|' || c = '(' || c = ')' ||
    c = '<' || c = '>'

/-- Whether a backslash takes the meaning of a character where parts are quoted. -/
def Context.escapes (ctx : Context) (c : Char) : Bool :=
  c = '\\' || c = '$' || c = '\x60' ||
    match ctx with
    | .quotedBraces _ => c = '"' || c = '\x7d'
    | .document => false
    | _ => c = '"'

/-- The parameters whose names are no words. -/
def specialNames : List Char := ['#', '?', '$', '@', '*', '!', '-']

/-- Whether a character names a parameter on its own. -/
def isSpecial (c : Char) : Bool := specialNames.contains c || c.isDigit

/-- Single-quoted text after its opening quote. -/
def readSingle (r : Reading) : Except SyntaxError (Octets × Reading) :=
  let text := r.rest.takeWhile (· ≠ '\'')
  match r.rest.drop text.length with
  | [] => Reading.fail { r with line := r.line + text.count '\n' } "Unterminated quoted string"
  | _ :: rest => .ok (text, { r with rest, line := r.line + text.count '\n' })

/-- The commands between backquotes, with the backslashes gone that quote there; `done` holds what
    was read, last first. -/
def readBackquoted (quoted : Bool) : Octets → Octets → Option (Octets × Octets)
  | _, [] => none
  | done, '\x60' :: s => some (done.reverse, s)
  | done, '\\' :: '\n' :: s => readBackquoted quoted done s
  | done, '\\' :: c :: s =>
    if c = '\\' || c = '\x60' || c = '$' || (quoted && c = '"') then
      readBackquoted quoted (c :: done) s
    else readBackquoted quoted (c :: '\\' :: done) s
  | done, c :: s => readBackquoted quoted (c :: done) s

/-- A substitution between backquotes, after the first one. -/
def readOldOutput (b : Below) (quoted : Bool) (r : Reading) :
    Except SyntaxError (Part × Reading) :=
  match readBackquoted quoted [] r.rest with
  | none => Reading.fail { r with line := r.line + r.rest.count '\n' }
      "EOF in backquote substitution"
  | some (text, rest) => do
    let inner : Reading := { rest := text, documents := r.documents, nextKey := r.nextKey }
    let (script, after) ← b.list 2 inner
    let used := r.rest.take (r.rest.length - rest.length)
    return (.output script quoted,
      { r with rest, line := r.line + used.count '\n', documents := after.documents,
               nextKey := after.nextKey })

/-- The operator of a parameter in braces, with its word still to come: what to make of the word,
    and whether it is a pattern. The character after the name has been read. -/
def readOperator (c : Option Char) (r : Reading) : (Word → Use) × Bool × Reading :=
  let (orEmpty, c, r) := if c = some ':' then
      match r.next? with
      | some (c, r) => (true, some c, r)
      | none => (true, none, r)
    else (false, c, r)
  match c with
  | some '-' => (.otherwise orEmpty, false, r)
  | some '+' => (.instead orEmpty, false, r)
  | some '?' => (.demand orEmpty, false, r)
  | some '=' => (.assign orEmpty, false, r)
  | some '\x7d' => (fun _ => .value, false, r)
  | some c =>
    if !orEmpty && (c = '#' || c = '%') then
      match r.next? with
      | some (d, after) =>
        if d = c then (.trim (c = '%') true, true, after) else (.trim (c = '%') false, true, r)
      | none => (.trim (c = '%') false, true, r)
    else (fun _ => .malformed, false, r)
  | none => (fun _ => .malformed, false, r)

/-- The rest of a parameter in braces after its name, up to the closing brace. -/
def readUse (b : Below) (ctx : Context) (name : String) (r : Reading) :
    Except SyntaxError (Part × Reading) :=
  let (c, after) := match r.next? with
    | some (c, after) => (some c, after)
    | none => (none, r)
  if c = some '\x7d' then .ok (.parameter name .value ctx.isQuoted, after)
  else do
    let (use, isPattern, r) := readOperator c after
    let inner := if isPattern || !ctx.isQuoted then .braces else .quotedBraces false
    let (word, r) ← b.parts inner r
    return (.parameter name (use word) ctx.isQuoted, r)

/-- Passes over what is wrong in braces up to the closing one. -/
def readMalformed (b : Below) (ctx : Context) (r : Reading) :
    Except SyntaxError (Part × Reading) := do
  let (_, r) ← b.parts (if ctx.isQuoted then .quotedBraces false else .braces) r
  return (.parameter "" .malformed ctx.isQuoted, r)

/-- The name of a parameter that begins with a letter or digit. -/
def readName (r : Reading) : String × Reading :=
  let p := if r.peek?.any Char.isDigit then Char.isDigit else continuesName
  let (name, r) := Reading.span p r.bound [] r
  (String.ofList name, r)

/-- The length of a parameter, after the sign that asks for it. -/
def readLength (b : Below) (ctx : Context) (name : String) (r : Reading) :
    Except SyntaxError (Part × Reading) :=
  match r.next? with
  | some ('\x7d', after) => .ok (.parameter name .length ctx.isQuoted, after)
  | _ => readMalformed b ctx r

/-- A parameter after its opening brace. -/
def readBraced (b : Below) (ctx : Context) (r : Reading) : Except SyntaxError (Part × Reading) :=
  match r.next? with
  | none => readMalformed b ctx r
  | some (c, after) =>
    if continuesName c then
      let (name, r) := readName r
      readUse b ctx name r
    else if c = '#' then
      match after.next? with
      | none => readUse b ctx "#" after
      | some (d, last) =>
        if continuesName d then
          let (name, r) := readName after
          readLength b ctx name r
        else if d ≠ '\x7d' && last.peek? = some '\x7d' then
          if isSpecial d then readLength b ctx (String.ofList [d]) last
          else readMalformed b ctx after
        else readUse b ctx "#" after
    else if isSpecial c then readUse b ctx (String.ofList [c]) after
    else readMalformed b ctx r

/-- What a dollar sign begins; nothing if it stands for itself. -/
def readDollar (b : Below) (ctx : Context) (r : Reading) :
    Except SyntaxError (Option Part × Reading) :=
  match r.next? with
  | none => .ok (none, r)
  | some (c, after) =>
    if c = '(' then
      if after.peek? = some '(' then do
        let (e, r) ← b.parts (.arithmetic 0) { after.joined with rest := after.joined.rest.drop 1 }
        return (some (.arithmetic e ctx.isQuoted), r)
      else do
        let inner := { after with again := false, heed := {}, due := [] }
        let (script, r) ← b.list 2 inner
        if r.last.isMark ")" then
          return (some (.output script ctx.isQuoted),
            { r with again := false, heed := {}, due := after.due })
        else r.fail s!"{r.last.describe} unexpected (expecting \")\")"
    else if c = '\x7b' then do
      let (p, r) ← readBraced b ctx after
      return (some p, r)
    else if beginsName c then
      let (name, r) := readName r
      .ok (some (.parameter name .value ctx.isQuoted), r)
    else if isSpecial c then
      .ok (some (.parameter (String.ofList [c]) .value ctx.isQuoted), after)
    else .ok (none, r)

/-- What a backslash leaves of the character after it: that character, or both. -/
def readEscape (ctx : Context) (d : Draft) (r : Reading) : Draft × Reading :=
  match r.take? with
  | none => (d.char '\\' true, r)
  | some (c, after) =>
    if ctx.isQuoted && !ctx.escapes c then ((d.char '\\' true).char c true, after)
    else (d.char c true, after)

/-- The end of a text in which something still has to be closed. -/
def readEnd (ctx : Context) (d : Draft) (r : Reading) : Except SyntaxError (Word × Reading) :=
  match ctx with
  | .word _ | .document => .ok (d.word, r)
  | .braces => r.fail "Missing '\x7d'"
  | .quotes | .quotedBraces _ => r.fail "Unterminated quoted string"
  | .arithmetic _ => r.fail "Missing '))'"

/-- What a character is where it stands. -/
inductive Role where
  | last (taken : Bool)
  | single
  | double
  | toggle
  | escape
  | dollar
  | backquote
  | deeper
  | shallower
  | plain
  deriving Repr, DecidableEq

/-- What a character is among the parts of a word. -/
def Context.role (ctx : Context) (c : Char) : Role :=
  if c = '\\' then .escape
  else if c = '$' then if ctx = .word true then .plain else .dollar
  else if c = '\x60' then if ctx = .word true then .plain else .backquote
  else match ctx with
    | .word _ =>
      if endsWord c then .last false
      else if c = '\'' then .single
      else if c = '"' then .double
      else .plain
    | .braces =>
      if c = '\x7d' then .last true
      else if c = '\'' then .single
      else if c = '"' then .double
      else .plain
    | .quotes => if c = '"' then .last true else .plain
    | .quotedBraces inner =>
      if c = '\x7d' && !inner then .last true else if c = '"' then .toggle else .plain
    | .document => .plain
    | .arithmetic _ => if c = '(' then .deeper else if c = ')' then .shallower else .plain

/-- What surrounds the parts of an expression some parentheses further in. -/
def Context.deeper (n : Int) : Context → Context
  | .arithmetic depth => .arithmetic (depth + n).toNat
  | ctx => ctx

/-- Whether no parenthesis of an expression is open. -/
def Context.isTop : Context → Bool
  | .arithmetic depth => depth = 0
  | _ => false

/-- What surrounds the parts after a quote inside quoted braces. -/
def Context.toggled : Context → Context
  | .quotedBraces inner => .quotedBraces (!inner)
  | ctx => ctx

/-- The parts up to where their surroundings end. The first argument bounds their number. -/
def readParts (b : Below) : Nat → Context → Draft → Reading → Except SyntaxError (Word × Reading)
  | 0, _, _, r => r.fail "word too long"
  | fuel + 1, ctx, d, r =>
    match r.next? with
    | none => readEnd ctx d r
    | some (c, after) =>
      match ctx.role c with
      | .last taken => .ok (d.word, if taken then after else r.joined)
      | .single => do
        let (text, r) ← readSingle after
        readParts b fuel ctx ((d.part .mark).chars text true) r
      | .double => do
        let (inner, r) ← b.parts .quotes after
        readParts b fuel ctx (d.enclose inner) r
      | .toggle => readParts b fuel ctx.toggled (d.part .mark) after
      | .escape =>
        let (d, r) := readEscape ctx d after
        readParts b fuel ctx d r
      | .dollar => do
        match ← readDollar b ctx after with
        | (some p, r) => readParts b fuel ctx (d.part p) r
        | (none, r) => readParts b fuel ctx (d.char c ctx.isQuoted) r
      | .backquote => do
        let (p, r) ← readOldOutput b ctx.isQuoted after
        readParts b fuel ctx (d.part p) r
      | .deeper => readParts b fuel (ctx.deeper 1) (d.char c true) after
      | .shallower =>
        if ctx.isTop then
          if after.peek? = some ')' then
            .ok (d.word, { after.joined with rest := after.joined.rest.drop 1 })
          else readParts b fuel ctx (d.char c true) after
        else readParts b fuel (ctx.deeper (-1)) (d.char c true) after
      | .plain => readParts b fuel ctx (d.char c ctx.isQuoted) after

end LintRun.Command.Shell
