import LintRun.Command.Awk.Reading

/-! The tokens of a program.

    What a character means depends on what was read before it: a slash divides after a value and
    begins a regular expression elsewhere, and an angle bracket or a bar tells where output goes if
    something is being printed outside of parentheses.

    No result rests on this module. -/

namespace LintRun.Command.Awk

/-- Words that have a meaning of their own. -/
def words : List String :=
  ["BEGIN", "END", "break", "continue", "delete", "do", "else", "exit", "for", "func", "function",
    "getline", "if", "in", "next", "nextfile", "print", "printf", "return", "while"]

/-- The functions that take only values. -/
def functionNames : List (String × Function) :=
  [("atan2", .atan2), ("close", .close), ("cos", .cos), ("exp", .exp), ("fflush", .fflush),
    ("index", .index), ("int", .int), ("length", .length), ("log", .log), ("rand", .rand),
    ("sin", .sin), ("sprintf", .sprintf), ("sqrt", .sqrt), ("srand", .srand), ("substr", .substr),
    ("system", .system), ("tolower", .tolower), ("toupper", .toupper)]

/-- The functions whose arguments are not only values. -/
def formNames : List String := ["gsub", "match", "split", "sub"]

/-- Whether a name can begin with a character. -/
def beginsName (c : Char) : Bool := c.isAlpha || c = '_'

/-- Whether a name can go on with a character. -/
def isNameChar (c : Char) : Bool := c.isAlphanum || c = '_'

/-- A text in which the escapes of strings are replaced; one that is unknown keeps its backslash. -/
def unescape : Nat → Octets → Octets
  | 0, s => s
  | _ + 1, [] => []
  | fuel + 1, '\\' :: s =>
    match s with
    | '"' :: s => '"' :: unescape fuel s
    | 'x' :: s =>
      match (s.take 2).takeWhile fun c => (Text.digitOf 16 c).isSome with
      | [] => '\\' :: 'x' :: unescape fuel s
      | ds =>
        Char.ofNat (Text.natOfDigits 16 (ds.filterMap Text.digitValue)) ::
          unescape fuel (s.drop ds.length)
    | s =>
      match Format.readEscape s with
      | some (c, rest) => c :: unescape fuel rest
      | none => '\\' :: unescape fuel s
  | fuel + 1, c :: s => c :: unescape fuel s

/-- A text in which the escapes of strings are replaced. -/
def unescaped (s : Octets) : Octets := unescape (s.length + 1) s

/-- The text of a string up to its closing quote, as it is spelled, what follows, and the number of
    lines that go on behind a backslash; without a quote, only the text up to the end of the line. -/
def spanString : Nat → Octets → Octets → Nat → Except Octets (Octets × Octets × Nat)
  | 0, done, _, _ => .error done.reverse
  | _ + 1, done, [], _ => .error done.reverse
  | fuel + 1, done, c :: s, lines =>
    if c = '"' then .ok (done.reverse, s, lines)
    else if c = '\n' then .error done.reverse
    else if c = '\\' then
      match s with
      | '\n' :: s => spanString fuel done s (lines + 1)
      | d :: s => spanString fuel (d :: '\\' :: done) s lines
      | [] => .error ('\\' :: done).reverse
    else spanString fuel (c :: done) s lines

/-- A set in a regular expression: at its beginning, at its beginning behind a caret, inside, or
    inside the name of a class that ends with a mark. -/
inductive Bracket where
  | outside
  | opened
  | negated
  | inside
  | named (mark : Char)
  deriving Repr, DecidableEq

/-- Where a character leads to that is not escaped, with the one that follows it. -/
def Bracket.after (b : Bracket) (c : Char) (following : Option Char) : Bracket :=
  match b with
  | .outside => if c = '[' then .opened else .outside
  | .named mark => if c = mark && following = some ']' then .opened else b
  | b =>
    if b = .opened && c = '^' then .negated
    else if c = ']' && b = .inside then .outside
    else match c, following with
      | '[', some mark => if mark = ':' || mark = '.' || mark = '=' then .named mark else .inside
      | _, _ => .inside

/-- The text of a regular expression up to the slash that ends it, and what follows; without one,
    only the text up to the end of the line. -/
def spanRegex : Nat → Bracket → Octets → Octets → Except Octets (Octets × Octets)
  | 0, _, done, _ => .error done.reverse
  | _ + 1, _, done, [] => .error done.reverse
  | fuel + 1, b, done, c :: s =>
    if c = '/' && b = .outside then .ok (done.reverse, s)
    else if c = '\n' then .error done.reverse
    else if c = '\\' then
      let b := if b = .outside then b else .inside
      match s with
      | '/' :: s => spanRegex fuel b ('/' :: done) s
      | '\n' :: s => spanRegex fuel b done s
      | d :: s => spanRegex fuel b (d :: '\\' :: done) s
      | [] => .error ('\\' :: done).reverse
    else spanRegex fuel (b.after c s.head?) (c :: done) s

/-- The characters of a number in decimal notation, and what follows. -/
def spanNumber (s : Octets) : Octets × Octets :=
  let whole := s.takeWhile Char.isDigit
  let rest := s.drop whole.length
  let (point, rest) := match rest with
    | '.' :: more => let ds := more.takeWhile Char.isDigit; ('.' :: ds, more.drop ds.length)
    | rest => ([], rest)
  let exponent := match rest with
    | e :: sign :: more =>
      if e = 'e' || e = 'E' then
        let (sign, more) := if sign = '+' || sign = '-' then ([sign], more) else ([], sign :: more)
        let ds := more.takeWhile Char.isDigit
        if ds = [] then [] else e :: sign ++ ds
      else []
    | _ => []
  (whole ++ point ++ exponent, rest.drop exponent.length)

/-- Whether a value ends with a token, so that a slash behind it divides. -/
def Token.endsValue : Token → Bool
  | .number .. | .text _ | .name _ | .regex .. | .field _ | .count => true
  | .mark m => m = ")" || m = "]"
  | .word w => w = "getline"
  | _ => false

/-- The marks that begin with some characters, the longest one first, up to what stands between
    parentheses or ends a line. -/
def plainMarks : List String :=
  ["!=", "!~", "!", "++", "+=", "+", "--", "-=", "-", "*=", "*", "%=", "%", "^=", "^", "==", "=", "~",
    "?", ":", "[", "]"]

namespace Reader

/-- A number at which the text goes on. -/
def scanNumber : Reader Token := do
  let (spelled, more) := spanNumber (← rest)
  setRest more
  match Real.find? spelled with
  | some (x, _) =>
    let n := x.toFloat
    let isZero := spelled.takeWhile (fun c => c ≠ 'e' && c ≠ 'E') |>.all fun c =>
      c = '0' || c = '.'
    if !isZero && (n.isInf || n < 2.2250738585072014e-308) then
      complainAt (← get).tokenLine (spelled ++ Octets.ofString " : decimal overflow")
    return .number n spelled
  | none =>
    setRest (more.drop 1)
    return .odd '.'

/-- A string after its opening quote. -/
def scanString : Reader Token := do
  let s ← rest
  match spanString (s.length + 1) [] s 0 with
  | .error text =>
    giveUp (Octets.ofString "runaway string constant \"" ++ text.take 10 ++ Octets.ofString " ...")
  | .ok (text, more, lines) =>
    setRest more
    modify fun s => { s with line := s.line + lines }
    return .text (unescaped text)

/-- The regular expression that a text writes. -/
def regexOf (spelled : Octets) : Reader Regex := do
  match Regex.read spelled with
  | .ok r => return r
  | .error e =>
    let text := s!"regular expression compile failed ({e.message})\n"
    complainAt (← get).tokenLine (Octets.ofString text ++ spelled)
    return .empty

/-- A regular expression after its opening slash. -/
def scanRegex : Reader Token := do
  let s ← rest
  match spanRegex (s.length + 1) .outside [] s with
  | .error text =>
    giveUp (Octets.ofString "runaway regular expression /" ++ text.take 10 ++
      Octets.ofString " ...")
  | .ok (spelled, more) =>
    setRest more
    return .regex spelled (← regexOf spelled)

/-- What a name at which the text goes on stands for. -/
def scanName : Reader Token := do
  let s ← rest
  let chars := s.takeWhile isNameChar
  let more := s.drop chars.length
  setRest more
  let name := String.ofList chars
  if words.contains name then
    if name = "else" || name = "do" then skipLines
    return .word (if name = "func" then "function" else name)
  else if name = "NF" then return .count
  else if name = "length" then
    return if (more.dropWhile isBlank).head? = some '(' then .builtin name else .word name
  else if (functionNames.lookup name).isSome || formNames.contains name then
    return .builtin name
  else if ((← get).parameters.getD []).any (·.1 = name) then return .name name
  else match ← kind? name with
    | some .function => return .called name
    | some _ => return .name name
    | none =>
      if more.head? = some '(' then
        setKind name .function
        return .called name
      else return .name name

/-- A field whose number follows its dollar sign, or the sign alone. -/
def scanDollar : Reader Token := do
  skipBlanks
  match ← rest with
  | c :: _ =>
    if c.isDigit || c = '.' then
      match ← scanNumber with
      | .number n _ => return .field n.floor
      | t => return t
    else return .mark "$"
  | [] => return .mark "$"

/-- The brace that closes a block, or the semicolon that is missing before it; nothing if there is no
    block. -/
def scanClosing (more : Octets) : Reader (Option Token) := do
  let s ← get
  if s.braces = 0 then
    setRest more
    complain "extra '\x7d'"
    skipSemicolon
    return none
  else if s.before.isSeparator || s.before.isMark "\x7d" then
    set { s with rest := more, braces := s.braces - 1 }
    if s.braces = 1 then skipSemicolon
    skipLines
    return some (.mark "\x7d")
  else return some (.semicolon true)

/-- A mark that stands for itself. -/
def scanPlain (c : Char) : Reader Token := do
  let s ← rest
  match plainMarks.find? fun m => m.toList.isPrefixOf s with
  | some m =>
    setRest (s.drop m.length)
    return .mark m
  | none =>
    setRest (s.drop 1)
    return .odd c

/-- Whether something is being printed outside of parentheses, so that a mark tells where the output
    goes. -/
def tellsOutlet : Reader Bool := do
  let s ← get
  return s.printing && s.parens = 0

def scanOutlet (o : Outlet) (more : Octets) : Reader Token := do
  modify fun s => { s with rest := more, printing := false }
  return .outlet o

/-- The token at which the text goes on with a character that is neither white space nor the
    beginning of a comment; nothing if it is passed over. -/
def scanAt (c : Char) (more : Octets) : Reader (Option Token) := do
  let accept := fun (m : String) (rest : Octets) => do
    setRest rest
    return some (.mark m)
  if c = '\n' then
    setRest more
    countLine
    skipLines
    return some .newline
  else if c = ';' then
    setRest more
    skipLines
    return some (.semicolon false)
  else if c = '\x7b' then
    modify fun s => { s with rest := more, braces := s.braces + 1 }
    skipLines
    return some (.mark "\x7b")
  else if c = '\x7d' then scanClosing more
  else if c = '(' then
    modify fun s => { s with rest := more, parens := s.parens + 1 }
    return some (.mark "(")
  else if c = ')' then
    setRest more
    if (← get).parens = 0 then
      complain "extra ')'"
      return none
    modify fun s => { s with parens := s.parens - 1 }
    return some (.mark ")")
  else if c = ',' then
    setRest more
    skipLines
    return some (.mark ",")
  else if c = '"' then
    setRest more
    return some (← scanString)
  else if c = '$' then
    setRest more
    return some (← scanDollar)
  else if c.isDigit || c = '.' then return some (← scanNumber)
  else if beginsName c then return some (← scanName)
  else if c = '/' then
    if (← get).before.endsValue then
      match more with
      | '=' :: more => accept "/=" more
      | more => accept "/" more
    else
      let isStep := (← get).before.isMark "++" || (← get).before.isMark "--"
      if isStep && more.head? = some '=' then accept "/" more
      else
        setRest (if isStep then more.drop 1 else more)
        return some (← scanRegex)
  else match c, more with
    | '&', '&' :: more =>
      setRest more
      skipLines
      return some (.mark "&&")
    | '|', '|' :: more =>
      setRest more
      skipLines
      return some (.mark "||")
    | '|', more => if ← tellsOutlet then return some (← scanOutlet .command more) else accept "|" more
    | '>', '=' :: rest =>
      if ← tellsOutlet then return some (← scanOutlet .file more) else accept ">=" rest
    | '>', '>' :: rest =>
      if ← tellsOutlet then return some (← scanOutlet .append rest) else accept ">" more
    | '>', more => if ← tellsOutlet then return some (← scanOutlet .file more) else accept ">" more
    | '<', '=' :: more => accept "<=" more
    | '<', more =>
      if (← get).getting then
        modify fun s => { s with rest := more, getting := false }
        return some .intake
      else accept "<" more
    | '\\', more =>
      match more.dropWhile isBlank with
      | '\n' :: more =>
        setRest more
        countLine
        return none
      | more =>
        setRest more
        return some (.odd '\\')
    | c, _ => return some (← scanPlain c)

/-- Goes on with the next file, if there is one. -/
def nextFile : Reader Bool := do
  let s ← get
  match s.later with
  | [] => return false
  | origin :: later =>
    set { s with rest := origin.text, file := origin.file, later, line := 1 }
    return true

/-- The next token. The first argument bounds what is passed over before it. -/
def scanWithin : Nat → Reader Token
  | 0 => return .finish
  | fuel + 1 => do
    skipBlanks
    modify fun s => { s with tokenLine := s.line }
    match ← rest with
    | [] => if ← nextFile then scanWithin fuel else return .finish
    | '#' :: _ =>
      skipComment
      scanWithin fuel
    | c :: more =>
      match ← scanAt c more with
      | some t => return t
      | none => scanWithin fuel

/-- The next token, which stays to be taken. -/
def peek : Reader Token := do
  match (← get).peeked with
  | some t => return t
  | none =>
    let s ← get
    let t ← scanWithin (s.rest.length + s.later.length + 2)
    modify fun s => { s with before := t, peeked := some t }
    return t

def take : Reader Token := do
  let t ← peek
  modify fun s => { s with peeked := none, quiet := s.quiet - 1 }
  return t

/-- Whether the next token is a certain mark. -/
def atMark (m : String) : Reader Bool := return (← peek).isMark m

/-- Whether the next token is a certain word. -/
def atWord (w : String) : Reader Bool := return (← peek).isWord w

/-- Takes a mark if it comes next. -/
def takeMark (m : String) : Reader Bool := do
  if ← atMark m then
    let _ ← take
    return true
  return false

/-- Tells that a token cannot stand where it does. -/
def complainOf (t : Token) : Reader Unit := do
  let s ← get
  let closes := match t with
    | .semicolon _ | .newline => true
    | t => t.isMark "\x7d"
  let line := s.tokenLine
  match t with
  | .odd c => complainOdd c
  | .finish =>
    if 0 < s.braces then complainAt line (Octets.ofString "missing \x7d near end of file")
    else complainAt line (Octets.ofString "syntax error at or near end of file")
  | t =>
    if closes && 0 < s.parens then
      complainAt line (Octets.ofString "missing ) near " ++ t.describe)
    else complainAt line (Octets.ofString "syntax error at or near " ++ t.describe)

/-- Gives up what is being read because the next token cannot stand there. -/
def fail {α : Type} : Reader α := do
  let t ← peek
  if (← get).quiet = 0 then complainOf t
  modify fun s => { s with quiet := 3 }
  throw .wrong

/-- Takes a mark that has to come next. -/
def expect (m : String) : Reader Unit := do
  if !(← takeMark m) then fail

/-- Takes a word that has to come next. -/
def expectWord (w : String) : Reader Unit := do
  if ← atWord w then
    let _ ← take
  else fail

end Reader

end LintRun.Command.Awk
