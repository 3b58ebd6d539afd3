import LintRun.Json.Numeral
import LintRun.Text.Digits

/-! Reading JSON text.

    A text is first read to its written form, which keeps what only a value would refuse: numbers of
    any size, strings with lone surrogates and nesting of any depth. So a part of a document that
    nobody asks for is never the reason for an error. -/

namespace LintRun.Json

/-- A document in its written form. A string is `none` where it holds a lone surrogate. -/
inductive Written where
  | null
  | bool (b : Bool)
  | number (n : Numeral)
  | string (text : Option String)
  | array (items : List Written)
  | object (fields : List (Option String × Written))
  deriving Inhabited

/-- Blanks between the parts of a document. -/
def isGap (c : Char) : Bool := c = ' ' || c = '\t' || c = '\n' || c = '\r'

/-- A text without the blanks it begins with. -/
def skipGap : List Char → List Char
  | [] => []
  | c :: rest => if isGap c then skipGap rest else c :: rest

/-- The 16 bits of four hexadecimal digits. -/
def hexUnit (a b c d : Char) : Option Nat :=
  ([a, b, c, d].mapM Text.digitValue).map (Text.natOfDigits 16)

/-- A piece of a quoted text: a character, or 16 bits given by number. -/
inductive Piece where
  | char (c : Char)
  | unit (n : Nat)
  deriving Repr, DecidableEq

/-- The character of an escape by letter. -/
def escapeLetter : Char → Option Char
  | '"' => some '"'
  | '\\' => some '\\'
  | '/' => some '/'
  | 'b' => some '\x08'
  | 'f' => some '\x0c'
  | 'n' => some '\n'
  | 'r' => some '\r'
  | 't' => some '\t'
  | _ => none

/-- The pieces of a quoted text up to its closing quote; `done` holds those read, last first. -/
def readPieces (done : List Piece) : List Char → Option (List Piece × List Char)
  | [] => none
  | '"' :: rest => some (done.reverse, rest)
  | '\\' :: 'u' :: a :: b :: c :: d :: rest =>
    match hexUnit a b c d with
    | some n => readPieces (.unit n :: done) rest
    | none => none
  | '\\' :: e :: rest =>
    match escapeLetter e with
    | some c => readPieces (.char c :: done) rest
    | none => none
  | c :: rest => if c.toNat < 0x20 || c = '\\' then none else readPieces (.char c :: done) rest

/-- The characters of some pieces: two surrogates that form a pair are one character, and one that
    stands alone is none; `done` holds the characters so far, last first. -/
def assemble (done : List Char) : List Piece → Option (List Char)
  | [] => some done.reverse
  | .char c :: rest => assemble (c :: done) rest
  | .unit hi :: .unit lo :: rest =>
    if 0xD800 ≤ hi && hi ≤ 0xDBFF then
      if 0xDC00 ≤ lo && lo ≤ 0xDFFF then
        assemble (Char.ofNat (0x10000 + (hi - 0xD800) * 1024 + (lo - 0xDC00)) :: done) rest
      else none
    else if 0xDC00 ≤ hi && hi ≤ 0xDFFF then none
    else assemble (Char.ofNat hi :: done) (.unit lo :: rest)
  | .unit n :: rest =>
    if 0xD800 ≤ n && n ≤ 0xDFFF then none else assemble (Char.ofNat n :: done) rest

/-- The text after an opening quote, up to its closing quote. -/
def readQuoted (s : List Char) : Option (Option String × List Char) :=
  (readPieces [] s).map fun (pieces, rest) => ((assemble [] pieces).map String.ofList, rest)

/-- The digits after a point, of which there must be one. -/
def readFraction : List Char → Option (List Nat × List Char)
  | '.' :: s =>
    match Text.spanDigits s with
    | ([], _) => none
    | digits => some digits
  | s => some ([], s)

/-- The digits of an exponent, of which there must be one. -/
def readExponentDigits (negative : Bool) (s : List Char) : Option (Option Int × List Char) :=
  match Text.spanDigits s with
  | ([], _) => none
  | (ds, rest) =>
    let n : Int := Text.natOfDigits 10 ds
    some (some (if negative then -n else n), rest)

def readExponent : List Char → Option (Option Int × List Char)
  | c :: s =>
    if c = 'e' || c = 'E' then
      match s with
      | '+' :: s => readExponentDigits false s
      | '-' :: s => readExponentDigits true s
      | s => readExponentDigits false s
    else some (none, c :: s)
  | [] => some (none, [])

/-- A number. It does not begin with a zero that is followed by a digit. -/
def readNumber (s : List Char) : Option (Numeral × List Char) := do
  let (negative, s) := match s with
    | '-' :: s => (true, s)
    | s => (false, s)
  let (whole, s) := Text.spanDigits s
  match whole with
  | [] | 0 :: _ :: _ => none
  | whole =>
    let (fraction, s) ← readFraction s
    let (exponent, s) ← readExponent s
    return (⟨negative, whole, fraction, exponent⟩, s)

mutual
/-- A document and what follows it. The first argument bounds the parts that are read. -/
def readWritten : Nat → List Char → Option (Written × List Char)
  | 0, _ => none
  | fuel + 1, s =>
    match skipGap s with
    | 'n' :: 'u' :: 'l' :: 'l' :: rest => some (.null, rest)
    | 't' :: 'r' :: 'u' :: 'e' :: rest => some (.bool true, rest)
    | 'f' :: 'a' :: 'l' :: 's' :: 'e' :: rest => some (.bool false, rest)
    | '"' :: rest => (readQuoted rest).map fun (text, rest) => (.string text, rest)
    | '[' :: rest =>
      match skipGap rest with
      | ']' :: rest => some (.array [], rest)
      | rest => (readItems fuel rest).map fun (items, rest) => (.array items, rest)
    | '\x7b' :: rest =>
      match skipGap rest with
      | '\x7d' :: rest => some (.object [], rest)
      | rest => (readFields fuel rest).map fun (fields, rest) => (.object fields, rest)
    | s => (readNumber s).map fun (n, rest) => (.number n, rest)

/-- The items of an array up to its closing bracket; there is at least one. -/
def readItems : Nat → List Char → Option (List Written × List Char)
  | 0, _ => none
  | fuel + 1, s => do
    let (item, s) ← readWritten fuel s
    match skipGap s with
    | ',' :: s =>
      let (items, s) ← readItems fuel s
      return (item :: items, s)
    | ']' :: s => return ([item], s)
    | _ => none

/-- The fields of an object up to its closing brace; there is at least one. -/
def readFields : Nat → List Char → Option (List (Option String × Written) × List Char)
  | 0, _ => none
  | fuel + 1, s => do
    match skipGap s with
    | '"' :: s =>
      let (name, s) ← readQuoted s
      match skipGap s with
      | ':' :: s =>
        let (value, s) ← readWritten fuel s
        match skipGap s with
        | ',' :: s =>
          let (fields, s) ← readFields fuel s
          return ((name, value) :: fields, s)
        | '\x7d' :: s => return ([(name, value)], s)
        | _ => none
      | _ => none
    | _ => none
end

/-- The document that a text begins with, and what follows it. -/
def Written.readFront (s : String) : Option (Written × List Char) :=
  let cs := s.toList
  readWritten (cs.length + 1) cs

/-- The document that a whole text is. -/
def Written.read (s : String) : Option Written :=
  match Written.readFront s with
  | some (w, rest) => if skipGap rest = [] then some w else none
  | none => none

end LintRun.Json
