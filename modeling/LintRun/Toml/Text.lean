import LintRun.Text.Digits

/-! The strings of a TOML document: basic ones with escapes and literal ones without, each on one
    line or over many. A line break inside a string is always one line feed. -/

namespace LintRun.Toml

def isSpace (c : Char) : Bool := c = ' ' || c = '\t'

def skipSpace (s : List Char) : List Char := s.dropWhile isSpace

/-- Characters that may stand in comments and strings: all but control characters, of which the
    tabulator may. -/
def isPlain (c : Char) : Bool := c = '\t' || (0x20 ≤ c.toNat && c.toNat ≠ 0x7F)

/-- What follows a line break, if the text begins with one. -/
def afterBreak? : List Char → Option (List Char)
  | '\n' :: s => some s
  | '\r' :: '\n' :: s => some s
  | _ => none

/-- A text without the one line break it may begin with. -/
def dropBreak (s : List Char) : List Char := (afterBreak? s).getD s

/-- A text without the spaces and line breaks it begins with. -/
def skipBlank : List Char → List Char
  | ' ' :: s => skipBlank s
  | '\t' :: s => skipBlank s
  | '\n' :: s => skipBlank s
  | '\r' :: '\n' :: s => skipBlank s
  | s => s

/-- The character of a number of hexadecimal digits, unless it is a surrogate or beyond the last
    one. -/
def readCodePoint (count : Nat) (s : List Char) : Option (Char × List Char) := do
  let (n, rest) ← Text.fixedDigits 16 count s
  if n < 0xD800 || (0xDFFF < n && n ≤ 0x10FFFF) then return (Char.ofNat n, rest) else none

/-- The character of an escape, after its backslash. -/
def readEscape : List Char → Option (Char × List Char)
  | 'b' :: s => some ('\x08', s)
  | 't' :: s => some ('\t', s)
  | 'n' :: s => some ('\n', s)
  | 'f' :: s => some ('\x0c', s)
  | 'r' :: s => some ('\r', s)
  | '"' :: s => some ('"', s)
  | '\\' :: s => some ('\\', s)
  | 'u' :: s => readCodePoint 4 s
  | 'U' :: s => readCodePoint 8 s
  | _ => none

/-- What follows a backslash at the end of a line: it and all blanks after it do not count. -/
def afterFold? (s : List Char) : Option (List Char) :=
  (afterBreak? (skipSpace s)).map skipBlank

/-- The rest of a basic string on one line, up to its quote; `done` holds what was read, last
    first. The first argument bounds the steps. -/
def readBasic : Nat → List Char → List Char → Option (List Char × List Char)
  | 0, _, _ => none
  | _ + 1, _, [] => none
  | fuel + 1, done, c :: s =>
    if c = '"' then some (done.reverse, s)
    else if c = '\\' then do
      let (d, s) ← readEscape s
      readBasic fuel (d :: done) s
    else if isPlain c then readBasic fuel (c :: done) s
    else none

/-- The end of a string over many lines, at a run of `n` quotes: three of them close it, and one or
    two more before these belong to it. Gives the quotes that belong to it, and whether it ends. -/
def closeRun (n : Nat) : Option (Nat × Bool) :=
  if n < 3 then some (n, false)
  else if n ≤ 5 then some (n - 3, true)
  else none

/-- The rest of a string over many lines with a given quote, up to its three quotes. A backslash
    starts an escape if `escapes` says so. -/
def readLines (quote : Char) (escapes : Bool) :
    Nat → List Char → List Char → Option (List Char × List Char)
  | 0, _, _ => none
  | _ + 1, _, [] => none
  | fuel + 1, done, c :: s =>
    if c = quote then
      let (run, rest) := (c :: s).span (· = quote)
      match closeRun run.length with
      | none => none
      | some (kept, true) => some ((List.replicate kept quote ++ done).reverse, rest)
      | some (kept, false) => readLines quote escapes fuel (List.replicate kept quote ++ done) rest
    else match afterBreak? (c :: s) with
      | some rest => readLines quote escapes fuel ('\n' :: done) rest
      | none =>
        if c = '\\' && escapes then
          match afterFold? s with
          | some rest => readLines quote escapes fuel done rest
          | none => do
            let (d, rest) ← readEscape s
            readLines quote escapes fuel (d :: done) rest
        else if isPlain c then readLines quote escapes fuel (c :: done) s
        else none

/-- The rest of a literal string on one line, up to its quote. -/
def readLiteral (s : List Char) : Option (List Char × List Char) :=
  match s.span fun c => isPlain c && c ≠ '\'' with
  | (text, '\'' :: rest) => some (text, rest)
  | _ => none

def readLineString : List Char → Option (String × List Char)
  | '"' :: s => (readBasic (s.length + 1) [] s).map fun (t, rest) => (String.ofList t, rest)
  | '\'' :: s => (readLiteral s).map fun (t, rest) => (String.ofList t, rest)
  | _ => none

/-- A string of any kind. A line break right after three opening quotes does not count. -/
def readString : List Char → Option (String × List Char)
  | '"' :: '"' :: '"' :: s =>
    (readLines '"' true (s.length + 1) [] (dropBreak s)).map fun (t, rest) =>
      (String.ofList t, rest)
  | '\'' :: '\'' :: '\'' :: s =>
    (readLines '\'' false (s.length + 1) [] (dropBreak s)).map fun (t, rest) =>
      (String.ofList t, rest)
  | s => readLineString s

end LintRun.Toml
