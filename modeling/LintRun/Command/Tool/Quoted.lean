import LintRun.Command.CharClass
import LintRun.Decimal.Padded

/-! How tools name in their messages what they were given. No result rests on this module. -/

namespace LintRun.Command

/-- The characters that have an escape of one letter, with that letter. -/
def lettered : List (Char × Char) :=
  [('\x07', 'a'), ('\x08', 'b'), ('\x0c', 'f'), ('\n', 'n'), ('\r', 'r'), ('\t', 't'), ('\x0b', 'v')]

/-- The escape of a character that does not show. -/
def hiddenEscape (c : Char) : Octets :=
  match lettered.lookup c with
  | some letter => ['\\', letter]
  | none =>
    let n := c.toNat
    '\\' :: [n / 64 % 8, n / 8 % 8, n % 8].map Nat.digitChar

/-- A text in single quotes, with escapes for what does not show. -/
def quoted (s : Octets) : Octets :=
  let inner := s.flatMap fun c =>
    if c = '\'' || c = '\\' then ['\\', c] else if isPrintable c then [c] else hiddenEscape c
  '\'' :: inner ++ ['\'']

/-- Whether a name with a character at some index needs quotes for a shell to read it. -/
def needsQuotes (length index : Nat) (c : Char) : Bool :=
  !isPrintable c || " !\"$&'()*;<=>?[\\^|".toList.contains c || c = '\x60' ||
    (index = 0 && (c = '#' || c = '~')) || (length = 1 && (c = '\x7b' || c = '\x7d'))

/-- Whether a character means itself between double quotes too. -/
def isPlainInQuotes (index : Nat) (c : Char) : Bool :=
  c.isAlphanum || " '%+,-./:]_@".toList.contains c || (index = 0 && (c = '#' || c = '~'))

/-- The inside of a name in single quotes; `escaping` tells that an escape came last. -/
def shellInner : (escaping : Bool) → Octets → Octets
  | _, [] => []
  | escaping, c :: s =>
    if isPrintable c then
      let text : Octets := if c = '\'' then ['\'', '\\', '\'', '\''] else [c]
      (if escaping then ['\'', '\''] else []) ++ text ++ shellInner false s
    else (if escaping then [] else ['\'', '$', '\'']) ++ hiddenEscape c ++ shellInner true s

/-- A name in the quotes that a shell needs to read it, if it needs any; where a colon follows the
    name, one in it counts too. -/
def shellQuoted (s : Octets) (colons : Bool := false) : Octets :=
  let indexed := s.zipIdx
  let isSpecial := fun (entry : Char × Nat) =>
    needsQuotes s.length entry.2 entry.1 || (colons && entry.1 = ':')
  if s ≠ [] && !indexed.any isSpecial then s
  else if s.contains '\'' && indexed.all fun (c, i) => isPlainInQuotes i c then '"' :: s ++ ['"']
  else '\'' :: shellInner false s ++ ['\'']

end LintRun.Command
