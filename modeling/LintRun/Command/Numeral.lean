import LintRun.Command.Octets
import LintRun.Text.Digits

/-! Whole numbers of 64 bits at the beginning of a text, in decimal, octal or hexadecimal digits. No
    result rests on this module. -/

namespace LintRun.Command.Numeral

/-- Whether a character is white space. -/
def isSpace (c : Char) : Bool := c = ' ' || (9 ≤ c.toNat && c.toNat ≤ 13)

/-- The digits of a base that a text begins with as a number, and what follows; nothing without
    digits. -/
def digits (base : Nat) (s : Octets) : Option (Nat × Octets) :=
  match s.takeWhile fun c => (Text.digitOf base c).isSome with
  | [] => none
  | ds => some (Text.natOfDigits base (ds.filterMap Text.digitValue), s.drop ds.length)

/-- A natural in the base that its first characters tell. -/
def unsigned (s : Octets) : Option (Nat × Octets) :=
  match s with
  | '0' :: x :: rest =>
    if x = 'x' || x = 'X' then
      match digits 16 rest with
      | some found => some found
      | none => some (0, x :: rest)
    else digits 8 s
  | s => digits (if s.head? = some '0' then 8 else 10) s

/-- A number that a text begins with: its sign, its size and what follows it. -/
structure Found where
  negative : Bool
  size : Nat
  rest : Octets
  deriving Repr, DecidableEq

/-- The number that a text begins with, in base ten or in the base that it tells. -/
def find? (anyBase : Bool) (s : Octets) : Option Found :=
  let s := s.dropWhile isSpace
  let (negative, body) := match s with
    | '-' :: body => (true, body)
    | '+' :: body => (false, body)
    | body => (false, body)
  (if anyBase then unsigned body else digits 10 body).map fun (size, rest) =>
    ⟨negative, size, rest⟩

/-- The highest number with a sign. -/
def signedMax : Nat := 9223372036854775807

/-- The highest number without a sign. -/
def unsignedMax : Nat := 18446744073709551615

namespace Found

/-- Whether the number with its sign lies within 64 bits. -/
def fits (f : Found) : Bool := f.size ≤ signedMax + (if f.negative then 1 else 0)

/-- The number with its sign, or the nearest one of 64 bits. -/
def toInt (f : Found) : Int :=
  if f.negative then -(min f.size (signedMax + 1) : Nat) else (min f.size signedMax : Nat)

/-- The number as one without a sign: a negative one counts from the highest one down. -/
def toUnsigned (f : Found) : Nat :=
  if unsignedMax < f.size then unsignedMax
  else if f.negative then (unsignedMax + 1 - f.size) % (unsignedMax + 1)
  else f.size

end Found

/-- An integer as one of 64 bits with a sign. -/
def wrap (n : Int) : Int := Int.bmod n 18446744073709551616

/-- The number that a whole text writes, blanks around it left out. -/
def whole? (anyBase : Bool) (s : Octets) : Option Int := do
  let f ← find? anyBase s
  if f.fits && f.rest.all isSpace then return f.toInt else none

end LintRun.Command.Numeral
