import LintRun.Decimal.Nearest
import LintRun.Text.Digits
import LintRun.Toml.Value

/-! The numbers of a TOML document.

    Digits may be parted by single underscores. Integers have 64 bits; floats are the nearest ones,
    and a positive one that is too large is refused. -/

namespace LintRun.Toml

/-- Digits of a base, of which there is at least one, with single underscores between them; `done`
    holds those read, last first. -/
def readDigitsAfter (base : Nat) (done : List Nat) : List Char → Option (List Nat × List Char)
  | [] => some (done.reverse, [])
  | ['_'] => none
  | '_' :: c :: s =>
    match Text.digitOf base c with
    | some d => readDigitsAfter base (d :: done) s
    | none => none
  | c :: s =>
    match Text.digitOf base c with
    | some d => readDigitsAfter base (d :: done) s
    | none => some (done.reverse, c :: s)

/-- Digits of a base, of which there is at least one, with single underscores between them. -/
def readDigits (base : Nat) : List Char → Option (List Nat × List Char)
  | [] => none
  | c :: s => do readDigitsAfter base [← Text.digitOf base c] s

/-- A sign, if there is one: whether it is a minus, and what follows it. -/
def readSign : List Char → Bool × List Char
  | '-' :: s => (true, s)
  | '+' :: s => (false, s)
  | s => (false, s)

/-- The whole part of a decimal number: a zero alone, or digits of which the first is not zero. -/
def readWhole : List Char → Option (List Nat × List Char)
  | '0' :: s => some ([0], s)
  | s => readDigits 10 s

/-- An exponent, if there is one. -/
def readPower : List Char → Option (Int × List Char)
  | [] => some (0, [])
  | c :: s =>
    if c = 'e' || c = 'E' then do
      let (negative, s) := readSign s
      let (ds, s) ← readDigits 10 s
      let n : Int := Text.natOfDigits 10 ds
      return (if negative then -n else n, s)
    else some (0, c :: s)

/-- The float of a sign, digits and a power of ten. -/
def floatOf (negative : Bool) (digits : List Nat) (power : Int) : Option Value :=
  let x := Decimal.nearestScaled (Text.natOfDigits 10 digits) power
  if x.isInf && !negative then none else some (.float (if negative then -x else x))

/-- An integer, if it fits 64 bits. -/
def integerOf (n : Int) : Option Value :=
  if -(Nat.pow 2 63 : Int) ≤ n && n < (Nat.pow 2 63 : Int) then some (.integer n) else none

/-- A number after its sign: with a fraction or an exponent it is a float, and without both an
    integer. -/
def readDecimal (negative : Bool) (s : List Char) : Option (Value × List Char) := do
  let (whole, s) ← readWhole s
  match s with
  | '.' :: s => do
    let (fraction, s) ← readDigits 10 s
    let (power, s) ← readPower s
    return (← floatOf negative (whole ++ fraction) (power - fraction.length), s)
  | s =>
    let float := match s with
      | c :: _ => c = 'e' || c = 'E'
      | [] => false
    if float then do
      let (power, s) ← readPower s
      return (← floatOf negative whole power, s)
    else
      let n : Int := Text.natOfDigits 10 whole
      return (← integerOf (if negative then -n else n), s)

/-- An integer of another base, after the letter of the base. -/
def readBased (base : Nat) (s : List Char) : Option (Value × List Char) := do
  let (ds, s) ← readDigits base s
  return (← integerOf (Text.natOfDigits base ds), s)

/-- The float that is not a number, or the infinite one. -/
def special (negative : Bool) (x : Float) : Value := .float (if negative then -x else x)

def readNumber : List Char → Option (Value × List Char)
  | '0' :: 'x' :: s => readBased 16 s
  | '0' :: 'o' :: s => readBased 8 s
  | '0' :: 'b' :: s => readBased 2 s
  | s =>
    let (negative, s) := readSign s
    match s with
    | 'i' :: 'n' :: 'f' :: s => some (special negative (1.0 / 0.0), s)
    | 'n' :: 'a' :: 'n' :: s => some (special negative (0.0 / 0.0), s)
    | s => readDecimal negative s

end LintRun.Toml
