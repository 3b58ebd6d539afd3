import LintRun.Command.Format

/-! The values of a program: numbers, texts, and texts from outside, which count as numbers where
    they look like one. No result rests on this module. -/

namespace LintRun.Command.Awk

/-- A value. -/
inductive Cell where
  | unset
  | number (x : Float)
  | text (s : Octets)
  | input (s : Octets)
  deriving Inhabited

/-- The number above the highest integer with a sign, as a float. -/
def signedBound : Float := 9223372036854775808

/-- The number above the highest integer without a sign, as a float. -/
def unsignedBound : Float := 18446744073709551616

/-- A float that is no integer's bound, cut to an integer. -/
def integerOf (x : Float) : Int := x.toInt64.toInt

/-- The integer with a sign that a number is cut to, but for numbers that are too high, which go up to
    the highest one without a sign. -/
def toSigned (x : Float) : Int :=
  if x.isNaN then -9223372036854775808
  else if signedBound ≤ x then
    if x < unsignedBound then (x.toUInt64.toNat : Int) else Numeral.unsignedMax
  else if x ≤ -signedBound then -9223372036854775807
  else integerOf x

/-- The integer with a sign that a number is cut to. -/
def toInteger (x : Float) : Int := min (toSigned x) Numeral.signedMax

/-- The integer without a sign that a number is cut to. Numbers that are too low count as one of two
    integers. -/
def toUnsigned (x : Float) : Nat :=
  if x ≤ -unsignedBound then 1
  else if x < -signedBound then 9223372036854775808
  else (toSigned x % 18446744073709551616).toNat

/-- The integer of 32 bits that an integer wraps around to. -/
def wrapped (n : Int) : Int := (n + 2147483648) % 4294967296 - 2147483648

/-- The place in a text, or the length of one, that a number stands for. -/
def toPlace (x : Float) : Int := wrapped (toInteger x)

/-- The text of a number that is an integer. -/
def integerText? (x : Float) : Option Octets :=
  if signedBound ≤ x then
    if x ≤ unsignedBound then some (toString (toSigned x)).toList else none
  else if -signedBound ≤ x && Float.ofInt (integerOf x) == x then
    some (toString (integerOf x)).toList
  else none

/-- A float as a number of any kind. What is no number has a minus sign. -/
def realOf (x : Float) : Real := if x.isNaN then .undefined true else .ofFloat x

/-- A number as a directive converts it that is not one for texts. An integer that is too high for one
    with a sign may be converted as one without. -/
def convertNumber (f : Format.Field) (x : Float) : Octets :=
  let kind := f.directive.kind
  if kind = 'd' && signedBound ≤ x then f.natural (toSigned x).toNat
  else if Format.isSigned kind then f.integer (toInteger x)
  else if Format.isUnsigned kind then f.natural (toUnsigned x)
  else f.real (realOf x)

/-- A number that is no integer, as a form says that holds one directive. -/
def formed (form : Octets) (x : Float) : Octets :=
  let before := form.takeWhile (· ≠ '%')
  match form.drop before.length with
  | [] => form
  | _ :: s =>
    let (d, rest) := Format.readDirective s
    match rest with
    | kind :: after =>
      let amount := fun
        | .number n => n
        | Format.Amount.argument => 0
      let f := { d with kind }.field (amount d.width) (d.precision.map amount)
      before ++ convertNumber f x ++ after
    | [] => form

def numberText (form : Octets) (x : Float) : Octets := (integerText? x).getD (formed form x)

/-- The number with which a text begins. -/
def numberIn (s : Octets) : Float :=
  match Real.find? s with
  | some (x, _) => x.toFloat
  | none => 0

/-- The number that a text looks like, with blanks around it. -/
def numberLike? (s : Octets) : Option Float :=
  let body := ((s.dropWhile Numeral.isSpace).reverse.dropWhile Numeral.isSpace).reverse
  match body.head?, body.getLast? with
  | some first, some last =>
    if (last.isDigit || last = '.') &&
      (first.isDigit || first = '+' || first = '-' || first = '.') then
      match Real.find? body with
      | some (x, []) => some x.toFloat
      | _ => none
    else none
  | _, _ => none

namespace Cell

def toNumber : Cell → Float
  | .unset => 0
  | .number x => x
  | .text s | .input s => numberIn s

def toText (form : Octets) : Cell → Octets
  | .unset => []
  | .number x => numberText form x
  | .text s | .input s => s

/-- A value of which it is known whether it counts as a number. -/
def settled : Cell → Cell
  | .input s =>
    match numberLike? s with
    | some x => .number x
    | none => .text s
  | c => c

/-- A value that counts as a number if its text looks like one, wherever the text comes from. -/
def guessed : Cell → Cell
  | .text s => settled (.input s)
  | c => c.settled

/-- Whether a value counts as true. -/
def isTrue (c : Cell) : Bool :=
  match c.settled with
  | .number x => x != 0
  | .text s => s ≠ []
  | _ => false

def ofBool (b : Bool) : Cell := .number (if b then 1 else 0)

/-- How two numbers compare. What is no number counts as equal to all. -/
def compareNumbers (x y : Float) : Ordering := if x < y then .lt else if y < x then .gt else .eq

/-- How two values compare: as numbers if both count as such, and as texts else. -/
def compare (form : Octets) (a b : Cell) : Ordering :=
  match a.settled, b.settled with
  | .unset, .unset => .eq
  | .number x, .number y => compareNumbers x y
  | .number x, .unset => compareNumbers x 0
  | .unset, .number y => compareNumbers 0 y
  | _, _ => compareOfLessAndEq (a.toText form) (b.toText form)

end Cell

end LintRun.Command.Awk
