import LintRun.Command.Numeral
import LintRun.Decimal.Places

/-! Numbers with a fraction: how they are read from a text, and what a machine keeps of them. No
    result rests on this module. -/

namespace LintRun.Command

open Decimal (Ratio)

/-- A number with a sign, which may also be infinite or none at all. -/
inductive Real where
  | finite (negative : Bool) (size : Ratio)
  | infinite (negative : Bool)
  | undefined (negative : Bool)
  deriving Repr, DecidableEq, Inhabited

namespace Real

/-- Whether a number has a minus sign. -/
def isNegative : Real → Bool
  | .finite negative _ | .infinite negative | .undefined negative => negative

/-- The digits of a base with a fraction: all of them as one number, how many stand behind the point,
    and what follows. Nothing without any digit. -/
def readDigits (base : Nat) (s : Octets) : Option (Nat × Nat × Octets) :=
  let isDigit := fun c => (Text.digitOf base c).isSome
  let whole := s.takeWhile isDigit
  let rest := s.drop whole.length
  let fraction := match rest with
    | '.' :: more => more.takeWhile isDigit
    | _ => []
  if whole = [] && fraction = [] then none
  else
    let n := Text.natOfDigits base ((whole ++ fraction).filterMap Text.digitValue)
    let rest := match rest with
      | '.' :: more => more.drop fraction.length
      | rest => rest
    some (n, fraction.length, rest)

/-- An exponent after one of some letters; none counts as zero. -/
def readExponent (letters : List Char) (s : Octets) : Int × Octets :=
  match s with
  | c :: rest =>
    if letters.contains c then
      let (negative, digits) := match rest with
        | '-' :: digits => (true, digits)
        | '+' :: digits => (false, digits)
        | digits => (false, digits)
      match Numeral.digits 10 digits with
      | some (n, rest) => (if negative then -(n : Int) else n, rest)
      | none => (0, s)
    else (0, s)
  | [] => (0, s)

/-- Exponents beyond which a number is too large or too small for any machine. -/
def exponentLimit : Int := 20000

/-- A number of some digits and an exponent of ten or two. -/
def ofExponent (ofBase : Nat → Int → Ratio) (negative : Bool) (n : Nat) (e : Int) : Real :=
  if n = 0 then .finite negative ⟨0, 1⟩
  else if exponentLimit < e then .infinite negative
  else if e < -exponentLimit - ((toString n).length : Int) then .finite negative ⟨0, 1⟩
  else .finite negative (ofBase n e)

/-- The number that a text without a sign begins with. -/
def readSize (negative : Bool) (s : Octets) : Option (Real × Octets) :=
  let lower := s.map Char.toLower
  if "infinity".toList.isPrefixOf lower then some (.infinite negative, s.drop 8)
  else if "inf".toList.isPrefixOf lower then some (.infinite negative, s.drop 3)
  else if "nan".toList.isPrefixOf lower then some (.undefined negative, s.drop 3)
  else
    let hex := if ['0', 'x'].isPrefixOf lower then readDigits 16 (s.drop 2) else none
    match hex with
    | some (n, places, rest) =>
      let (e, rest) := readExponent ['p', 'P'] rest
      some (ofExponent Ratio.ofBinary negative n (e - 4 * places), rest)
    | none => (readDigits 10 s).map fun (n, places, rest) =>
      let (e, rest) := readExponent ['e', 'E'] rest
      (ofExponent Ratio.ofDecimal negative n (e - places), rest)

/-- The number that a text begins with, and what follows it. -/
def find? (s : Octets) : Option (Real × Octets) :=
  match s.dropWhile Numeral.isSpace with
  | '-' :: body => readSize true body
  | '+' :: body => readSize false body
  | body => readSize false body

/-- What a machine keeps of a number that has so many binary digits and a lowest exponent. -/
def rounded (bits : Nat) (lowest : Int) : Real → Real
  | .finite negative ⟨num, den⟩ =>
    if num = 0 then .finite negative ⟨0, 1⟩
    else
      let guess := (num.log2 : Int) - den.log2 - bits
      let fits := num * Nat.pow 2 (-guess).toNat < den * Nat.pow 2 guess.toNat * Nat.pow 2 bits
      let e := max lowest (if fits then guess else guess + 1)
      let n := Decimal.roundHalfEven (num * Nat.pow 2 (-e).toNat) (den * Nat.pow 2 e.toNat)
      .finite negative (Ratio.ofBinary n e)
  | x => x

def ofFloat (x : Float) : Real :=
  let negative := x.toBits >>> 63 = 1
  if x.isNaN then .undefined negative
  else if x.isInf then .infinite negative
  else .finite negative (Ratio.ofFloat x)

/-- The float nearest to a number. -/
def toFloat : Real → Float
  | .finite negative r =>
    let x := Decimal.nearest r.num r.den
    if negative then -x else x
  | .infinite negative => if negative then -(1.0 / 0.0) else 1.0 / 0.0
  | .undefined negative => if negative then -(0.0 / 0.0) else 0.0 / 0.0

end Real

end LintRun.Command
