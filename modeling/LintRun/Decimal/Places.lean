import LintRun.Decimal.Nearest
import LintRun.Decimal.Padded
import LintRun.Decimal.Shortest

/-! Fractions in a given number of decimal places, or of digits with an exponent.

    What is rounded is the exact fraction; a tie goes to the even neighbour. -/

namespace LintRun.Decimal

/-- A fraction without a sign. Its denominator is not zero. -/
structure Ratio where
  num : Nat
  den : Nat
  deriving Repr, DecidableEq, Inhabited

namespace Ratio

/-- The fraction of a power of two. -/
def ofBinary (mantissa : Nat) (exponent : Int) : Ratio :=
  ⟨mantissa * Nat.pow 2 exponent.toNat, Nat.pow 2 (-exponent).toNat⟩

/-- The fraction of a power of ten. -/
def ofDecimal (digits : Nat) (exponent : Int) : Ratio :=
  ⟨digits * Nat.pow 10 exponent.toNat, Nat.pow 10 (-exponent).toNat⟩

/-- The magnitude of a finite float. -/
def ofFloat (x : Float) : Ratio :=
  let b := Binary.ofBits x.toBits
  ofBinary b.mantissa b.exponent

/-- The fraction times a power of ten, rounded to a natural. -/
def scaled (r : Ratio) (exponent : Int) : Nat :=
  roundHalfEven (r.num * Nat.pow 10 exponent.toNat) (r.den * Nat.pow 10 (-exponent).toNat)

/-- The digits before and after the point, in a given number of places. -/
def places (r : Ratio) (count : Nat) : List Char × List Char :=
  let ds := (padded (count + 1) (r.scaled count)).toList
  ds.splitAt (ds.length - count)

/-- The exponent of ten of the first digit of a fraction that is not zero. -/
def topExponent (r : Ratio) : Int :=
  let guess := ((toString r.num).length : Int) - (toString r.den).length
  let fits := r.den * Nat.pow 10 guess.toNat ≤ r.num * Nat.pow 10 (-guess).toNat
  if fits then guess else guess - 1

/-- One digit and `count` more, and the exponent of ten of the first one. -/
def digits (r : Ratio) (count : Nat) : List Char × Int :=
  if r.num = 0 then (List.replicate (count + 1) '0', 0)
  else
    let e := r.topExponent
    let n := r.scaled (count - e)
    if n < Nat.pow 10 (count + 1) then ((toString n).toList, e)
    else ((toString (n / 10)).toList, e + 1)

end Ratio

/-- The end of a number without the zeros at the end of its fraction. -/
def dropFinalZeros (fraction : List Char) : List Char :=
  (fraction.reverse.dropWhile (· = '0')).reverse

/-- A point and a fraction; no point if there is nothing behind it, unless it is wanted. -/
def fractionText (wanted : Bool) (fraction : List Char) : List Char :=
  if fraction = [] then (if wanted then ['.'] else []) else '.' :: fraction

/-- An exponent with its sign and at least two digits. -/
def exponentText (e : Int) : List Char :=
  (if e < 0 then '-' else '+') :: (padded 2 e.natAbs).toList

/-- A fraction in a given number of places. -/
def fixedNotation (point : Bool) (count : Nat) (r : Ratio) : List Char :=
  let (whole, fraction) := r.places count
  whole ++ fractionText point fraction

/-- A fraction as one digit, a given number of places, and an exponent. -/
def scientificNotation (point : Bool) (count : Nat) (r : Ratio) : List Char :=
  let (ds, e) := r.digits count
  ds.take 1 ++ fractionText point (ds.drop 1) ++ 'e' :: exponentText e

/-- A fraction in a given number of digits, with an exponent where it is small or large. Zeros at
    the end are dropped unless the point is wanted. -/
def generalNotation (point : Bool) (count : Nat) (r : Ratio) : List Char :=
  let count := max count 1
  let (ds, e) := r.digits (count - 1)
  let trim := fun (fraction : List Char) => if point then fraction else dropFinalZeros fraction
  if e < -4 || (count : Int) ≤ e then
    ds.take 1 ++ fractionText point (trim (ds.drop 1)) ++ 'e' :: exponentText e
  else
    let (whole, fraction) := r.places ((count : Int) - 1 - e).toNat
    whole ++ fractionText point (trim fraction)

end LintRun.Decimal
