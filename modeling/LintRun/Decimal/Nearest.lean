/-! The float nearest to a fraction, computed in exact arithmetic. A tie goes to the even
    neighbour. -/

namespace LintRun.Decimal

/-- The natural nearest to `num / den`; a tie goes to the even one. -/
def roundHalfEven (num den : Nat) : Nat :=
  let q := num / den
  let r := num % den
  if 2 * r < den || (2 * r == den && q % 2 == 0) then q else q + 1

/-- The exponent of the last place of a float of the size of `num / den`: that of 53 binary digits,
    or the lowest one there is. -/
def placeOf (num den : Nat) : Int :=
  let guess := (num.log2 : Int) - den.log2 - 53
  let fits := num * Nat.pow 2 (-guess).toNat < den * Nat.pow 2 guess.toNat * Nat.pow 2 53
  max (-1074) (if fits then guess else guess + 1)

/-- The bits of the float nearest to `num / den`. A mantissa that rounds up to the next power of two
    carries into the exponent, and what is too large becomes infinite. -/
def nearestBits (num den : Nat) : Nat :=
  if num = 0 then 0
  else
    let q := placeOf num den
    let mantissa := roundHalfEven (num * Nat.pow 2 (-q).toNat) (den * Nat.pow 2 q.toNat)
    min ((q + 1074).toNat * Nat.pow 2 52 + mantissa) (2047 * Nat.pow 2 52)

/-- The float nearest to `num / den`. -/
def nearest (num den : Nat) : Float := Float.ofBits (nearestBits num den).toUInt64

/-- The float nearest to `digits` · 10^`exponent`. Powers beyond all floats are cut to ones that are
    still beyond them. -/
def nearestScaled (digits : Nat) (exponent : Int) : Float :=
  let size : Int := (toString digits).length
  let e := if 400 < exponent + size then 400 else max exponent (-400 - size)
  nearest (digits * Nat.pow 10 e.toNat) (Nat.pow 10 (-e).toNat)

end LintRun.Decimal
