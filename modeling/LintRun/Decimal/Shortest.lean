/-! The shortest decimal that reads back as a given float.

    A finite float is m · 2^q. The reals that round to it form an interval around it, whose ends
    belong to it when m is even. On the grid of multiples of 10^k the two neighbours of the float
    are candidates; the coarsest grid that has a candidate inside the interval gives the fewest
    digits, and of two candidates on it the nearer is taken. All comparisons are exact. -/

namespace LintRun.Decimal

/-- A finite float without its sign: `mantissa` · 2^`exponent`. At the foot of a binade, apart from
    the lowest, the float below is only half as far away as the float above. -/
structure Binary where
  mantissa : Nat
  exponent : Int
  atFoot : Bool
  deriving Repr, DecidableEq

/-- The magnitude that 64 bits stand for. -/
def Binary.ofBits (bits : UInt64) : Binary :=
  let field := (bits >>> 52).toNat % 2048
  let fraction := bits.toNat % Nat.pow 2 52
  if field = 0 then ⟨fraction, -1074, false⟩
  else ⟨fraction + Nat.pow 2 52, (field : Int) - 1075, fraction = 0 && field > 1⟩

/-- A decimal `digits` · 10^`exponent`. -/
structure Scaled where
  digits : Nat
  exponent : Int
  deriving Repr, DecidableEq

/-- The powers that turn a · 2^p against d · 10^k into a comparison of naturals: a · left and
    d · right. -/
def weights (p k : Int) : Nat × Nat :=
  (Nat.pow 2 p.toNat * Nat.pow 10 (-k).toNat, Nat.pow 2 (-p).toNat * Nat.pow 10 k.toNat)

/-- Whether `d` · 10^`k` rounds to the float. In quarters of its last place the interval reaches two
    up, and two down or, at the foot of a binade, one down. -/
def Binary.covers (b : Binary) (k : Int) (d : Nat) : Bool :=
  let (left, right) := weights (b.exponent - 2) k
  let lo := (4 * b.mantissa - (if b.atFoot then 1 else 2)) * left
  let hi := (4 * b.mantissa + 2) * left
  let x := d * right
  if b.mantissa % 2 = 0 then lo ≤ x && x ≤ hi else lo < x && x < hi

/-- The multiple of 10^`k` that is taken for the float, if one rounds to it. An exact tie goes to
    the even neighbour. -/
def Binary.onGrid (b : Binary) (k : Int) : Option Nat :=
  let (left, right) := weights (b.exponent - 2) k
  let value := 4 * b.mantissa * left
  let below := value / right
  let above := below + 1
  let takeBelow := b.covers k below && below != 0
  let takeAbove := b.covers k above
  match takeBelow, takeAbove with
  | false, false => none
  | true, false => some below
  | false, true => some above
  | true, true =>
    let downwards := value - below * right
    let upwards := above * right - value
    if downwards < upwards || (downwards == upwards && below % 2 == 0) then some below
    else some above

/-- The grids that can matter, coarsest first: 10^309 down to 10^-324. -/
def grids : List Int := (List.range 634).map fun (i : Nat) => 309 - (i : Int)

/-- The shortest decimal of a float that is not zero. -/
def Binary.shortest (b : Binary) : Scaled :=
  (grids.findSome? fun k => (b.onGrid k).map (⟨·, k⟩)).getD ⟨0, 0⟩

end LintRun.Decimal
