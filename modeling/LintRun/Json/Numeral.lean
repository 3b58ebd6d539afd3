import LintRun.Decimal.Nearest
import LintRun.Json.Value

/-! Numbers of a JSON text: their written form and the value it stands for.

    A float is computed from at most the digits that fit 64 bits, in one or more rounded steps, so
    its last place may differ from that of the nearest float. -/

namespace LintRun.Json

/-- A written number: its digits before and after the point, and its exponent. -/
structure Numeral where
  negative : Bool
  whole : List Nat
  fraction : List Nat
  exponent : Option Int
  deriving Repr, DecidableEq

/-- The largest significand. -/
def significandMax : Nat := Nat.pow 2 64 - 1

/-- Appends digits to a significand while it still fits 64 bits; gives the digits left over too. -/
def takeDigits (acc : Nat) : List Nat → Nat × List Nat
  | [] => (acc, [])
  | d :: ds =>
    if acc * 10 + d ≤ significandMax then takeDigits (acc * 10 + d) ds else (acc, d :: ds)

/-- The number of steps that carry a float to an exponent within the powers of ten that floats
    have: one for every 308, and few more before it has become zero. -/
def scaleSteps : Nat := 8

/-- The float nearest to 10^`e`. -/
def power (e : Nat) : Float := Decimal.nearest (Nat.pow 10 e) 1

/-- `x` · 10^`e`, by one product or quotient for every power of ten that a float can be. There is
    none when the result is too large. -/
def scale : Nat → Float → Int → Option Float
  | 0, x, _ => some x
  | steps + 1, x, e =>
    if 0 ≤ e then
      if e ≤ 308 then
        let y := x * power e.toNat
        if y.isInf then none else some y
      else if x == 0.0 then some x else none
    else if -308 ≤ e then some (x / power (-e).toNat)
    else if x == 0.0 then some x
    else scale steps (x / power 308) (e + 308)

/-- A significand as a float, scaled and with its sign. -/
def floatOf (negative : Bool) (significand : Nat) (e : Int) : Option Value := do
  let x ← scale scaleSteps (Decimal.nearest significand 1) e
  return .float (if negative then -x else x)

/-- The value of a number. An integer that does not fit 64 bits is a float, and so is `-0`. -/
def Numeral.value (n : Numeral) : Option Value :=
  let (s, excess) := takeDigits 0 n.whole
  if n.fraction = [] && n.exponent = none && excess = [] then
    if !n.negative then some (.integer s)
    else if 1 ≤ s && s ≤ Nat.pow 2 63 then some (.integer (-(s : Int)))
    else floatOf true s 0
  else
    let (s, rest) := takeDigits s n.fraction
    let used := n.fraction.length - rest.length
    floatOf n.negative s ((excess.length : Int) - used + n.exponent.getD 0)

/-- The value of a number that is a natural below 2^64: digits and nothing else. -/
def Numeral.natural? (n : Numeral) : Option Nat :=
  match n.value with
  | some (.integer m) => if 0 ≤ m then some m.toNat else none
  | _ => none

end LintRun.Json
