import LintRun.Decimal.Shortest

/-! How a float is written: its shortest digits, in positions or with an exponent.

    A float keeps a mark of being one: an integral value ends in `.0`. -/

namespace LintRun.Decimal

/-- Positional notation reaches from `lowest` up to but not including `highest`, both as powers of
    ten. -/
structure Layout where
  lowest : Int
  highest : Int
  deriving Repr, DecidableEq

/-- The digits of a decimal in their positions, or as one digit, a fraction and an exponent with
    its sign. -/
def Layout.write (layout : Layout) (x : Scaled) : List Char :=
  let ds := (toString x.digits).toList
  let top := x.exponent + (ds.length : Int) - 1
  if layout.lowest ≤ top && top < layout.highest then
    if 0 ≤ x.exponent then ds ++ List.replicate x.exponent.toNat '0' ++ ['.', '0']
    else if 0 ≤ top then ds.take (top.toNat + 1) ++ '.' :: ds.drop (top.toNat + 1)
    else '0' :: '.' :: List.replicate (-top - 1).toNat '0' ++ ds
  else
    let fraction := match ds.drop 1 with
      | [] => []
      | more => '.' :: more
    let sign := if 0 ≤ top then '+' else '-'
    ds.take 1 ++ fraction ++ 'e' :: sign :: (toString top.natAbs).toList

/-- The text of a finite float. -/
def Layout.writeFloat (layout : Layout) (x : Float) : String :=
  let bits := x.toBits
  let sign := if bits >>> 63 = 1 then ['-'] else []
  let b := Binary.ofBits bits
  String.ofList (sign ++ if b.mantissa = 0 then ['0', '.', '0'] else layout.write b.shortest)

end LintRun.Decimal
