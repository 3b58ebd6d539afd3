/-! Naturals in a fixed number of decimal places. -/

namespace LintRun.Decimal

/-- A number in at least `width` decimal digits. -/
def padded (width n : Nat) : String :=
  let digits := (toString n).toList
  String.ofList (List.replicate (width - digits.length) '0' ++ digits)

end LintRun.Decimal
