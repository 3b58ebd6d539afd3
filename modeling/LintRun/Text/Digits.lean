/-! Digits at the beginning of a text. -/

namespace LintRun.Text

/-- The value of a digit of base up to 16, of either case. -/
def digitValue (c : Char) : Option Nat :=
  if c.isDigit then some (c.toNat - '0'.toNat)
  else if 'a' ≤ c && c ≤ 'f' then some (c.toNat - 'a'.toNat + 10)
  else if 'A' ≤ c && c ≤ 'F' then some (c.toNat - 'A'.toNat + 10)
  else none

/-- The value of a digit of a base up to 16. -/
def digitOf (base : Nat) (c : Char) : Option Nat :=
  (digitValue c).filter (· < base)

/-- The decimal digits that a text begins with, and what follows them. -/
def spanDigits (s : List Char) : List Nat × List Char :=
  let (ds, rest) := s.span Char.isDigit
  (ds.map fun c => c.toNat - '0'.toNat, rest)

/-- The number that some digits of a base write. -/
def natOfDigits (base : Nat) (ds : List Nat) : Nat := ds.foldl (fun n d => n * base + d) 0

/-- The number of exactly `count` digits of a base that a text begins with. -/
def fixedDigits (base count : Nat) (s : List Char) : Option (Nat × List Char) := do
  let ds ← (s.take count).mapM (digitOf base)
  if ds.length = count then return (natOfDigits base ds, s.drop count) else none

end LintRun.Text
