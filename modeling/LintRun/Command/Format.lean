import LintRun.Command.Real

/-! Directives of format strings: how a value is converted, and the field in which it stands. No
    result rests on this module. -/

namespace LintRun.Command.Format

/-- A width or a precision: given in the directive, or by an argument. -/
inductive Amount where
  | number (n : Int)
  | argument
  deriving Repr, DecidableEq

/-- A directive: its flags, its width, its precision, and the letter of the conversion. -/
structure Directive where
  left : Bool := false
  zero : Bool := false
  plus : Bool := false
  space : Bool := false
  alternate : Bool := false
  width : Amount := .number 0
  precision : Option Amount := none
  kind : Char := 's'
  deriving Repr, DecidableEq

/-- A directive whose width and precision are known. -/
structure Field where
  directive : Directive
  left : Bool
  width : Nat
  precision : Option Nat
  deriving Repr, DecidableEq

/-- The flags that a directive begins with. -/
def readFlags (d : Directive) : Octets → Directive × Octets
  | '-' :: s => readFlags { d with left := true } s
  | '0' :: s => readFlags { d with zero := true } s
  | '+' :: s => readFlags { d with plus := true } s
  | ' ' :: s => readFlags { d with space := true } s
  | '#' :: s => readFlags { d with alternate := true } s
  | s => (d, s)

/-- A number in digits; none counts as zero. -/
def readNumber (s : Octets) : Nat × Octets :=
  let (ds, rest) := Text.spanDigits s
  (Text.natOfDigits 10 ds, rest)

def readAmount : Octets → Amount × Octets
  | '*' :: s => (.argument, s)
  | s => let (n, rest) := readNumber s; (.number n, rest)

/-- A directive after its percent sign, up to the letter of its conversion. -/
def readDirective (s : Octets) : Directive × Octets :=
  let (d, s) := readFlags {} s
  let (width, s) := readAmount s
  match s with
  | '.' :: s =>
    let (precision, s) := readAmount s
    ({ d with width, precision := some precision }, s)
  | s => ({ d with width }, s)

/-- The size beyond which no field grows. -/
def fieldMax : Nat := 100000

/-- The field of a directive. A negative width turns to the left, and a negative precision is
    none. -/
def Directive.field (d : Directive) (width : Int) (precision : Option Int) : Field :=
  ⟨d, d.left || width < 0, min width.natAbs fieldMax,
    (precision.filter fun n => 0 ≤ n).map fun n => min n.toNat fieldMax⟩

/-- The octet of an escape of letters or up to three octal digits, after its backslash. -/
def readEscape : Octets → Option (Char × Octets)
  | '\\' :: s => some ('\\', s)
  | 'a' :: s => some ('\x07', s)
  | 'b' :: s => some ('\x08', s)
  | 'f' :: s => some ('\x0c', s)
  | 'n' :: s => some ('\n', s)
  | 'r' :: s => some ('\r', s)
  | 't' :: s => some ('\t', s)
  | 'v' :: s => some ('\x0b', s)
  | s =>
    let digits := (s.take 3).takeWhile fun c => (Text.digitOf 8 c).isSome
    if digits = [] then none
    else
      let n := Text.natOfDigits 8 (digits.filterMap Text.digitValue)
      some (Char.ofNat (n % 256), s.drop digits.length)

namespace Field

def pad (f : Field) (s : Octets) : Octets :=
  let fill := List.replicate (f.width - s.length) ' '
  if f.left then s ++ fill else fill ++ s

/-- A sign and a body in their field, with zeros between them if the directive asks for it. -/
def padNumber (f : Field) (zeros : Bool) (sign body : Octets) : Octets :=
  if zeros && f.directive.zero && !f.left then
    sign ++ List.replicate (f.width - sign.length - body.length) '0' ++ body
  else f.pad (sign ++ body)

/-- A text, cut to the precision. -/
def text (f : Field) (s : Octets) : Octets :=
  f.pad (match f.precision with
    | some n => s.take n
    | none => s)

def sign (f : Field) (negative : Bool) : Octets :=
  if negative then ['-'] else if f.directive.plus then ['+']
  else if f.directive.space then [' '] else []

/-- The digits of a natural in a base, at least as many as the precision. -/
def digits (f : Field) (base n : Nat) : Octets :=
  let least := f.precision.getD 1
  let ds := if n = 0 then [] else Nat.toDigits base n
  List.replicate (least - ds.length) '0' ++ ds

def integer (f : Field) (n : Int) : Octets :=
  f.padNumber f.precision.isNone (f.sign (n < 0)) (f.digits 10 n.natAbs)

/-- A natural in the base of its conversion. -/
def natural (f : Field) (n : Nat) : Octets :=
  let kind := f.directive.kind
  let mark : Octets := if f.directive.alternate && n ≠ 0 && (kind = 'x' || kind = 'X') then ['0', kind]
    else []
  let base := if kind = 'x' || kind = 'X' then 16 else if kind = 'o' then 8 else 10
  let body := f.digits base n
  let body := if kind = 'X' then body.map Char.toUpper else body
  let body := if f.directive.alternate && kind = 'o' && body.head? ≠ some '0' then '0' :: body
    else body
  f.padNumber f.precision.isNone mark body

/-- The size of a number in the notation of its conversion. -/
def notated (f : Field) (r : Decimal.Ratio) : Octets :=
  let count := f.precision.getD 6
  let point := f.directive.alternate
  match f.directive.kind.toLower with
  | 'e' => Decimal.scientificNotation point count r
  | 'g' => Decimal.generalNotation point count r
  | _ => Decimal.fixedNotation point count r

def real (f : Field) (x : Real) : Octets :=
  let upper := fun (s : Octets) => if f.directive.kind.isUpper then s.map Char.toUpper else s
  let sign := f.sign x.isNegative
  match x with
  | .finite _ r => f.padNumber true sign (upper (f.notated r))
  | .infinite _ => f.padNumber false sign (upper ['i', 'n', 'f'])
  | .undefined _ => f.padNumber false sign (upper ['n', 'a', 'n'])

end Field

/-- Whether a letter converts an integer with a sign. -/
def isSigned (kind : Char) : Bool := kind = 'd' || kind = 'i'

/-- Whether a letter converts a natural. -/
def isUnsigned (kind : Char) : Bool := kind = 'o' || kind = 'u' || kind = 'x' || kind = 'X'

/-- Whether a letter converts a number with a fraction. -/
def isReal (kind : Char) : Bool :=
  kind = 'e' || kind = 'E' || kind = 'f' || kind = 'F' || kind = 'g' || kind = 'G'

end LintRun.Command.Format
