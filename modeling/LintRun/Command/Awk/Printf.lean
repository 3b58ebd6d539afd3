import LintRun.Command.Awk.Stream

/-! Formatting values as a form with directives says. No result rests on this module. -/

namespace LintRun.Command.Awk

/-- Why values cannot be formatted: one is missing, or a directive converts nothing. -/
inductive Misfit where
  | missing
  | improper (number : Nat)
  deriving Repr, DecidableEq

/-- What was formatted so far, last piece first. `guesses` tells whether any text that looks like a
    number is the character of that number. -/
structure Formatting where
  guesses : Bool := false
  pieces : List Octets := []
  values : List Cell := []
  directives : Nat := 0
  deriving Inhabited

namespace Formatting

def add (f : Formatting) (s : Octets) : Formatting := { f with pieces := s :: f.pieces }

/-- A width or a precision, which may be a value. -/
def amount (f : Formatting) : Format.Amount → Except Misfit (Int × Formatting)
  | .number n => .ok (n, f)
  | .argument =>
    match f.values with
    | [] => .error .missing
    | v :: values => .ok (toPlace v.toNumber, { f with values })

def field (f : Formatting) (d : Format.Directive) : Except Misfit (Format.Field × Formatting) := do
  let (width, f) ← f.amount d.width
  match d.precision with
  | none => return (d.field width none, f)
  | some p =>
    let (precision, f) ← f.amount p
    return (d.field width (some precision), f)

/-- The character that a value stands for. -/
def character (guesses : Bool) (c : Cell) : Octets :=
  match if guesses then c.guessed else c.settled with
  | .number x => [Char.ofNat (toPlace x % 256).toNat]
  | .text (c :: _) => [c]
  | _ => ['\x00']

/-- The letters that tell how large a number is, which change nothing. -/
def dropSize : Octets → Octets
  | 'h' :: s => s
  | 'l' :: 'l' :: s => s
  | 'l' :: s => s
  | s => s

/-- Formats a value as a directive says that stands after its percent sign: what follows it, and what
    was formatted behind it. -/
def directive (numberForm : Octets) (s : Octets) (f : Formatting) :
    Except Misfit (Octets × Formatting) := do
  let number := f.directives + 1
  let f := { f with directives := number }
  match s with
  | '%' :: rest => return (rest, f.add ['%'])
  | s =>
    let (d, rest) := Format.readDirective s
    let (field, f) ← f.field { d with kind := 's' }
    match f.values with
    | [] => .error .missing
    | v :: values =>
      let f := { f with values }
      match dropSize rest with
      | [] => .error (.improper number)
      | kind :: rest =>
        let field := { field with directive := { field.directive with kind } }
        if kind = 's' then return (rest, f.add (field.text (v.toText numberForm)))
        else if kind = 'c' then return (rest, f.add (field.pad (character f.guesses v)))
        else if Format.isSigned kind || Format.isUnsigned kind ||
          (Format.isReal kind && kind ≠ 'F') then
          return (rest, f.add (convertNumber field v.toNumber))
        else .error (.improper number)

/-- Formats values. The first argument bounds the characters of the form. -/
def run (numberForm : Octets) : Nat → Octets → Formatting → Formatting × Option Misfit
  | 0, _, f => (f, none)
  | _ + 1, [], f => (f, none)
  | fuel + 1, '%' :: s, f =>
    match directive numberForm s f with
    | .ok (rest, f) => run numberForm fuel rest f
    | .error e => (f, some e)
  | fuel + 1, s, f =>
    let text := s.takeWhile (· ≠ '%')
    run numberForm fuel (s.drop text.length) (f.add text)

def text (f : Formatting) : Octets := f.pieces.reverse.flatten

end Formatting

namespace Act

def failFormatting {α : Type} (name : String) (form : Octets) : Misfit → Act α
  | .missing =>
    fail (Octets.ofString s!"not enough arguments passed to {name}(\"" ++ form ++ ['"', ')'])
  | .improper number =>
    fail (Octets.ofString s!"improper conversion(number {number}) in {name}(\"" ++ form ++
      ['"', ')'])

/-- Formats values; `partly` is done with what was formatted before a directive that fails. -/
def format (name : String) (guesses : Bool) (partly : Octets → Act Unit) (values : List Cell) :
    Act Octets := do
  match values with
  | [] => return []
  | form :: values =>
    let form ← textOf form
    match Formatting.run (← textForm) (form.length + 1) form { guesses, values } with
    | (f, none) => return f.text
    | (f, some e) =>
      partly f.text
      failFormatting name form e

end Act

end LintRun.Command.Awk
