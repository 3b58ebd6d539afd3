import LintRun.Command.Awk.Printf

/-! The functions of numbers and texts that every program has. No result rests on this module. -/

namespace LintRun.Command.Awk

def truncated (x : Float) : Float := if x < 0 then x.ceil else x.floor

/-- The remainder of a division of two numbers, which has the sign of the first one. -/
def remainder (x y : Float) : Float :=
  if x.isNaN || y.isNaN || x.isInf || y == 0 then 0.0 / 0.0
  else if y.isInf then x
  else
    let a := Decimal.Ratio.ofFloat x
    let b := Decimal.Ratio.ofFloat y
    let r := Decimal.nearest (a.num * b.den % (b.num * a.den)) (a.den * b.den)
    if x < 0 || 1 / x < 0 then -r else r

def Arithmetic.apply (op : Arithmetic) (x y : Float) : Float :=
  match op with
  | .add => x + y
  | .sub => x - y
  | .mul => x * y
  | .div => x / y
  | .mod => remainder x y
  | .pow => x.pow y

def Comparison.holds (op : Comparison) (o : Ordering) : Bool :=
  match op with
  | .less => o = .lt
  | .atMost => o ≠ .gt
  | .equal => o = .eq
  | .differ => o ≠ .eq
  | .more => o = .gt
  | .atLeast => o ≠ .lt

/-- Where a text stands in another one, counted from one; zero if it does not. -/
def indexOf (part : Octets) : Nat → Octets → Nat
  | n, s =>
    if part.isPrefixOf s then n
    else match s with
      | [] => 0
      | _ :: s => indexOf part (n + 1) s

/-- A part of a text from a place, counted from one, and with a length. A place before the first one
    counts as the first, and makes the part longer; the length may wrap around. -/
def partOf (s : Octets) (start length : Int) : Octets :=
  let length := if start < 1 then wrapped (length - start) else length
  (s.drop (start.toNat - 1)).take length.toNat

/-- A text with all letters made small or large. -/
def withCase (upper : Bool) (s : Octets) : Octets :=
  s.map fun c => if upper then c.toUpper else c.toLower

/-- What a replacement stands for where a text was matched: an ampersand stands for that text.
    Backslashes before an ampersand halve, and one that is left over makes it stand for itself;
    `backslashes` of them are behind. -/
def replacementAfter (found : Octets) (backslashes : Nat) : Octets → Octets
  | '\\' :: s => replacementAfter found (backslashes + 1) s
  | '&' :: s =>
    List.replicate (backslashes / 2) '\\' ++
      (if backslashes % 2 = 1 then ['&'] else found) ++ replacementAfter found 0 s
  | c :: s => List.replicate backslashes '\\' ++ c :: replacementAfter found 0 s
  | [] => List.replicate backslashes '\\'

/-- What a replacement stands for where a text was matched. -/
def replacement (found s : Octets) : Octets := replacementAfter found 0 s

/-- A text in which all matches are replaced, last piece first, and how many there were. An empty
    match directly behind another one does not count. The first argument bounds the characters. -/
def replaceAll (r : Regex) (by_ : Octets) :
    Nat → (atStart afterMatch : Bool) → Octets → List Octets → Nat → List Octets × Nat
  | 0, _, _, s, done, count => (s :: done, count)
  | fuel + 1, atStart, afterMatch, s, done, count =>
    match r.longest atStart s, s with
    | some (n + 1), s =>
      let found := s.take (n + 1)
      replaceAll r by_ fuel false true (s.drop (n + 1)) (replacement found by_ :: done) (count + 1)
    | found, [] =>
      if found.isSome && !afterMatch then (replacement [] by_ :: done, count + 1)
      else (done, count)
    | found, c :: s =>
      if found.isSome && !afterMatch then
        replaceAll r by_ fuel false false s ([c] :: replacement [] by_ :: done) (count + 1)
      else replaceAll r by_ fuel false false s ([c] :: done) count

/-- A text in which the first match, or all matches are replaced, and how many there were. -/
def replaced (all : Bool) (r : Regex) (by_ s : Octets) : Octets × Nat :=
  if all then
    let (pieces, count) := replaceAll r by_ (s.length + 1) true false s [] 0
    (pieces.reverse.flatten, count)
  else
    match r.find true 0 s with
    | none => (s, 0)
    | some (before, length) =>
      let found := (s.drop before).take length
      (s.take before ++ replacement found by_ ++ s.drop (before + length), 1)

/-- The next state of the source of random numbers. -/
def nextRandom (state : UInt64) : UInt64 := state * 6364136223846793005 + 1442695040888963407

namespace Act

def firstNumber (values : List Cell) : Float := (values.headD .unset).toNumber

/-- A number from zero up to one. -/
def random : Act Float :=
  modifyGet fun s =>
    let state := nextRandom s.random
    ((state >>> 11).toFloat / 9007199254740992, { s with random := state })

/-- Sets where random numbers begin, and gives what was set before. -/
def seed (c : Cell) : Act Cell :=
  modifyGet fun s =>
    (s.seed, { s with seed := c, random := nextRandom (c.toNumber.toBits + 1) })

/-- Writes out what was kept back, for a name or for the process. -/
def flush (name : Option Octets) : Act Float := do
  match name with
  | none =>
    flushOutput
    return 0
  | some name =>
    let s ← get
    match s.outflows.find? (·.name = name) with
    | none => return -1
    | some flow =>
      let flow ← flushOutflow flow
      modify fun s => { s with outflows := s.outflows.map fun f => if f.name = name then flow else f }
      return 0

def callFunction (f : Function) (values : List Cell) : Act Cell := do
  let text := fun (i : Nat) => textOf ((values[i]?).getD Cell.unset)
  let ofFloat := fun (g : Float → Float) => pure (Cell.number (g (firstNumber values)))
  match f with
  | .length =>
    let c ← if values.isEmpty then field 0 else pure (values.headD .unset)
    return .number (Float.ofNat (← textOf c).length)
  | .index => return .number (Float.ofNat (indexOf (← text 1) 1 (← text 0)))
  | .substr =>
    let s ← text 0
    let place := fun (i : Nat) => (values[i]?).map fun c => toPlace c.toNumber
    return .text (partOf s ((place 1).getD 1) ((place 2).getD s.length))
  | .sprintf => return .text (← format "sprintf" true (fun _ => pure ()) values)
  | .sin => ofFloat Float.sin
  | .cos => ofFloat Float.cos
  | .atan2 =>
    return .number (Float.atan2 (firstNumber values) ((values[1]?).getD Cell.unset).toNumber)
  | .exp => ofFloat Float.exp
  | .log => ofFloat Float.log
  | .sqrt => ofFloat Float.sqrt
  | .int => ofFloat truncated
  | .rand => return .number (← random)
  | .srand => seed (values.headD (.number 1700000000))
  | .close => return .number (← close (← text 0))
  | .system =>
    flushAll
    let ending ← runCommand "sh" (← text 0) (← get).process.descriptors
    return .number (statusOf ending)
  | .toupper => return .text (withCase true (← text 0))
  | .tolower => return .text (withCase false (← text 0))
  | .fflush => return .number (← flush (← values.head?.mapM textOf))

end Act

end LintRun.Command.Awk
