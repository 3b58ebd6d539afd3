import LintRun.Decimal.Padded
import LintRun.Text.Digits

/-! Dates and times of a TOML document: their reading, and the one form in which they are
    written. -/

namespace LintRun.Toml

open Text (fixedDigits)
open Decimal (padded)

/-- A day of the calendar. -/
structure Date where
  year : Nat
  month : Nat
  day : Nat
  deriving Repr, DecidableEq, Inhabited

structure Time where
  hour : Nat
  minute : Nat
  second : Nat
  nanosecond : Nat
  deriving Repr, DecidableEq, Inhabited

/-- The distance of a clock from universal time. -/
inductive Offset where
  | zulu
  | shifted (minutes : Int)
  deriving Repr, DecidableEq, Inhabited

/-- A date, a time of day, or both with or without an offset. -/
structure DateTime where
  date : Option Date := none
  time : Option Time := none
  offset : Option Offset := none
  deriving Repr, DecidableEq, Inhabited

namespace Date

/-- Whether a year has a 29th of February. -/
def isLeap (year : Nat) : Bool := year % 4 == 0 && (year % 100 != 0 || year % 400 == 0)

/-- The number of days of a month. -/
def daysIn (year month : Nat) : Nat :=
  if month = 2 then if isLeap year then 29 else 28
  else if month = 4 || month = 6 || month = 9 || month = 11 then 30
  else 31

def text (d : Date) : String := padded 4 d.year ++ "-" ++ padded 2 d.month ++ "-" ++ padded 2 d.day

/-- The date that a text begins with. -/
def read (s : List Char) : Option (Date × List Char) := do
  let (year, '-' :: s) ← fixedDigits 10 4 s | none
  let (month, '-' :: s) ← fixedDigits 10 2 s | none
  let (day, s) ← fixedDigits 10 2 s
  if 1 ≤ month && month ≤ 12 && 1 ≤ day && day ≤ daysIn year month then
    return (⟨year, month, day⟩, s)
  else none

end Date

namespace Time

/-- The fraction of a second: none when it is zero, else without the zeros at its end. -/
def fractionText (nanosecond : Nat) : String :=
  if nanosecond = 0 then ""
  else
    let digits := (padded 9 nanosecond).toList.reverse.dropWhile (· = '0')
    String.ofList ('.' :: digits.reverse)

def text (t : Time) : String :=
  padded 2 t.hour ++ ":" ++ padded 2 t.minute ++ ":" ++ padded 2 t.second ++
    fractionText t.nanosecond

/-- A fraction of a second; digits after the ninth do not count. -/
def readFraction : List Char → Option (Nat × List Char)
  | '.' :: s =>
    match Text.spanDigits s with
    | ([], _) => none
    | (ds, rest) => some (Text.natOfDigits 10 ((ds ++ List.replicate 9 0).take 9), rest)
  | s => some (0, s)

/-- The time of day that a text begins with. A minute may have a leap second. -/
def read (s : List Char) : Option (Time × List Char) := do
  let (hour, ':' :: s) ← fixedDigits 10 2 s | none
  let (minute, ':' :: s) ← fixedDigits 10 2 s | none
  let (second, s) ← fixedDigits 10 2 s
  let (nanosecond, s) ← readFraction s
  if hour ≤ 23 && minute ≤ 59 && second ≤ 60 then
    return (⟨hour, minute, second, nanosecond⟩, s)
  else none

end Time

namespace Offset

def text : Offset → String
  | .zulu => "Z"
  | .shifted n =>
    (if n < 0 then "-" else "+") ++ padded 2 (n.natAbs / 60) ++ ":" ++ padded 2 (n.natAbs % 60)

/-- The hours and minutes of an offset, in minutes. -/
def readMinutes (s : List Char) : Option (Nat × Nat × List Char) := do
  let (hours, ':' :: s) ← fixedDigits 10 2 s | none
  let (minutes, s) ← fixedDigits 10 2 s
  return (hours, minutes, s)

/-- The offset that a text begins with. -/
def read : List Char → Option (Offset × List Char)
  | [] => none
  | c :: s =>
    if c = 'Z' || c = 'z' then some (.zulu, s)
    else if c = '+' || c = '-' then do
      let (hours, minutes, s) ← readMinutes s
      let n : Int := hours * 60 + minutes
      if hours ≤ 23 && minutes ≤ 59 then return (.shifted (if c = '-' then -n else n), s) else none
    else none

end Offset

namespace DateTime

def text (d : DateTime) : String :=
  let date := (d.date.map Date.text).getD ""
  let mark := if d.date.isSome && d.time.isSome then "T" else ""
  date ++ mark ++ (d.time.map Time.text).getD "" ++ (d.offset.map Offset.text).getD ""

/-- Whether a character may stand between a date and a time. -/
def isMark (c : Char) : Bool := c = 'T' || c = 't' || c = ' '

/-- An offset after a time, if there is one. A sign that starts no offset is refused. -/
def readOffset (s : List Char) : Option (Option Offset × List Char) :=
  match s with
  | c :: _ =>
    if c = 'Z' || c = 'z' || c = '+' || c = '-' then
      (Offset.read s).map fun (o, rest) => (some o, rest)
    else some (none, s)
  | [] => some (none, [])

def readAfterDate (date : Date) (s : List Char) : Option (DateTime × List Char) :=
  match s with
  | c :: rest =>
    if isMark c then
      match Time.read rest with
      | some (time, rest) => do
        let (offset, rest) ← readOffset rest
        return (⟨date, time, offset⟩, rest)
      | none => some ({ date }, s)
    else some ({ date }, s)
  | [] => some ({ date }, [])

/-- The date, the time, or both, that a text begins with. -/
def read (s : List Char) : Option (DateTime × List Char) :=
  match Date.read s with
  | some (date, rest) => readAfterDate date rest
  | none => (Time.read s).map fun (time, rest) => ({ time }, rest)

/-- The date and time that a whole text is. -/
def ofText? (s : String) : Option DateTime :=
  match read s.toList with
  | some (d, []) => some d
  | _ => none

end DateTime

end LintRun.Toml
