import LintRun.Decimal.Layout
import LintRun.Json.Value

/-! The compact text of a JSON value: no blanks, and in strings only what must be escaped is. -/

namespace LintRun.Json

/-- Floats are written in positions from 10^-5 up to below 10^16. -/
def floatLayout : Decimal.Layout := ⟨-5, 16⟩

/-- The two lower case hexadecimal digits of a number below 256. -/
def hexPair (n : Nat) : List Char := [Nat.digitChar (n / 16), Nat.digitChar (n % 16)]

/-- A character inside a quoted text. The quote, the backslash and the control characters are
    escaped, five of these by a letter. -/
def escapeChar (c : Char) : List Char :=
  if c = '"' then ['\\', '"']
  else if c = '\\' then ['\\', '\\']
  else if c = '\x08' then ['\\', 'b']
  else if c = '\t' then ['\\', 't']
  else if c = '\n' then ['\\', 'n']
  else if c = '\x0c' then ['\\', 'f']
  else if c = '\r' then ['\\', 'r']
  else if c.toNat < 0x20 then '\\' :: 'u' :: '0' :: '0' :: hexPair c.toNat
  else [c]

def quote (s : String) : String :=
  String.ofList ('"' :: s.toList.flatMap escapeChar ++ ['"'])

mutual
/-- The compact text of a value. -/
def Value.print : Value → String
  | .null => "null"
  | .bool true => "true"
  | .bool false => "false"
  | .integer n => toString n
  | .float x => floatLayout.writeFloat x
  | .string s => quote s
  | .array items => "[" ++ Value.printItems items ++ "]"
  | .object fields => "\x7b" ++ Value.printFields fields ++ "\x7d"

def Value.printItems : List Value → String
  | [] => ""
  | [v] => v.print
  | v :: w :: rest => v.print ++ "," ++ Value.printItems (w :: rest)

def Value.printFields : List (String × Value) → String
  | [] => ""
  | [(name, v)] => quote name ++ ":" ++ v.print
  | (name, v) :: next :: rest =>
    quote name ++ ":" ++ v.print ++ "," ++ Value.printFields (next :: rest)
end

end LintRun.Json
