import LintRun.Command.Machine
import LintRun.Command.Numeral

/-! Conditions on texts, numbers and files.

    What an operand is depends on what follows it, and for three or four operands on how many there
    are. A condition is worked out while it is read, to its end.

    No result rests on this module. -/

namespace LintRun.Command.Shell.Test

/-- What an operator takes: one operand, two operands, or conditions. -/
inductive Kind where
  | one
  | two
  | joining
  deriving Repr, DecidableEq

def kindOf? (word : Octets) : Option Kind :=
  match word with
  | ['-', c] =>
    if "rwxefdcbpugkstznhLOGS".toList.contains c then some .one
    else if c = 'a' || c = 'o' then some .joining
    else none
  | ['-', c, d] =>
    let two := [('e', 'q'), ('n', 'e'), ('g', 'e'), ('g', 't'), ('l', 'e'), ('l', 't'), ('n', 't'),
      ('o', 't'), ('e', 'f')]
    if two.contains (c, d) then some .two else none
  | ['='] | ['!', '='] | ['<'] | ['>'] => some .two
  | ['!'] | ['('] | [')'] => some .joining
  | _ => none

/-- A file system and the files that a condition asks about. -/
def fileTest (t : FileTree) (letter : Char) (name : Octets) : Bool :=
  let path : Path := ⟨Octets.toText name⟩
  let isDevice := (devices.lookup path.text).isSome
  match letter with
  | 'e' | 'r' | 'w' | 'O' | 'G' => isDevice || t.holds path
  | 'x' | 'd' => t.isDirectory path
  | 'f' => t.isFile path
  | 'c' => isDevice
  | 's' =>
    match t.stat path with
    | .ok (.file bytes) => !bytes.isEmpty
    | .ok .directory => true
    | .error _ => false
  | _ => false

/-- What working out a condition gives: its truth and the words from the last operand on. -/
abbrev Result := Except Octets (Bool × List Octets)

/-- What the next word is: nothing, an operator, or an operand. -/
inductive Role where
  | finish
  | operator (word : Octets) (kind : Kind)
  | operand
  deriving Repr, DecidableEq

/-- Whether an operator of one operand stands for an operand itself, by the words behind it. -/
def isOperand (after : List Octets) : Bool :=
  match after with
  | [] => true
  | [_] => false
  | word :: _ => kindOf? word = some .two

/-- What the first of some words is. -/
def roleOf : List Octets → Role
  | [] => .finish
  | word :: after =>
    match kindOf? word with
    | none => .operand
    | some kind =>
      if kind = .one && isOperand after then .operand
      else if word = ['('] && after.isEmpty then .operand
      else .operator word kind

def wrong {α : Type} (word : Octets) (text : String) : Except Octets α :=
  .error (if word = [] then Octets.ofString text else word ++ Octets.ofString s!": {text}")

/-- The number that an operand writes. -/
def numberOf (word : Octets) : Except Octets Int :=
  match Numeral.whole? false word with
  | some n => .ok n
  | none => .error (Octets.ofString "Illegal number: " ++ word)

/-- The truth of an operator of one operand. -/
def unary (t : FileTree) (op operand : Octets) : Except Octets Bool :=
  match op with
  | ['-', 'z'] => .ok (operand = [])
  | ['-', 'n'] => .ok (operand ≠ [])
  | ['-', 't'] => (numberOf operand).map fun _ => false
  | ['-', letter] => .ok (fileTest t letter operand)
  | _ => .ok false

/-- The truth of an operator of two operands. -/
def binary (t : FileTree) (a op b : Octets) : Except Octets Bool := do
  let compare := fun (f : Int → Int → Bool) => do return f (← numberOf a) (← numberOf b)
  match String.ofList op with
  | "=" => return a = b
  | "!=" => return a ≠ b
  | "<" => return a < b
  | ">" => return b < a
  | "-eq" => compare (· = ·)
  | "-ne" => compare (· ≠ ·)
  | "-gt" => compare (· > ·)
  | "-ge" => compare (· ≥ ·)
  | "-lt" => compare (· < ·)
  | "-le" => compare (· ≤ ·)
  | "-ef" =>
    let place := fun (name : Octets) => (t.resolve ⟨Octets.toText name⟩).toOption
    return (place a).isSome && place a = place b
  | _ => return false

mutual
/-- Conditions of which one has to hold. The first argument bounds the parts of all that follows. -/
def anyOf (t : FileTree) : Nat → List Octets → Result
  | 0, words => .ok (false, words)
  | fuel + 1, words => do
    let (left, words) ← allOf t fuel words
    match words.drop 1 with
    | ['-', 'o'] :: rest => do
      let (right, words) ← anyOf t fuel rest
      return (left || right, words)
    | _ => return (left, words)

/-- Conditions of which all have to hold. -/
def allOf (t : FileTree) : Nat → List Octets → Result
  | 0, words => .ok (false, words)
  | fuel + 1, words => do
    let (left, words) ← negation t fuel (roleOf words) words
    match words.drop 1 with
    | ['-', 'a'] :: rest => do
      let (right, words) ← allOf t fuel rest
      return (left && right, words)
    | _ => return (left, words)

/-- A condition that may be turned round. -/
def negation (t : FileTree) : Nat → Role → List Octets → Result
  | 0, _, words => .ok (false, words)
  | fuel + 1, role, words =>
    if role = .operator ['!'] .joining then do
      let (holds, words) ← match words.drop 1 with
        | [] => negation t fuel .finish words
        | rest => negation t fuel (roleOf rest) rest
      return (!holds, words)
    else primary t fuel role words

/-- A condition by itself, of which the first word has some role. -/
def primary (t : FileTree) : Nat → Role → List Octets → Result
  | 0, _, words => .ok (false, words)
  | fuel + 1, role, words =>
    match role, words with
    | .finish, words => .ok (false, words)
    | .operator ['('] _, _ :: rest =>
      if roleOf rest = .operator [')'] .joining then .ok (false, rest)
      else do
        let (holds, words) ← anyOf t fuel rest
        match words.drop 1 with
        | [')'] :: after => return (holds, [')'] :: after)
        | _ => wrong [] "closing paren expected"
    | .operator op .one, _ :: rest =>
      match rest with
      | [] => wrong op "argument expected"
      | operand :: _ => do return (← unary t op operand, rest)
    | _, a :: op :: rest =>
      if kindOf? op = some .two then
        match rest with
        | [] => wrong op "argument expected"
        | b :: _ => do return (← binary t a op b, rest)
      else .ok (a ≠ [], a :: op :: rest)
    | _, a :: rest => .ok (a ≠ [], a :: rest)
    | _, [] => .ok (false, [])
end

/-- The truth of all words as one condition. -/
def whole (t : FileTree) (first : Role) (words : List Octets) : Except Octets Bool := do
  let fuel := 6 * words.length + 6
  let (holds, rest) ← if first = .operand then fromOperand fuel else anyOf t fuel words
  match rest with
  | last :: _ :: _ => wrong last "unexpected operator"
  | _ => return holds
where
  /-- The truth of words of which the first is an operand in any case. -/
  fromOperand (fuel : Nat) : Result := do
    match words with
    | [a, op, b] => return (← binary t a op b, [b])
    | words => anyOf t fuel words

/-- The truth of some words. A bracket or a mark of negation around three or four words counts
    first. -/
def holdsWithin (t : FileTree) : Nat → List Octets → Except Octets Bool
  | 0, _ => .ok false
  | fuel + 1, words =>
    match words with
    | [] => .ok false
    | [_, op, _] =>
      if kindOf? op = some .two then whole t .operand words else grouped fuel words
    | [_, _, _, _] => grouped fuel words
    | words => whole t .finish words
where
  /-- The truth of three or four words. -/
  grouped (fuel : Nat) (words : List Octets) : Except Octets Bool :=
    if words.head? = some ['('] && words.getLast? = some [')'] then
      whole t .finish (words.drop 1).dropLast
    else if words.head? = some ['!'] then (holdsWithin t fuel (words.drop 1)).map (! ·)
    else whole t .finish words

def holds (t : FileTree) (words : List Octets) : Except Octets Bool := holdsWithin t 8 words

end LintRun.Command.Shell.Test
