import LintRun.Command.Numeral
import LintRun.Command.Shell.Script

/-! Arithmetic of a shell: expressions over integers of 64 bits, variables and assignments.

    An expression is worked out while it is read. What need not be worked out, such as the second
    operand of a disjunction whose first one holds, is only read.

    No result rests on this module. -/

namespace LintRun.Command.Shell.Arithmetic

/-- A word or mark of an expression. -/
inductive Token where
  | number (n : Int)
  | name (s : String)
  | mark (s : String)
  | stray
  deriving Repr, DecidableEq

def marks : List String :=
  ["<<=", ">>=", "&&", "||", "<=", ">=", "==", "!=", "<<", ">>", "+=", "-=", "*=", "/=", "%=", "&=",
    "^=", "|=", "+", "-", "*", "/", "%", "<", ">", "=", "!", "~", "&", "|", "^", "?", ":", "(", ")"]

/-- The words and marks of an expression. The first argument bounds their number. -/
def tokens : Nat → Octets → List Token
  | 0, _ => []
  | _ + 1, [] => []
  | fuel + 1, c :: s =>
    if Numeral.isSpace c then tokens fuel s
    else if c.isDigit then
      match Numeral.find? true (c :: s) with
      | some f => .number f.toInt :: tokens fuel f.rest
      | none => [.stray]
    else if beginsName c then
      let (name, rest) := (c :: s).span continuesName
      .name (String.ofList name) :: tokens fuel rest
    else match marks.find? fun m => m.toList.isPrefixOf (c :: s) with
      | some m => .mark m :: tokens fuel ((c :: s).drop m.length)
      | none => [.stray]

/-- Why an expression has no value. -/
inductive Failure where
  | malformed (text : String)
  | illegalNumber (value : Octets)
  | readOnly (name : String)
  deriving Repr, DecidableEq

/-- What is left of an expression, and the values of the variables it may use and has assigned. -/
structure State where
  rest : List Token
  assigned : List (String × Int) := []

/-- The variables of a shell as an expression sees them. -/
structure Variables where
  value : String → Option Octets
  isReadOnly : String → Bool

abbrev Work := StateT State (Except Failure)

/-- Fails for the form of the expression. -/
def malformed {α : Type} (text : String) : Work α := throw (.malformed text)

/-- The next token, which is not taken. -/
def peek : Work (Option Token) := do return (← get).rest.head?

def advance : Work Unit := modify fun s => { s with rest := s.rest.drop 1 }

/-- The value of a variable; one that is not set counts as zero. -/
def valueOf (vars : Variables) (name : String) : Work Int := do
  match (← get).assigned.lookup name with
  | some n => return n
  | none =>
    match vars.value name with
    | none => return 0
    | some text =>
      if text.all Numeral.isSpace then return 0
      else match Numeral.whole? true text with
        | some n => return n
        | none => throw (.illegalNumber text)

def assign (vars : Variables) (name : String) (n : Int) : Work Int := do
  if vars.isReadOnly name then throw (.readOnly name)
  modify fun s => { s with assigned := (name, n) :: s.assigned }
  return n

/-- The truth of a comparison as a number. -/
def truth (b : Bool) : Int := if b then 1 else 0

/-- An operation on the bits of two integers. -/
def bitwise (f : BitVec 64 → BitVec 64 → BitVec 64) (a b : Int) : Int :=
  (f (BitVec.ofInt 64 a) (BitVec.ofInt 64 b)).toInt

/-- The operators of two operands, and how closely they bind: a lower level binds closer. -/
def levels : List (String × Nat) :=
  [("*", 0), ("/", 0), ("%", 0), ("+", 1), ("-", 1), ("<<", 2), (">>", 2), ("<", 3), ("<=", 3),
    (">", 3), (">=", 3), ("==", 4), ("!=", 4), ("&", 5), ("^", 6), ("|", 7)]

def operate (op : String) (a b : Int) : Work Int :=
  match op with
  | "*" => return Numeral.wrap (a * b)
  | "/" => if b = 0 then malformed "division by zero" else return Numeral.wrap (Int.tdiv a b)
  | "%" => if b = 0 then malformed "division by zero" else return Int.tmod a b
  | "+" => return Numeral.wrap (a + b)
  | "-" => return Numeral.wrap (a - b)
  | "<<" => return ((BitVec.ofInt 64 a) <<< (b % 64).toNat).toInt
  | ">>" => return ((BitVec.ofInt 64 a).sshiftRight (b % 64).toNat).toInt
  | "<" => return truth (a < b)
  | "<=" => return truth (a ≤ b)
  | ">" => return truth (a > b)
  | ">=" => return truth (a ≥ b)
  | "==" => return truth (a = b)
  | "!=" => return truth (a ≠ b)
  | "&" => return bitwise (· &&& ·) a b
  | "^" => return bitwise (· ^^^ ·) a b
  | _ => return bitwise (· ||| ·) a b

/-- The operator of an assignment with an operation. -/
def compound : List (String × String) :=
  [("*=", "*"), ("/=", "/"), ("%=", "%"), ("+=", "+"), ("-=", "-"), ("<<=", "<<"), (">>=", ">>"),
    ("&=", "&"), ("^=", "^"), ("|=", "|")]

mutual
/-- An assignment or a choice. The first argument bounds the parts of all that follows; `skip` has
    an expression only read. -/
def assignment (vars : Variables) : Nat → (skip : Bool) → Work Int
  | 0, _ => malformed "expression too long"
  | fuel + 1, skip => do
    match (← get).rest with
    | .name name :: .mark op :: _ =>
      if op = "=" then do
        advance
        advance
        let n ← assignment vars fuel skip
        if skip then return n else assign vars name n
      else match compound.lookup op with
        | some op => do
          advance
          advance
          let n ← assignment vars fuel skip
          if skip then return n
          else do
            let old ← valueOf vars name
            assign vars name (← operate op old n)
        | none => choice vars fuel skip
    | _ => choice vars fuel skip

def choice (vars : Variables) : Nat → (skip : Bool) → Work Int
  | 0, _ => malformed "expression too long"
  | fuel + 1, skip => do
    let condition ← disjunction vars fuel skip
    match ← peek with
    | some (.mark "?") => do
      advance
      let yes ← assignment vars fuel (skip || condition = 0)
      match ← peek with
      | some (.mark ":") => do
        advance
        let no ← choice vars fuel (skip || condition ≠ 0)
        return if condition ≠ 0 then yes else no
      | _ => malformed "expecting ':'"
    | _ => return condition

def disjunction (vars : Variables) : Nat → (skip : Bool) → Work Int
  | 0, _ => malformed "expression too long"
  | fuel + 1, skip => do
    let left ← conjunction vars fuel skip
    match ← peek with
    | some (.mark "||") => do
      advance
      let right ← disjunction vars fuel (skip || left ≠ 0)
      return truth (left ≠ 0 || right ≠ 0)
    | _ => return left

def conjunction (vars : Variables) : Nat → (skip : Bool) → Work Int
  | 0, _ => malformed "expression too long"
  | fuel + 1, skip => do
    let first ← operand vars fuel skip
    let left ← operation vars fuel skip 7 first
    match ← peek with
    | some (.mark "&&") => do
      advance
      let right ← conjunction vars fuel (skip || left = 0)
      return truth (left ≠ 0 && right ≠ 0)
    | _ => return left

/-- The operations of a level, or of closer ones, on a first operand. -/
def operation (vars : Variables) : Nat → (skip : Bool) → (level : Nat) → Int → Work Int
  | 0, _, _, _ => malformed "expression too long"
  | fuel + 1, skip, level, left => do
    match ← peek with
    | some (.mark op) =>
      match levels.lookup op with
      | some here =>
        if level < here then return left
        else do
          advance
          let first ← operand vars fuel skip
          let right ← if here = 0 then pure first else operation vars fuel skip (here - 1) first
          let value ← if skip then pure right else operate op left right
          operation vars fuel skip level value
      | none => return left
    | _ => return left

/-- An operand with the signs before it. -/
def operand (vars : Variables) : Nat → (skip : Bool) → Work Int
  | 0, _ => malformed "expression too long"
  | fuel + 1, skip => do
    match ← peek with
    | some (.mark "(") => do
      advance
      let n ← assignment vars fuel skip
      match ← peek with
      | some (.mark ")") => do
        advance
        return n
      | _ => malformed "expecting ')'"
    | some (.number n) => do
      advance
      return n
    | some (.name name) => do
      advance
      if skip then return 0 else valueOf vars name
    | some (.mark "+") => do
      advance
      operand vars fuel skip
    | some (.mark "-") => do
      advance
      return Numeral.wrap (-(← operand vars fuel skip))
    | some (.mark "!") => do
      advance
      return truth ((← operand vars fuel skip) = 0)
    | some (.mark "~") => do
      advance
      return -(← operand vars fuel skip) - 1
    | _ => malformed "expecting primary"
end

/-- The value of an expression, and the variables that it has assigned, last first. -/
def value (vars : Variables) (s : Octets) : Except Failure (Int × List (String × Int)) := do
  let words := tokens (s.length + 1) s
  let (n, state) ← (assignment vars (12 * words.length + 12) false).run { rest := words }
  if state.rest.isEmpty then return (n, state.assigned) else throw (.malformed "expecting EOF")

end LintRun.Command.Shell.Arithmetic
