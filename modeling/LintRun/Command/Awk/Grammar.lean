import LintRun.Command.Awk.Tokens

/-! Expressions of a program.

    From the loosest to the tightest: assignment, choice, `||`, `&&`, `in`, matching, comparison,
    joining, sums, products, signs and negation, reading from commands, powers, and steps.

    No result rests on this module. -/

namespace LintRun.Command.Awk.Reader

/-- The operators of expressions that a mark or word stands for, with how tight they are. -/
inductive Infix where
  | either
  | both
  | member
  | matches (negated : Bool)
  | compare (op : Comparison)
  deriving Repr, DecidableEq

def Infix.level : Infix → Nat
  | .either => 1
  | .both => 2
  | .member => 3
  | .matches _ => 4
  | .compare _ => 5

/-- The operators that marks stand for. -/
def infixes : List (String × Infix) :=
  [("||", .either), ("&&", .both), ("~", .matches false), ("!~", .matches true),
    ("<", .compare .less), ("<=", .compare .atMost), ("==", .compare .equal),
    ("!=", .compare .differ), (">", .compare .more), (">=", .compare .atLeast)]

/-- The operator that a token stands for. -/
def infixOf : Token → Option Infix
  | .mark m => infixes.lookup m
  | .word w => if w = "in" then some .member else none
  | _ => none

/-- The assignments that marks stand for, with what is done to the old value. -/
def assignments : List (String × Option Arithmetic) :=
  [("=", none), ("+=", some .add), ("-=", some .sub), ("*=", some .mul), ("/=", some .div),
    ("%=", some .mod), ("^=", some .pow)]

/-- The assignment that a token stands for. -/
def assignmentOf : Token → Option (Option Arithmetic)
  | .mark m => assignments.lookup m
  | _ => none

/-- The sums or products that marks stand for. -/
def arithmeticOf (marks : List (String × Arithmetic)) : Token → Option Arithmetic
  | .mark m => marks.lookup m
  | _ => none

def sums : List (String × Arithmetic) := [("+", .add), ("-", .sub)]

def products : List (String × Arithmetic) := [("*", .mul), ("/", .div), ("%", .mod)]

/-- Whether a value begins with a token, so that it is joined to the value before it. -/
def beginsValue : Token → Bool
  | .number .. | .text _ | .regex .. | .name _ | .called _ | .builtin _ | .field _ | .count => true
  | .word w => w = "getline" || w = "length"
  | .mark m => m = "(" || m = "$" || m = "!" || m = "-" || m = "+" || m = "++" || m = "--"
  | _ => false

/-- Whether something that can be assigned to begins with a token. -/
def beginsPlace : Token → Bool
  | .name _ | .field _ | .count => true
  | .mark m => m = "(" || m = "$"
  | _ => false

/-- The step that a token stands for. -/
def stepOf (t : Token) : Option Float :=
  if t.isMark "++" then some 1 else if t.isMark "--" then some (-1) else none

/-- The variable of the number of fields. -/
def fieldCount : Expr := .variable (.shared "NF")

/-- An expression with a mark that tells whether it is a place that can be assigned to. -/
abbrev Operand := Expr × Bool

/-- A pattern: a text that is known is read as a regular expression at once. -/
def patternOf (e : Expr) : Reader Expr := do
  match e with
  | .text s => return .regex s (← regexOf s)
  | e => return e

/-- A separator: a text that is known and longer than a character is read as a regular expression at
    once. -/
def separatorOf (e : Expr) : Reader Expr := do
  match e with
  | .text (_ :: _ :: _) => patternOf e
  | e => return e

/-- How many arguments a function takes. -/
def arity : Function → Nat × Nat
  | .length | .srand | .fflush => (0, 1)
  | .index | .atan2 => (2, 2)
  | .substr => (2, 3)
  | .sprintf => (1, 255)
  | .rand => (0, 0)
  | _ => (1, 1)

/-- A call of a function that takes only values. -/
def callOf (name : String) (arguments : List Expr) : Reader Expr := do
  let f := (functionNames.lookup name).getD .length
  let (least, most) := arity f
  if arguments.length < least || most < arguments.length then
    complain s!"wrong number of arguments in call to {name}"
  match f, arguments with
  | .length, [.variable v] => return .size v
  | f, arguments => return .builtin f arguments

/-- The name that an argument consists of, which may be that of an array. -/
def passed? : Expr → Option Name
  | .variable n => if n = .shared "NF" then none else some n
  | _ => none

/-- What is known of an argument. -/
def givenOf (e : Expr) : Given :=
  match passed? e with
  | some n => .named n
  | none => .known .variable

/-- Whether a call has more arguments than a function has parameters, which is told. -/
def hasTooMany (c : Calling) (d : Definition) : Reader Bool := do
  if d.parameters.length < c.arguments.length then
    complainAt c.line (Octets.ofString s!"too many arguments in call to {c.function}")
    return true
  return false

/-- Keeps a call until more is known. -/
def keepCalling (c : Calling) : Reader Unit := modify fun s => { s with callings := c :: s.callings }

/-- Notes what a call of a function that is not defined yet tells of its first parameter of which it
    tells anything. -/
def noteHint (c : Calling) : Reader Unit := do
  let kinds ← c.arguments.reverse.mapM fun (given, i) => do
    return (← kindOfGiven c.owner given).map fun kind => (i, kind)
  match kinds.findSome? id with
  | none => pure ()
  | some hint => modify fun s => { s with hints := (c.function, hint) :: s.hints }

/-- Notes that a function is called with some arguments, which are compared with its parameters, the
    last one first. -/
def noteCall (name : String) (arguments : List Expr) : Reader Unit := do
  let s ← get
  let given := (arguments.map givenOf).zipIdx.reverse
  let c : Calling := ⟨s.tokenLine, name, given, s.owner, false⟩
  match s.functions.find? (·.name = name) with
  | none =>
    noteHint c
    keepCalling c
  | some d =>
    if !(← hasTooMany c d) then
      let waiting ← compareArguments c
      if waiting ≠ [] then keepCalling { c with arguments := waiting, counted := true }

def arrayName : Reader Name := do
  match ← peek with
  | .name name =>
    let _ ← take
    resolve name (some .array)
  | _ => fail

mutual
/-- An expression. The first argument of each of these bounds the depth. -/
def expression : Nat → Reader Expr
  | 0 => fail
  | fuel + 1 => do
    let condition ← infixed fuel 1
    if ← takeMark "?" then
      let yes ← expression fuel
      expect ":"
      let no ← expression fuel
      return .choose condition yes no
    else return condition

/-- An expression whose operators are at least as tight as a level. -/
def infixed : Nat → Nat → Reader Expr
  | 0, _ => fail
  | fuel + 1, level => do
    let left ← assigned fuel
    infixedAfter fuel level left

/-- What follows an expression, with operators that are at least as tight as a level. -/
def infixedAfter : Nat → Nat → Expr → Reader Expr
  | 0, _, left => return left
  | fuel + 1, level, left => do
    match infixOf (← peek) with
    | none => return left
    | some op =>
      if op.level < level then return left
      let _ ← take
      match op with
      | .member => infixedAfter fuel level (.member left (← arrayName))
      | .matches negated =>
        let right ← patternOf (← infixed fuel (op.level + 1))
        let e := Expr.matches left right
        infixedAfter fuel level (if negated then .not e else e)
      | op =>
        let right ← infixed fuel (op.level + 1)
        infixedAfter fuel level (match op with
          | .either => .either left right
          | .both => .both left right
          | .compare c => .compare c left right
          | _ => left)

def assigned : Nat → Reader Expr
  | 0 => fail
  | fuel + 1 => do
    let (left, isPlace) ← joined fuel
    let t ← peek
    match if isPlace then assignmentOf t else none with
    | none => return left
    | some op =>
      let _ ← take
      let value ← expression fuel
      return match op with
        | none => .assign left value
        | some op => .update op left value

def joined : Nat → Reader Operand
  | 0 => fail
  | fuel + 1 => do
    let first ← sum fuel
    if beginsValue (← peek) then return (← joinedAfter fuel first.1, false)
    return first

/-- Values that are joined to another one. -/
def joinedAfter : Nat → Expr → Reader Expr
  | 0, left => return left
  | fuel + 1, left => do
    if beginsValue (← peek) then
      let (right, _) ← sum fuel
      joinedAfter fuel (.join left right)
    else return left

def sum : Nat → Reader Operand
  | 0 => fail
  | fuel + 1 => do
    let first ← product fuel
    sumAfter fuel first

/-- What is added to a value. -/
def sumAfter : Nat → Operand → Reader Operand
  | 0, left => return left
  | fuel + 1, left => do
    match arithmeticOf sums (← peek) with
    | none => return left
    | some op =>
      let _ ← take
      let (right, _) ← product fuel
      sumAfter fuel (.arithmetic op left.1 right, false)

def product : Nat → Reader Operand
  | 0 => fail
  | fuel + 1 => do
    let first ← signed fuel
    productAfter fuel first

/-- What a value is multiplied by. -/
def productAfter : Nat → Operand → Reader Operand
  | 0, left => return left
  | fuel + 1, left => do
    match arithmeticOf products (← peek) with
    | none => return left
    | some op =>
      let _ ← take
      let (right, _) ← signed fuel
      productAfter fuel (.arithmetic op left.1 right, false)

def signed : Nat → Reader Operand
  | 0 => fail
  | fuel + 1 => do
    let t ← peek
    if t.isMark "!" then
      let _ ← take
      return (.not (← signed fuel).1, false)
    else if t.isMark "-" then
      let _ ← take
      return (.negative (← signed fuel).1, false)
    else if t.isMark "+" then
      let _ ← take
      return (.positive (← signed fuel).1, false)
    else
      let first ← power fuel
      piped fuel first

/-- What is read from the command that a value names. -/
def piped : Nat → Operand → Reader Operand
  | 0, left => return left
  | fuel + 1, left => do
    if ← takeMark "|" then
      expectWord "getline"
      let target ← place? fuel
      piped fuel (.readLine (.command left.1) target, false)
    else return left

def power : Nat → Reader Operand
  | 0 => fail
  | fuel + 1 => do
    let base ← stepped fuel
    if ← takeMark "^" then
      let t ← peek
      let exponent ← if t.isMark "!" || t.isMark "-" || t.isMark "+" then signed fuel else power fuel
      return (.arithmetic .pow base.1 exponent.1, false)
    else return base

/-- A place with a step before or after it, or another value. -/
def stepped : Nat → Reader Operand
  | 0 => fail
  | fuel + 1 => do
    match stepOf (← peek) with
    | some amount =>
      let _ ← take
      let t ← peek
      if !(beginsPlace t) then fail
      let (target, isPlace) ← value fuel
      if !isPlace then fail
      return (.step amount false target, false)
    | none =>
      let (target, isPlace) ← value fuel
      let t ← peek
      match if isPlace then stepOf t else none with
      | some amount =>
        let _ ← take
        return (.step amount true target, false)
      | none => return (target, isPlace)

/-- What a name stands for that was taken: a variable, or an element of an array. -/
def named : Nat → String → Reader Expr
  | 0, _ => fail
  | fuel + 1, name => do
    if ← takeMark "[" then
      let array ← resolve name (some .array)
      let index ← expressions fuel
      expect "]"
      return .element array index
    else return .variable (← resolve name (some .variable))

/-- The number of a field after its dollar sign, as a field. Even a plain number is worked out then. -/
def fieldAfter : Nat → Reader Expr
  | 0 => fail
  | fuel + 1 => do
    match ← peek with
    | .name name =>
      let _ ← take
      return .field (← named fuel name)
    | t =>
      let isSign := t.isMark "!" || t.isMark "-" || t.isMark "+"
      let (index, _) ← if isSign then signed fuel else stepped fuel
      return .field (match index with
        | .number _ => .positive index
        | _ => index)

/-- A place that can be assigned to, if one comes next. -/
def place? : Nat → Reader (Option Expr)
  | 0 => fail
  | fuel + 1 => do
    match ← peek with
    | .name name =>
      let _ ← take
      return some (← named fuel name)
    | .field n =>
      let _ ← take
      return some (.field (.number n))
    | .count =>
      let _ ← take
      return some fieldCount
    | .mark "$" =>
      let _ ← take
      return some (← fieldAfter fuel)
    | _ => return none

def expressions : Nat → Reader (List Expr)
  | 0 => fail
  | fuel + 1 => do
    let first ← expression fuel
    if ← takeMark "," then return first :: (← expressions fuel)
    return [first]

/-- Expressions up to a closing parenthesis; there may be none. -/
def argumentsUpTo : Nat → Reader (List Expr)
  | 0 => fail
  | fuel + 1 => do
    if ← takeMark ")" then return []
    let all ← expressions fuel
    expect ")"
    return all

/-- An argument of a function of the program. A name alone may stand for an array. -/
def givenArgument : Nat → Reader Expr
  | 0 => fail
  | fuel + 1 => do
    match ← peek with
    | .name name =>
      let before ← get
      let _ ← take
      let t ← peek
      if t.isMark "," || t.isMark ")" then return .variable (← resolve name none)
      set before
      expression fuel
    | _ => expression fuel

/-- Arguments of which names may stand for arrays, with commas between them. -/
def givenList : Nat → Reader (List Expr)
  | 0 => fail
  | fuel + 1 => do
    let first ← givenArgument fuel
    if ← takeMark "," then return first :: (← givenList fuel)
    return [first]

/-- Arguments of which names may stand for arrays, up to a closing parenthesis; there may be none. -/
def givenArguments : Nat → Reader (List Expr)
  | 0 => fail
  | fuel + 1 => do
    if ← takeMark ")" then return []
    let all ← givenList fuel
    expect ")"
    return all

/-- A call of a function that takes more than values, after its name. -/
def formCall : Nat → String → Reader Expr
  | 0, _ => fail
  | fuel + 1, name => do
    expect "("
    let first ← expression fuel
    expect ","
    if name = "split" then
      let array ← arrayName
      let separator ← if ← takeMark "," then some <$> (separatorOf =<< expression fuel)
        else pure none
      expect ")"
      return .split first array separator
    else if name = "match" then
      let pattern ← patternOf (← expression fuel)
      expect ")"
      return .locate first pattern
    else
      let pattern ← patternOf first
      let replacement ← expression fuel
      let target ← if ← takeMark "," then
          match ← place? fuel with
          | some target => pure target
          | none => fail
        else pure (.field (.number 0))
      expect ")"
      return .substitute (name = "gsub") pattern replacement target

/-- An expression in parentheses, after the opening one. Several of them are the index of an array,
    or what is printed. -/
def grouped : Nat → Reader Operand
  | 0 => fail
  | fuel + 1 => do
    let s ← get
    if s.printing && s.parens = 1 && (← takeMark ")") then return (.list [], false)
    let first ← expression fuel
    if ← takeMark "," then
      let all := first :: (← expressions fuel)
      expect ")"
      match ← peek with
      | .word "in" => return (.list all, false)
      | .semicolon _ | .newline | .outlet _ => return (.list all, false)
      | _ => fail
    else
      expect ")"
      let isPlace := match first with
        | .field _ | .variable (.shared "NF") => true
        | _ => false
      return (first, isPlace)

/-- What is read from a file or from the input, after the word for it. -/
def gotten : Nat → Reader Expr
  | 0 => fail
  | fuel + 1 => do
    modify fun s => { s with getting := true }
    let target ← place? fuel
    match ← peek with
    | .intake =>
      let _ ← take
      let t ← peek
      let isSign := t.isMark "!" || t.isMark "-" || t.isMark "+"
      let (name, _) ← if isSign then signed fuel else power fuel
      return .readLine (.file name) target
    | _ =>
      modify fun s => { s with getting := false }
      return .readLine .main target

def value : Nat → Reader Operand
  | 0 => fail
  | fuel + 1 => do
    match ← place? fuel with
    | some e => return (e, true)
    | none =>
      match ← peek with
      | .number x _ =>
        let _ ← take
        return (.number x, false)
      | .text s =>
        let _ ← take
        return (.text s, false)
      | .regex spelled r =>
        let _ ← take
        return (.regex spelled r, false)
      | .called name =>
        let _ ← take
        expect "("
        let arguments ← givenArguments fuel
        noteCall name arguments
        return (.call name arguments, false)
      | .builtin name =>
        let _ ← take
        if formNames.contains name then return (← formCall fuel name, false)
        expect "("
        let arguments ← if name = "length" then givenArguments fuel else argumentsUpTo fuel
        return (← callOf name arguments, false)
      | .word "length" =>
        let _ ← take
        return (.builtin .length [], false)
      | .word "getline" =>
        let _ ← take
        return (← gotten fuel, false)
      | .mark "(" =>
        let _ ← take
        grouped fuel
      | _ => fail
end

/-- How deep expressions may be nested. -/
def nestingMax : Nat := 100000

end LintRun.Command.Awk.Reader
