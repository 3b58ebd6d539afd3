import LintRun.Command.Awk.Grammar

/-! Statements, rules and functions of a program. No result rests on this module. -/

namespace LintRun.Command.Awk

namespace Reader

/-- Takes the end of a statement. -/
def separator : Reader Unit := do
  if (← peek).isSeparator then
    let _ ← take
  else fail

def semicolon : Reader Unit := do
  match ← peek with
  | .semicolon _ =>
    let _ ← take
  | _ => fail

/-- Passes over the next token, which is read as part of no statement. -/
def discard : Reader Token := do
  let t ← peek
  modify fun s => { s with peeked := none }
  return t

/-- Passes over everything up to the end of the statement. The first argument bounds the tokens. -/
def recover : Nat → Reader Unit
  | 0 => throw .over
  | fuel + 1 => do
    match ← discard with
    | .finish => throw .over
    | t =>
      if t.isSeparator then
        modify fun s => { s with parens := 0, printing := false, getting := false, quiet := 0 }
      else recover fuel

/-- Reads something, or else what is to be read instead. -/
def orElse {α : Type} (first other : Reader α) : Reader α :=
  tryCatch first fun stop => do
    match stop with
    | .wrong => other
    | .over => throw .over

def anExpression : Reader Expr := expression nestingMax

def condition : Reader Expr := do
  expect "("
  let e ← anExpression
  expect ")"
  return e

/-- Tells of a statement that cannot stand where it does. -/
def demand (fits : Bool) (text : String) : Reader Unit := do
  if !fits then complain text

def printed : Reader (List Expr) := do
  match ← peek with
  | .outlet _ => return []
  | t =>
    if t.isSeparator then return []
    match ← expressions nestingMax with
    | [.list all] => return all
    | all =>
      let isList := fun e => match e with
        | Expr.list _ => true
        | _ => false
      if all.any isList then fail
      return all

def outlet? : Reader (Option (Outlet × Expr)) := do
  match ← peek with
  | .outlet o =>
    let _ ← take
    return some (o, ← anExpression)
  | _ => return none

/-- A statement that prints, after its word. -/
def printing (make : List Expr → Option (Outlet × Expr) → Stmt) : Reader Stmt := do
  modify fun s => { s with printing := true }
  let all ← printed
  let outlet ← outlet?
  separator
  modify fun s => { s with printing := false }
  return make all outlet

/-- A value before the end of a statement, if there is one. -/
def value? : Reader (Option Expr) := do
  if (← peek).isSeparator then return none
  return some (← anExpression)

/-- A statement of one word, after it. -/
def lone (s : Stmt) : Reader Stmt := do
  separator
  return s

/-- An expression up to a semicolon. -/
def clause? : Reader (Option Expr) := do
  match ← peek with
  | .semicolon _ =>
    let _ ← take
    return none
  | _ =>
    let e ← anExpression
    semicolon
    return some e

/-- Whether an expression is a name in an array. -/
def entry? : Expr → Option (Name × Name)
  | .member (.variable key) array => some (key, array)
  | _ => none

/-- The head of a loop over the entries of an array or with a counter, after its word; what is given
    makes the loop of its body. -/
def forHead : Reader (Stmt → Stmt) := do
  expect "("
  let first ← match ← peek with
    | .semicolon _ => pure none
    | _ => some <$> anExpression
  match first.bind entry? with
  | some (key, array) => if ← takeMark ")" then return .forEach key array
  | none => pure ()
  semicolon
  let condition ← clause?
  if ← takeMark ")" then return .forLoop first condition none
  let next ← anExpression
  expect ")"
  return .forLoop first condition (some next)

mutual
/-- A statement; if it is none, everything up to its end is passed over. The first argument bounds the
    depth. -/
def statement : Nat → Reader Stmt
  | 0 => throw .over
  | fuel + 1 => orElse (form fuel) (do
    recover ((← get).rest.length + 2)
    return .block [])

/-- The statements of a block up to its closing brace. -/
def statements : Nat → Reader (List Stmt)
  | 0 => throw .over
  | fuel + 1 => do
    if ← takeMark "\x7d" then return []
    let first ← statement fuel
    return first :: (← statements fuel)

def loopBody : Nat → Reader Stmt
  | 0 => throw .over
  | fuel + 1 => do
    modify fun s => { s with loops := s.loops + 1 }
    let body ← statement fuel
    modify fun s => { s with loops := s.loops - 1 }
    return body

def form : Nat → Reader Stmt
  | 0 => throw .over
  | fuel + 1 => do
    match ← peek with
    | .mark "\x7b" =>
      let _ ← take
      return .block (← statements fuel)
    | .semicolon _ | .newline =>
      let _ ← take
      return .block []
    | .word w =>
      if w = "if" then
        let _ ← take
        let test ← condition
        skipLines
        let yes ← statement fuel
        if ← atWord "else" then
          let _ ← take
          return .branch test yes (some (← statement fuel))
        return .branch test yes none
      else if w = "while" then
        let _ ← take
        let test ← condition
        skipLines
        return .loop test (← loopBody fuel)
      else if w = "do" then
        let _ ← take
        let body ← loopBody fuel
        expectWord "while"
        let test ← condition
        separator
        return .loopOnce body test
      else if w = "for" then
        let _ ← take
        let make ← forHead
        skipLines
        return make (← loopBody fuel)
      else if w = "print" then
        let _ ← take
        printing .print
      else if w = "printf" then
        let _ ← take
        let s ← printing .printf
        match s with
        | .printf [] _ => complain "no arguments in call to printf"
        | _ => pure ()
        return s
      else if w = "next" || w = "nextfile" then
        let _ ← take
        demand (← get).mayNext s!"improper use of {w}"
        lone (if w = "next" then .next else .nextFile)
      else if w = "break" || w = "continue" then
        let _ ← take
        demand (0 < (← get).loops) s!"{w} statement outside of loop"
        lone (if w = "break" then .break else .continue)
      else if w = "return" then
        let _ ← take
        demand (← get).parameters.isSome "return outside function body"
        let value ← value?
        separator
        return .return value
      else if w = "exit" then
        let _ ← take
        let status ← value?
        separator
        return .exit status
      else if w = "delete" then
        let _ ← take
        let array ← arrayName
        let index ← if ← takeMark "[" then
            let index ← expressions nestingMax
            expect "]"
            pure index
          else pure []
        separator
        return .delete array index
      else plain
    | _ => plain
where
  /-- A statement that is an expression. -/
  plain : Reader Stmt := do
    let e ← anExpression
    match e with
    | .list _ => fail
    | e =>
      separator
      return .run e
end

/-- A block in braces, in which the next record may or may not be gone on to. -/
def block (mayNext : Bool) : Reader Stmt := do
  expect "\x7b"
  modify fun s => { s with mayNext, loops := 0 }
  return .block (← statements nestingMax)

/-- The action of a rule, or the end of a rule without one. -/
def action? : Reader (Option Stmt) := do
  if ← atMark "\x7b" then return some (← block true)
  separator
  return none

def parameterNames (function : String) : Nat → List String → Reader (List String)
  | 0, _ => fail
  | fuel + 1, known => do
    match ← peek with
    | .name name =>
      let _ ← take
      if known.contains name then complain s!"{name} is duplicated in argument list"
      if ← takeMark "," then parameterNames function fuel (known ++ [name])
      else return known ++ [name]
    | .called name =>
      if name = function then complain "function parameter cannot be the function"
      fail
    | _ => fail

/-- The name of a function that is defined. -/
def functionName : Reader String := do
  match ← peek with
  | .name name =>
    let _ ← take
    match ← kind? name with
    | some kind => misfit kind.describe name
    | none => setKind name .function
    return name
  | .called name =>
    let _ ← take
    if (← get).functions.any (·.name = name) then complain s!"redefinition of {name}"
    return name
  | _ => fail

/-- A function, after the word for it. -/
def definition : Reader Unit := do
  let name ← functionName
  expect "("
  let parameters ← if ← takeMark ")" then pure [] else do
    let names ← parameterNames name ((← get).rest.length + 2) []
    expect ")"
    pure names
  skipLines
  match (← get).hints.lookup name with
  | some (i, kind) => setParameterKind name i kind
  | none => pure ()
  let known := ((← get).signatures.lookup name).getD []
  modify fun s => { s with
    parameters := some (parameters.mapIdx fun i p => (p, known[i]?.join)), owner := name }
  let body ← block false
  modify fun s => { s with
    parameters := none, owner := "", functions := s.functions ++ [{ name, parameters, body }] }

/-- A rule, or nothing if a function is defined instead. -/
def rule : Reader (Option Rule) := do
  match ← peek with
  | .word "function" =>
    let _ ← take
    definition
    return none
  | .word "BEGIN" =>
    let _ ← take
    return some ⟨.first, some (← block false)⟩
  | .word "END" =>
    let _ ← take
    return some ⟨.last, some (← block false)⟩
  | .mark "\x7b" => return some ⟨.always, some (← block true)⟩
  | _ =>
    let first ← anExpression
    match first with
    | .list _ => fail
    | first =>
      if ← takeMark "," then
        let last ← anExpression
        let number := (← get).ranges
        modify fun s => { s with ranges := number + 1 }
        return some ⟨.range number first last, ← action?⟩
      else return some ⟨.holds first, ← action?⟩

/-- Passes over everything up to the next block, and reads that. The first argument bounds the
    tokens. -/
def recoverRule : Nat → Reader (Option Rule)
  | 0 => throw .over
  | fuel + 1 => do
    match ← peek with
    | .finish => throw .over
    | .mark "\x7b" =>
      let _ ← block true
      return none
    | _ =>
      let _ ← discard
      recoverRule fuel

/-- All rules. The first argument bounds their number. -/
def rules : Nat → Reader (List Rule)
  | 0 => return []
  | fuel + 1 => do
    match ← peek with
    | .finish => return []
    | _ =>
      let first ← orElse rule (do
        modify fun s => { s with parameters := none, owner := "" }
        recoverRule ((← get).rest.length + 2))
      let more ← rules fuel
      return first.toList ++ more

/-- Whether the arguments of a call are to be compared with parameters once more. Tells if the function
    was never defined, or takes fewer arguments. -/
def isOpen (c : Calling) : Reader Bool := do
  match (← get).functions.find? (·.name = c.function) with
  | none =>
    complain s!"function {c.function} never defined"
    return false
  | some d =>
    if c.arguments = [] then return false
    else if c.counted then return true
    else return !(← hasTooMany c d)

/-- Compares the arguments of calls with parameters where that could not be done at once. -/
def checkCalls : Reader Unit := do
  let open_ ← (← get).callings.filterM isOpen
  let size := open_.foldl (fun n c => n + c.arguments.length) 0
  settleAll (size + 1) open_

def script : Reader Script := do
  skipLines
  let s ← get
  let size := s.later.foldl (fun n o => n + o.text.length) s.rest.length
  let rules ← rules (size + 2)
  if (← get).complaints = [] then checkCalls
  return { rules, functions := (← get).functions }

end Reader

/-- The program of some texts, or what is wrong with it; some names have a kind from the start. -/
def Script.read (kinds : List (String × Kind)) (texts : List Origin) : Except (List Octets) Script :=
  match texts with
  | [] => .ok {}
  | first :: later =>
    match Reader.script.run { rest := first.text, file := first.file, later, kinds } with
    | .ok script s => if s.complaints = [] then .ok script else .error s.complaints.reverse
    | .error _ s => .error s.complaints.reverse

end LintRun.Command.Awk
