import LintRun.Command.Shell.Tokens

/-! Reading the commands of a script.

    A script is read one complete line at a time, since what a line does may have to happen before
    the next one turns out to be malformed.

    No result rests on this module. -/

namespace LintRun.Command.Shell

/-- Where a list of commands ends: at the end of a line, or at a word or mark that closes it. One
    that may be empty can be closed at once. -/
inductive ListEnd where
  | line
  | closed (mayBeEmpty : Bool)
  deriving Repr, DecidableEq

/-- The marks and words that close a list. -/
def closesList (t : Token) : Bool :=
  match t with
  | .finish => true
  | .mark s => s = ")" || s = ";;"
  | .reserved s => ["do", "done", "elif", "else", "esac", "fi", "then", "\x7d"].contains s
  | _ => false

/-- The line that has been reached. -/
def currentLine : Read Nat := do return (← get).line

/-- Reads a word as the target of a redirection. -/
def readTarget (b : Below) (delimiter : Bool) : Read Word := do
  match ← readToken b delimiter with
  | .word w => return w
  | _ => unexpected none

/-- The text of a word, quotes left out. -/
def Word.plainText (w : Word) : Octets :=
  w.flatMap fun
    | .text s _ => s
    | _ => []

def Word.hasQuotes (w : Word) : Bool :=
  w.any fun
    | .text _ quoted => quoted
    | .mark => true
    | _ => false

/-- Reads the target of a redirection. -/
def readRedirect (b : Below) : RedirectSign → Read Redirect
  | .file fd mode => do return .file fd mode (← readTarget b false)
  | .join fd => do return .join fd (← readTarget b false)
  | .document fd stripped => do
    let w ← readTarget b true
    let key := (← get).nextKey
    let due : Due := ⟨key, w.plainText, stripped, !w.hasQuotes⟩
    modify fun r => { r with nextKey := key + 1, due := r.due ++ [due] }
    return .document fd key

/-- The redirections after a command. The first argument bounds their number. -/
def readRedirects (b : Below) : Nat → List Redirect → Read (List Redirect)
  | 0, done => return done
  | fuel + 1, done => do
    match ← readToken b with
    | .redirect sign => do
      let r ← readRedirect b sign
      readRedirects b fuel (done ++ [r])
    | _ => do
      unread
      return done

/-- What a simple command is made of so far. -/
structure SimpleDraft where
  assignments : List (String × Word) := []
  words : List Word := []
  redirects : List Redirect := []

/-- The commands that the shell does itself and that keep their names from functions. -/
def specialNamesOfCommands : List String :=
  [".", ":", "break", "continue", "eval", "exec", "exit", "export", "local", "readonly", "return",
    "set", "shift", "times", "trap", "unset"]

/-- The body of a function after its name and opening parenthesis. -/
def readFunction (b : Below) (name : Word) : Read Script := do
  let close ← readToken b
  if !close.isMark ")" then unexpected (some "\")\"")
  else match name.bare? with
    | some name =>
      if !isName name.toList || specialNamesOfCommands.contains name then
        fun r => r.fail "Bad function name"
      else do
        heeding true true
        let body ← fun r => b.command r
        return .define name body
    | none => fun r => r.fail "Bad function name"

/-- A simple command or the definition of a function. The first argument bounds its parts. -/
def readSimple (b : Below) (line : Nat) : Nat → SimpleDraft → Read Script
  | 0, _ => fun r => r.fail "command too long"
  | fuel + 1, c => do
    match ← readToken b with
    | .word w =>
      match if c.words.isEmpty then w.assignment? else none with
      | some a => readSimple b line fuel { c with assignments := c.assignments ++ [a] }
      | none => readSimple b line fuel { c with words := c.words ++ [w] }
    | .redirect sign => do
      let r ← readRedirect b sign
      readSimple b line fuel { c with redirects := c.redirects ++ [r] }
    | .mark "(" =>
      match c with
      | ⟨[], [name], []⟩ => readFunction b name
      | _ => do
        unread
        return .simple line c.assignments c.words c.redirects
    | _ => do
      unread
      return .simple line c.assignments c.words c.redirects

/-- A list that must not be empty, and is closed by a word or mark. Where a text ends, whatever is
    expected behind the list is missing. -/
def readBody (b : Below) : Read Script := do
  match ← (fun r => b.list 0 r), (← get).last with
  | some script, _ => return script
  | none, .finish => return .pipeline []
  | none, _ => unexpected none

/-- Reads a certain reserved word or mark. -/
def expect (b : Below) (wanted : String) : Read Unit := do
  let t ← readToken b
  if t.isReserved wanted || t.isMark wanted then return ()
  else unexpected (some s!"\"{wanted}\"")

/-- The branches after a condition. The first argument bounds their number. -/
def readBranches (b : Below) : Nat → Read Script
  | 0 => fun r => r.fail "too many branches"
  | fuel + 1 => do
    let condition ← readBody b
    expect b "then"
    let yes ← readBody b
    let t ← readToken b
    if t.isReserved "elif" then do
      let more ← readBranches b fuel
      return .branch condition yes (some more)
    else if t.isReserved "else" then do
      let no ← readBody b
      return .branch condition yes (some no)
    else do
      unread
      return .branch condition yes none

/-- The words that a loop goes over. The first argument bounds their number. -/
def readLoopWords (b : Below) : Nat → List Word → Read (List Word)
  | 0, done => return done
  | fuel + 1, done => do
    match ← readToken b with
    | .word w => readLoopWords b fuel (done ++ [w])
    | .newline | .mark ";" => return done
    | _ => unexpected none

/-- All arguments, over which a loop without words goes. -/
def allArguments : Word := [.parameter "@" .value true]

/-- A loop over words, after its first word. -/
def readForEach (b : Below) (line : Nat) : Read Script := do
  let t ← readToken b
  let name := match t with
    | .word w => w.bare?.filter fun (s : String) => isName s.toList
    | _ => none
  match name with
  | none => fun r => r.fail "Bad for loop variable"
  | some name => do
    heeding true true
    let t ← readToken b
    let words ← if t.isReserved "in" then fun r => readLoopWords b r.bound [] r
      else do
        if !t.isMark ";" then unread
        pure [allArguments]
    heeding true true
    expect b "do"
    let body ← readBody b
    return .forEach line name words body

/-- The patterns of an arm, the first of which has been read. The first argument bounds their
    number. -/
def readPatterns (b : Below) : Nat → List Word → Token → Read (List Word)
  | 0, done, _ => return done
  | fuel + 1, done, t => do
    let w : Word := match t with
      | .word w => w
      | .reserved s => [.text s.toList false]
      | _ => []
    let after ← readToken b
    if after.isMark "|" then do
      let t ← readToken b
      readPatterns b fuel (done ++ [w]) t
    else if after.isMark ")" then return done ++ [w]
    else unexpected (some "\")\"")

/-- The arms of a choice by patterns up to its last word. The first argument bounds their
    number. -/
def readArms (b : Below) : Nat → Read (List (List Word × Option Script))
  | 0 => fun r => r.fail "too many arms"
  | fuel + 1 => do
    heeding true true
    let t ← readToken b
    if t.isReserved "esac" then return []
    else do
      let t ← if t.isMark "(" then readToken b else pure t
      let patterns ← fun r => readPatterns b r.bound [] t r
      let body ← fun r => b.list 2 r
      heeding true true
      let t ← readToken b
      if t.isReserved "esac" then return [(patterns, body)]
      else if t.isMark ";;" then return (patterns, body) :: (← readArms b fuel)
      else unexpected (some "\";;\"")

/-- A choice by patterns, after its first word. -/
def readSelect (b : Below) (line : Nat) : Read Script := do
  match ← readToken b with
  | .word w => do
    heeding true true
    expect b "in"
    let arms ← fun r => readArms b r.bound r
    return .select line w arms
  | _ => unexpected (some "word")

/-- A command with the redirections that follow it. -/
def withRedirects (b : Below) (line : Nat) (body : Script) : Read Script := do
  heeding false true
  let redirects ← fun r => readRedirects b r.bound [] r
  if redirects.isEmpty then return body
  else match body with
    | .subshell line body _ => return .subshell line body redirects
    | _ => return .redirected line body redirects

/-- A command that a word or mark closes. -/
def closed (b : Below) (line : Nat) (wanted : String) (body : Read Script) : Read Script := do
  let body ← body
  expect b wanted
  withRedirects b line body

/-- A loop as long as a condition comes out as wanted. -/
def readLoop (b : Below) (wanted : Bool) : Read Script := do
  let condition ← readBody b
  expect b "do"
  let body ← readBody b
  return .loop wanted condition body

def readCommand (b : Below) : Read Script := do
  let t ← readToken b
  let line ← currentLine
  match t with
  | .word _ | .redirect _ => do
    unread
    fun r => readSimple b line r.bound {} r
  | .mark "(" => closed b line ")" (do return .subshell line (← readBody b) [])
  | .reserved "\x7b" => closed b line "\x7d" (readBody b)
  | .reserved "if" => closed b line "fi" fun r => readBranches b r.bound r
  | .reserved "while" => closed b line "done" (readLoop b true)
  | .reserved "until" => closed b line "done" (readLoop b false)
  | .reserved "for" => closed b line "done" (readForEach b line)
  | .reserved "case" => do withRedirects b line (← readSelect b line)
  | _ => unexpected none

/-- Commands of which each reads what the one before writes. The first argument bounds their
    number. -/
def readPipeline (b : Below) : Nat → List Script → Read (List Script)
  | 0, done => return done
  | fuel + 1, done => do
    let c ← fun r => b.command r
    let t ← readToken b
    if t.isMark "|" then do
      heeding true true
      readPipeline b fuel (done ++ [c])
    else do
      unread
      return done ++ [c]

/-- Commands joined by pipes, of which the outcome may be turned round. -/
def readPipelines (b : Below) : Read Script := do
  let t ← readToken b
  let negated := t.isReserved "!"
  if negated then heeding false true else unread
  let parts ← fun r => readPipeline b r.bound [] r
  let whole := match parts with
    | [c] => c
    | parts => .pipeline parts
  return if negated then .negate whole else whole

/-- What depends on the outcome of a command. The first argument bounds its parts. -/
def readJoined (b : Below) : Nat → Script → Read Script
  | 0, left => return left
  | fuel + 1, left => do
    let t ← readToken b
    if t.isMark "&&" then do
      heeding true true
      let right ← readPipelines b
      readJoined b fuel (.both left right)
    else if t.isMark "||" then do
      heeding true true
      let right ← readPipelines b
      readJoined b fuel (.either left right)
    else do
      unread
      return left

/-- A list with one more command. -/
def Script.after : Option Script → Script → Script
  | none, c => c
  | some before, c => .sequence before c

def ListEnd.endsBefore (stop : ListEnd) (begun : Bool) (t : Token) : Bool :=
  match stop with
  | .line => false
  | .closed mayBeEmpty => (begun || mayBeEmpty) && closesList t

/-- Commands one after the other. The first argument bounds their number. -/
def readList (b : Below) (stop : ListEnd) : Nat → Option Script → Read (Option Script)
  | 0, done => return done
  | fuel + 1, done => do
    heeding (stop ≠ .line) true
    match ← readToken b with
    | .newline => do
      modifyDue
      return done
    | .finish => do
      modifyDue
      unread
      return done
    | t => do
      unread
      if stop.endsBefore done.isSome t then return done
      else do
        let line ← currentLine
        let first ← readPipelines b
        let c ← fun r => readJoined b r.bound first r
        let t ← readToken b
        let done := some (Script.after done (if t.isMark "&" then .background line c else c))
        match t with
        | .newline | .finish => do
          unread
          readList b stop fuel done
        | .mark "&" | .mark ";" => readList b stop fuel done
        | _ =>
          if stop = .line then unexpected none
          else do
            unread
            return done
where
  /-- Reads the documents that are due. -/
  modifyDue : Read Unit := fun r => do return ((), ← readDue b r)

mutual
/-- A list of commands, whose parts are nested at most as deep as the first argument says. -/
def listAt : Nat → Nat → Reading → Except SyntaxError (Option Script × Reading)
  | 0, _, r => r.fail "nested too deep"
  | depth + 1, stop, r =>
    readList ⟨listAt depth, commandAt depth, partsAt depth⟩ (.closed (stop = 2)) r.bound none r

/-- A command, whose parts are nested at most as deep as the first argument says. -/
def commandAt : Nat → Reading → Except SyntaxError (Script × Reading)
  | 0, r => r.fail "nested too deep"
  | depth + 1, r => readCommand ⟨listAt depth, commandAt depth, partsAt depth⟩ r

/-- The parts of a word, which are nested at most as deep as the first argument says. -/
def partsAt : Nat → Context → Reading → Except SyntaxError (Word × Reading)
  | 0, _, r => r.fail "nested too deep"
  | depth + 1, ctx, r =>
    readParts ⟨listAt depth, commandAt depth, partsAt depth⟩ r.bound ctx {} r
end

/-- Reads one line of commands, or more if it takes more to complete them. At the end of a text
    nothing follows. -/
def readLine (r : Reading) : Except SyntaxError (Option Script × Reading) :=
  let depth := 4 * r.rest.length + 16
  let b : Below := ⟨listAt depth, commandAt depth, partsAt depth⟩
  readList b .line r.bound none { r with again := false, heed := {} }

end LintRun.Command.Shell
