import LintRun.Command.Tool.Printf

/-! Writing arguments, separated by spaces. No result rests on this module. -/

namespace LintRun.Command.Echo

def joined (arguments : List Octets) : Octets := [' '].intercalate arguments

/-- What a shell writes, in which escapes count; one of them stops the output. -/
def inShell (arguments : List Octets) : Octets :=
  let bare := arguments.head? = some ['-', 'n']
  let body := joined (if bare then arguments.drop 1 else arguments)
  let u := Printf.unescape .shell body
  if bare || u.stopped then u.text else u.text ++ ['\n']

/-- Whether an argument is a group of options. -/
def isOption : Octets → Bool
  | '-' :: c :: s => (c :: s).all fun c => c = 'n' || c = 'e' || c = 'E'
  | _ => false

/-- What an escape of the tool stands for, after its backslash. One that is unknown leaves the
    backslash. -/
def readEscape (s : Octets) : Octets × Octets :=
  let unknown := (['\\'], s)
  match s with
  | 'e' :: rest => (['\x1b'], rest)
  | 'x' :: rest =>
    match Printf.digitsUpTo 16 2 rest with
    | [] => unknown
    | ds => ([Char.ofNat (Printf.number 16 ds)], rest.drop ds.length)
  | '0' :: rest =>
    let ds := Printf.digitsUpTo 8 3 rest
    ([Char.ofNat (Printf.number 8 ds % 256)], rest.drop ds.length)
  | s =>
    match Format.readEscape s with
    | some (c, rest) => ([c], rest)
    | none => unknown

/-- The text of the tool if escapes count, and whether one of them stops the output; `done` holds
    what was made of it so far, last first. The first argument bounds the characters. -/
def unescape : Nat → Octets → Octets → Octets × Bool
  | 0, done, _ => (done.reverse, false)
  | _ + 1, done, [] => (done.reverse, false)
  | fuel + 1, done, '\\' :: s =>
    if s.head? = some 'c' then (done.reverse, true)
    else
      let (text, rest) := readEscape s
      unescape fuel (text.reverse ++ done) rest
  | fuel + 1, done, c :: s => unescape fuel (c :: done) s

def run (call : ToolCall) : ToolResult :=
  let options := (call.arguments.takeWhile isOption).flatten
  let body := joined (call.arguments.dropWhile isOption)
  let escapes := (options.reverse.find? fun c => c = 'e' || c = 'E') = some 'e'
  let (text, stopped) := if escapes then unescape (body.length + 1) [] body else (body, false)
  let text := if options.contains 'n' || stopped then text else text ++ ['\n']
  { written := [(1, text)], rest := call.input }

end LintRun.Command.Echo
