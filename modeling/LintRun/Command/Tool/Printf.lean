import LintRun.Command.Format
import LintRun.Command.Tool.Flags

/-! Writing arguments in the form that a format string describes.

    A shell does this itself, and a tool does it too; they differ in the escapes that they know and
    in what they complain about.

    No result rests on this module. -/

namespace LintRun.Command.Printf

open Format (Directive Field Amount)

/-- Who formats: a shell, or the tool. -/
inductive Dialect where
  | shell
  | tool
  deriving Repr, DecidableEq

/-- The state of formatting: the arguments that are left, what was written, last piece first, and
    what was complained about, last first. -/
structure State where
  arguments : List Octets
  written : List Octets := []
  complaints : List Octets := []
  status : Nat := 0
  stopped : Bool := false

namespace State

def write (s : State) (text : Octets) : State := { s with written := text :: s.written }

def complain (s : State) (text : Octets) : State :=
  { s with complaints := text :: s.complaints, status := 1 }

def fail (s : State) (status : Nat) (text : Octets) : State :=
  { s with complaints := text :: s.complaints, status, stopped := true }

/-- Stops because an escape asks for it. A tool then takes all complaints as warnings. -/
def halt (s : State) (dialect : Dialect) : State :=
  { s with stopped := true, status := if dialect = .tool then 0 else s.status }

/-- Takes the next argument; an empty one if none is left. -/
def take (s : State) : Octets × State := (s.arguments.headD [], { s with arguments := s.arguments.drop 1 })

end State

/-- A complaint about an argument that is no number of the right form. -/
def numberComplaint (dialect : Dialect) (argument : Octets) (text : String) : Octets :=
  (if dialect = .tool then quoted argument else argument) ++ Octets.ofString s!": {text}"

/-- Checks that an argument is a number to its end and within range. -/
def checkNumber (dialect : Dialect) (s : State) (argument rest : Octets) (fits : Bool) : State :=
  if !fits && (dialect = .tool || rest = []) then
    s.complain (numberComplaint dialect argument "Numerical result out of range")
  else if rest = [] then s
  else if rest = argument then
    s.complain (numberComplaint dialect argument
      (if dialect = .tool then "expected a numeric value" else "expected numeric value"))
  else
    s.complain (numberComplaint dialect argument
      (if dialect = .tool then "value not completely converted" else "not completely converted"))

/-- The code of the character after a quote, if an argument is of that form, with the state behind it;
    a tool warns of what follows. -/
def codeOf? (dialect : Dialect) (s : State) : Octets → Option (Nat × State)
  | q :: rest =>
    if q ≠ '\'' && q ≠ '"' then none
    else match dialect, rest with
      | .shell, rest => some ((rest.headD '\x00').toNat, s)
      | .tool, [] => none
      | .tool, [c] => some (c.toNat, s)
      | .tool, c :: more =>
        let text := Octets.ofString "warning: " ++ more ++
          Octets.ofString ": character(s) following character constant have been ignored"
        some (c.toNat, { s with complaints := text :: s.complaints })
  | [] => none

/-- The next argument as an integer with a sign. -/
def takeSigned (dialect : Dialect) (s : State) : Int × State :=
  let (a, s) := s.take
  match codeOf? dialect s a with
  | some (n, s) => (n, s)
  | none =>
    match Numeral.find? true a with
    | some f => (f.toInt, checkNumber dialect s a f.rest f.fits)
    | none => (0, checkNumber dialect s a a true)

/-- The next argument as a natural. -/
def takeUnsigned (dialect : Dialect) (s : State) : Nat × State :=
  let (a, s) := s.take
  match codeOf? dialect s a with
  | some (n, s) => (n, s)
  | none =>
    match Numeral.find? true a with
    | some f => (f.toUnsigned, checkNumber dialect s a f.rest (f.size ≤ Numeral.unsignedMax))
    | none => (0, checkNumber dialect s a a true)

/-- What is kept of a number with a fraction. -/
def kept (dialect : Dialect) (x : Real) : Real :=
  match dialect with
  | .shell => .ofFloat x.toFloat
  | .tool => x.rounded 64 (-16445)

/-- The next argument as a number with a fraction. -/
def takeReal (dialect : Dialect) (s : State) : Real × State :=
  let (a, s) := s.take
  match codeOf? dialect s a with
  | some (n, s) => (.finite false ⟨n, 1⟩, s)
  | none =>
    match Real.find? a with
    | some (x, rest) => (kept dialect x, checkNumber dialect s a rest true)
    | none => (.finite false ⟨0, 1⟩, checkNumber dialect s a a true)

def amountMax : Int := 2147483647

/-- A width or a precision, which may be an argument. A tool fails where it is too large, and a shell
    takes it modulo the range of its integers. -/
def takeAmount (dialect : Dialect) (name : String) (lowest : Int) (s : State) :
    Amount → Int × State
  | .number n => (n, s)
  | .argument =>
    let (n, after) := takeSigned dialect s
    match dialect with
    | .shell => (Int.bmod n 4294967296, after)
    | .tool =>
      if n ≤ amountMax && lowest ≤ n then (n, after)
      else (0, after.fail 1 (Octets.ofString s!"invalid {name}: " ++ quoted s.take.1))

def takeField (dialect : Dialect) (s : State) (d : Directive) : Field × State :=
  let (width, s) := takeAmount dialect "field width" (-amountMax - 1) s d.width
  match d.precision with
  | none => (d.field width none, s)
  | some amount =>
    let (precision, s) := takeAmount dialect "precision" (-Numeral.signedMax - 1) s amount
    (d.field width (some precision), s)

/-- What an escape stands for. -/
inductive Escape where
  | text (s : Octets) (rest : Octets)
  | stop
  | wrong (complaint : Octets)
  deriving Repr, DecidableEq

/-- The digits of a base that a text begins with, at most some. -/
def digitsUpTo (base most : Nat) (s : Octets) : Octets :=
  (s.take most).takeWhile fun c => (Text.digitOf base c).isSome

/-- The number that some digits write. -/
def number (base : Nat) (ds : Octets) : Nat :=
  Text.natOfDigits base (ds.filterMap Text.digitValue)

/-- Whether a number is that of a character which may be written by its number. -/
def isNamed (n : Nat) : Bool :=
  (0xA0 ≤ n || n = 0x24 || n = 0x40 || n = 0x60) && !(0xD800 ≤ n && n ≤ 0xDFFF)

/-- The escape of a character by its number in hexadecimal digits, after its letter. -/
def numbered (letter : Char) (count : Nat) (s : Octets) : Escape :=
  let ds := digitsUpTo 16 count s
  let name := '\\' :: letter :: ds
  if ds.length < count then .wrong (Octets.ofString "missing hexadecimal number in escape")
  else if isNamed (number 16 ds) then
    .text ('\\' :: letter :: ds.map Char.toUpper) (s.drop count)
  else .wrong (Octets.ofString "invalid universal character name " ++ name.map Char.toLower)

/-- What an escape of a tool stands for, after its backslash. -/
def toolEscape : Octets → Escape
  | [] => .text ['\\'] []
  | c :: s =>
    if c = 'c' then .stop
    else if c = 'e' then .text ['\x1b'] s
    else if c = '"' then .text [c] s
    else if c = 'u' then numbered c 4 s
    else if c = 'U' then numbered c 8 s
    else if c = 'x' then
      match digitsUpTo 16 2 s with
      | [] => .wrong (Octets.ofString "missing hexadecimal number in escape")
      | ds => .text [Char.ofNat (number 16 ds)] (s.drop ds.length)
    else match Format.readEscape (c :: s) with
      | some (octet, rest) => .text [octet] rest
      | none => .text ['\\', c] s

/-- What an escape of a shell stands for, after its backslash. One that is unknown leaves the
    backslash. -/
def shellEscape : Octets → Escape
  | 'e' :: s => .text ['\x1b'] s
  | s =>
    match Format.readEscape s with
    | some (octet, rest) => .text [octet] rest
    | none => .text ['\\'] s

/-- What an escape stands for, after its backslash. -/
def readEscape (dialect : Dialect) (s : Octets) : Escape :=
  match dialect with
  | .shell => shellEscape s
  | .tool => toolEscape s

/-- An octal number without a zero more in front. -/
def dropZero : Octets → Octets
  | '0' :: c :: s => if (Text.digitOf 8 c).isSome then c :: s else '0' :: c :: s
  | s => s

/-- What is made of an argument in which escapes count. -/
structure Unescaped where
  text : Octets := []
  stopped : Bool := false
  complaint : Option Octets := none
  deriving Repr, DecidableEq

/-- An argument in which escapes count; `done` holds what was made of it so far, last first. The
    first argument bounds the characters. -/
def unescapeFrom (dialect : Dialect) : Nat → Octets → Octets → Unescaped
  | 0, done, _ => { text := done.reverse }
  | _ + 1, done, [] => { text := done.reverse }
  | fuel + 1, done, '\\' :: s =>
    if s.head? = some 'c' then { text := done.reverse, stopped := true }
    else match readEscape dialect (dropZero s) with
      | .text t rest => unescapeFrom dialect fuel (t.reverse ++ done) rest
      | .stop => { text := done.reverse, stopped := true }
      | .wrong complaint => { text := done.reverse, stopped := true, complaint := some complaint }
  | fuel + 1, done, c :: s => unescapeFrom dialect fuel (c :: done) s

/-- An argument in which escapes count. -/
def unescape (dialect : Dialect) (s : Octets) : Unescaped :=
  unescapeFrom dialect (s.length + 1) [] s

/-- Whether the tool takes a conversion with the flags of its directive. -/
def allows (d : Directive) : Bool :=
  let kind := d.kind
  !(d.alternate && ['c', 'd', 'i', 's', 'u'].contains kind) &&
    !(d.zero && ['c', 's'].contains kind) && !(d.precision.isSome && kind = 'c')

/-- Whether a letter is that of a conversion. -/
def isConversion (dialect : Dialect) (d : Directive) : Bool :=
  let kind := d.kind
  (Format.isSigned kind || Format.isUnsigned kind || Format.isReal kind || kind = 's' ||
    kind = 'c') && (dialect = .shell || allows d)

/-- Writes the next argument as a directive converts it. -/
def convert (dialect : Dialect) (d : Directive) (s : State) : State :=
  let (f, s) := takeField dialect s d
  if s.stopped then s
  else if d.kind = 'b' then
    let (a, s) := s.take
    let u := unescape dialect a
    let s := s.write (f.text u.text)
    match u.complaint with
    | some text => s.fail 1 text
    | none => if u.stopped then s.halt dialect else s
  else if d.kind = 'c' then
    let (a, s) := s.take
    s.write (f.pad [a.headD '\x00'])
  else if d.kind = 's' then
    let (a, s) := s.take
    s.write (f.text a)
  else if Format.isSigned d.kind then
    let (n, s) := takeSigned dialect s
    s.write (f.integer n)
  else if Format.isUnsigned d.kind then
    let (n, s) := takeUnsigned dialect s
    s.write (f.natural n)
  else
    let (x, s) := takeReal dialect s
    s.write (f.real x)

/-- The letters before a conversion that only tell its size, which a tool passes over. -/
def dropSize (dialect : Dialect) (s : Octets) : Octets :=
  if dialect = .tool then s.dropWhile fun c => ['h', 'l', 'L', 'j', 't', 'z'].contains c else s

/-- The complaint about a directive that is none. -/
def invalid (dialect : Dialect) (spelled : Octets) (s : State) : State :=
  match dialect with
  | .shell => s.fail 2 (spelled ++ Octets.ofString ": invalid directive")
  | .tool => s.fail 1 (spelled ++ Octets.ofString ": invalid conversion specification")

/-- A directive after its percent sign: what is left of the format, and the state behind it. -/
def directive (dialect : Dialect) (format : Octets) (s : State) : Octets × State :=
  let (d, rest) := Format.readDirective format
  let rest := dropSize dialect rest
  match rest with
  | [] =>
    match dialect with
    | .shell => ([], s.fail 2 (Octets.ofString "missing format character"))
    | .tool => ([], invalid dialect ('%' :: format) s)
  | kind :: after =>
    let d := { d with kind }
    let bare := after.length + 1 = format.length
    if dialect = .tool && kind = 'q' && bare then
      let (a, rest) := s.take
      (after, if s.arguments.isEmpty then s else rest.write (shellQuoted a))
    else if (kind = 'b' && (bare || dialect = .shell)) || isConversion dialect d then
      (after, convert dialect d s)
    else
      (after, invalid dialect ('%' :: format.take (format.length - after.length)) s)

/-- One pass over a format. The first argument bounds its characters. -/
def pass (dialect : Dialect) : Nat → Octets → State → State
  | 0, _, s => s
  | _ + 1, [], s => s
  | fuel + 1, '%' :: '%' :: rest, s => pass dialect fuel rest (s.write ['%'])
  | fuel + 1, '%' :: rest, s =>
    let (rest, s) := directive dialect rest s
    if s.stopped then s else pass dialect fuel rest s
  | fuel + 1, '\\' :: rest, s =>
    match readEscape dialect rest with
    | .text t rest => pass dialect fuel rest (s.write t)
    | .stop => s.halt dialect
    | .wrong complaint => s.fail 1 complaint
  | fuel + 1, c :: rest, s => pass dialect fuel rest (s.write [c])

/-- Passes over a format as long as arguments are left and each pass takes some. The first argument
    bounds their number. -/
def passes (dialect : Dialect) (format : Octets) : Nat → State → State
  | 0, s => s
  | fuel + 1, s =>
    let after := pass dialect (format.length + 1) format s
    if after.stopped || after.arguments.isEmpty ||
      after.arguments.length = s.arguments.length then after
    else passes dialect format fuel after

def format (dialect : Dialect) (form : Octets) (values : List Octets) : State :=
  passes dialect form (values.length + 1) { arguments := values }

def run (call : ToolCall) : ToolResult :=
  let arguments := if call.arguments.head? = some ['-', '-'] then call.arguments.drop 1
    else call.arguments
  match arguments with
  | [] => call.refuse (Octets.ofString "missing operand")
  | form :: values =>
    let s := format .tool form values
    let excess := if s.stopped then [] else s.arguments.take 1
    let warnings := excess.map fun a =>
      Octets.ofString "warning: ignoring excess arguments, starting with " ++ quoted a
    let line := fun text => (2, Octets.ofString s!"{call.name}: " ++ text ++ ['\n'])
    { status := s.status, rest := call.input
      written := (s.complaints.reverse ++ warnings).map line ++ [(1, s.written.reverse.flatten)] }

end LintRun.Command.Printf
