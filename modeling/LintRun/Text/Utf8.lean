/-! UTF-8: bytes of a text, and the text of bytes that may be malformed.

    Decoding is one pass of a small machine. It gives a character for every well formed sequence
    and a gap for every maximal run that starts a sequence but cannot be completed; `strict` refuses
    gaps and `lossy` writes the replacement character for each. -/

namespace LintRun.Text.Utf8

def encode (s : String) : List UInt8 := s.toList.flatMap String.utf8EncodeChar

/-- Between two bytes a sequence is either complete, or `more` bytes are still due: the next one
    between `lo` and `hi`, all later ones between 0x80 and 0xBF. -/
inductive State where
  | ready
  | pending (more : Nat) (lo hi : UInt8) (value : Nat)
  deriving Repr, DecidableEq

/-- The step on a byte that begins a sequence. -/
def start (b : UInt8) : List (Option Char) × State :=
  if b < 0x80 then ([some (Char.ofNat b.toNat)], .ready)
  else if b < 0xC2 then ([none], .ready)
  else if b < 0xE0 then ([], .pending 0 0x80 0xBF (b.toNat - 0xC0))
  else if b == 0xE0 then ([], .pending 1 0xA0 0xBF 0)
  else if b == 0xED then ([], .pending 1 0x80 0x9F 0xD)
  else if b < 0xF0 then ([], .pending 1 0x80 0xBF (b.toNat - 0xE0))
  else if b == 0xF0 then ([], .pending 2 0x90 0xBF 0)
  else if b < 0xF4 then ([], .pending 2 0x80 0xBF (b.toNat - 0xF0))
  else if b == 0xF4 then ([], .pending 2 0x80 0x8F 4)
  else ([none], .ready)

/-- The step on any byte. One that cannot continue the pending sequence leaves a gap and begins
    the next sequence. -/
def step : State → UInt8 → List (Option Char) × State
  | .ready, b => start b
  | .pending more lo hi value, b =>
    if lo ≤ b && b ≤ hi then
      let value := value * 64 + (b.toNat - 0x80)
      match more with
      | 0 => ([some (Char.ofNat value)], .ready)
      | more + 1 => ([], .pending more 0x80 0xBF value)
    else
      let (out, next) := start b
      (none :: out, next)

/-- The pass over all bytes; `done` holds what came out so far, last first. -/
def run (done : List (Option Char)) : State → List UInt8 → List (Option Char)
  | .ready, [] => done.reverse
  | .pending .., [] => (none :: done).reverse
  | st, b :: bs => let (out, next) := step st b; run (out.reverse ++ done) next bs

/-- The characters of some bytes, with `none` for each gap. -/
def decode (bytes : List UInt8) : List (Option Char) := run [] .ready bytes

/-- The text of well formed bytes. -/
def strict (bytes : List UInt8) : Option String := ((decode bytes).mapM id).map String.ofList

/-- The text of any bytes, with U+FFFD for each gap. -/
def lossy (bytes : List UInt8) : String := String.ofList ((decode bytes).map (·.getD '\uFFFD'))

/-- Bytes without the byte order mark they may begin with. -/
def dropMark : List UInt8 → List UInt8
  | 0xEF :: 0xBB :: 0xBF :: rest => rest
  | bytes => bytes

end LintRun.Text.Utf8
