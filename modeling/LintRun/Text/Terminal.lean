import LintRun.Text.Utf8

/-! Text for an output that is no terminal: control characters and the sequences by which a terminal
    is told to do something are left out.

    One pass of a small machine over the bytes decides which of them show. A byte that shows ends
    whatever sequence was being read. -/

namespace LintRun.Text.Terminal

/-- What is being read: plain text, a sequence just after its escape character or further on, a
    sequence with parameters, or a string, which a bell may end. -/
inductive Mode where
  | plain
  | escape
  | escapeTail
  | parameters
  | string (bell : Bool)
  deriving Repr, DecidableEq

/-- Whether a byte continues a character of several bytes. -/
def continues (b : UInt8) : Bool := 0x80 ≤ b && b ≤ 0xBF

/-- Whether a byte is a line end, a tab or another white control character. -/
def isWhiteControl (b : UInt8) : Bool := b == 0x09 || b == 0x0A || b == 0x0C || b == 0x0D

/-- Whether a byte shows. Nothing but the rest of a character shows in a string. -/
def shows (mode : Mode) (b : UInt8) : Bool :=
  continues b ||
    match mode with
    | .plain => isWhiteControl b || (0x20 ≤ b && b != 0x7F)
    | .string _ => false
    | _ => isWhiteControl b

/-- What a byte just after an escape character begins. -/
def begun (b : UInt8) : Mode :=
  if b == 0x5B then .parameters
  else if b == 0x5D then .string true
  else if b == 0x50 || b == 0x58 || b == 0x5E || b == 0x5F then .string false
  else if 0x20 ≤ b && b ≤ 0x2F then .escapeTail
  else if 0x30 ≤ b && b ≤ 0x7E then .plain
  else .escape

/-- What is being read after a byte that does not show. -/
def after (mode : Mode) (b : UInt8) : Mode :=
  if b == 0x1B then .escape
  else if b == 0x18 || b == 0x1A then .plain
  else match mode with
    | .plain => .plain
    | .escape => begun b
    | .escapeTail => if 0x30 ≤ b && b ≤ 0x7E then .plain else .escapeTail
    | .parameters => if 0x40 ≤ b && b ≤ 0x7E then .plain else .parameters
    | .string bell => if bell && b == 0x07 then .plain else .string bell

/-- The bytes that show. -/
def visible : Mode → List UInt8 → List UInt8
  | _, [] => []
  | mode, b :: rest =>
    if shows mode b then b :: visible .plain rest else visible (after mode b) rest

/-- A text as an output shows it that is no terminal. -/
def plain (s : String) : String := Utf8.lossy (visible .plain (Utf8.encode s))

end LintRun.Text.Terminal
