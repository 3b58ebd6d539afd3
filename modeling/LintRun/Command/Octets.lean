import LintRun.Text.Utf8

/-! Byte strings as texts: each character stands for one byte. Scripts and the data that they work
    on have this form, so that what is no well formed text passes through them unchanged. No result
    rests on this module. -/

namespace LintRun.Command

/-- A text each character of which stands for one byte. -/
abbrev Octets := List Char

/-- The hash of a text by its characters. -/
instance : Hashable Octets := @instHashableList Char instHashableChar

namespace Octets

/-- Whether a text comes before another one or is the same, compared by their bytes. -/
def le (a b : Octets) : Bool := !List.lex b a fun c d => c.toNat < d.toNat

def ofBytes (bytes : List UInt8) : Octets := bytes.map fun b => Char.ofNat b.toNat

/-- The bytes that a text stands for. -/
def toBytes (o : Octets) : List UInt8 := o.map fun c => c.toNat.toUInt8

def ofString (s : String) : Octets := ofBytes (Text.Utf8.encode s)

/-- The string of some bytes, with replacements for what is malformed. -/
def toText (o : Octets) : String := Text.Utf8.lossy (toBytes o)

end Octets

end LintRun.Command
