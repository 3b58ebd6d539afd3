import LintRun.Path.Basic
import LintRun.Proofs.Text.Utf8

/-! Paths as a system knows them, by bytes that need not be text. Such a path is shown with a
    replacement character for each of its gaps, so two of them may be shown as the same text. -/

namespace LintRun

/-- A path as the bytes that it is known by. -/
structure RawPath where
  bytes : List UInt8
  deriving Repr, DecidableEq

namespace RawPath

def ofPath (p : Path) : RawPath := ⟨Text.Utf8.encode p.text⟩

def display (p : RawPath) : String := Text.Utf8.lossy p.bytes

/-- The path with a character for each byte. What takes paths apart goes by single bytes, and so
    takes this one apart in the same way. -/
def bytewise (p : RawPath) : Path := ⟨String.ofList (p.bytes.map fun b => Char.ofNat b.toNat)⟩

/-- The extension of a path, unless it is no text. -/
def extension? (p : RawPath) : Option String := do
  Text.Utf8.strict ((← p.bytewise.extension?).toList.map fun c => UInt8.ofNat c.toNat)

theorem display_ofPath (p : Path) : (ofPath p).display = p.text := Text.Utf8.lossy_encode p.text

theorem ofPath_isEmpty (p : Path) : (ofPath p).bytes.isEmpty = p.text.isEmpty := by
  rw [Bool.eq_iff_iff, List.isEmpty_iff, String.isEmpty_iff]
  constructor
  · intro h
    rw [← display_ofPath p, display, h]
    rfl
  · intro h
    rw [ofPath, h]
    rfl

instance : PathLike RawPath where
  ofPath := ofPath
  display := display
  isEmpty p := p.bytes.isEmpty
  extension? := extension?
  display_ofPath := display_ofPath
  isEmpty_ofPath := ofPath_isEmpty

end RawPath

end LintRun
