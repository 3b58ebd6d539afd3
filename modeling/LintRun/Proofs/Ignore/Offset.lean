import LintRun.Ignore.Position
import Mathlib.Data.List.Induction
import Mathlib.Order.Lattice
import Mathlib.Order.Monotone.Basic
import Mathlib.Order.Nat

/-! The place of each character of a text, told by its offset alone: the line feeds before it give
    the line, the characters since the last of them the column.

    Places are linearly ordered, and `strictMonoOn_ofOffset` says that the place grows strictly with
    the offset, so comparing places of characters is comparing offsets. -/

namespace LintRun.Position

/-- The place after a text that begins at the origin. -/
def ofPrefix (cs : List Char) : Position :=
  ⟨1 + cs.count '\n', 1 + (cs.reverse.takeWhile (· ≠ '\n')).length⟩

/-- The place of the character at an offset. -/
def ofOffset (text : List Char) (k : Nat) : Position := ofPrefix (text.take k)

theorem le_iff {p q : Position} :
    p ≤ q ↔ p.line < q.line ∨ p.line = q.line ∧ p.column ≤ q.column := Iff.rfl

theorem lt_iff {p q : Position} :
    p < q ↔ p.line < q.line ∨ p.line = q.line ∧ p.column < q.column := Iff.rfl

instance : LinearOrder Position where
  le_refl p := by rw [le_iff]; omega
  le_trans p q r hpq hqr := by rw [le_iff] at *; omega
  lt_iff_le_not_ge p q := by rw [lt_iff, le_iff, le_iff]; omega
  le_antisymm p q hpq hqp := by
    rw [le_iff] at hpq hqp
    obtain ⟨hl, hc⟩ : p.line = q.line ∧ p.column = q.column := by omega
    cases p; cases q; simp_all
  le_total p q := by rw [le_iff, le_iff]; omega
  toDecidableLE := inferInstance
  toDecidableLT := inferInstance
  toDecidableEq := inferInstance

/-- Moving over a text character by character counts its lines and columns. -/
theorem after_origin (cs : List Char) : origin.after cs = ofPrefix cs := by
  induction cs using List.reverseRecOn with
  | nil => rfl
  | append_singleton cs c ih =>
    rw [after_append, ih, after_cons, after_nil]
    by_cases hc : c = '\n'
    · simp [next, ofPrefix, hc, List.count_append, Nat.add_assoc]
    · simp [next, ofPrefix, hc, List.count_append, Nat.add_comm]

@[simp] theorem ofOffset_zero (text : List Char) : ofOffset text 0 = origin := rfl

/-- Moving over what stands at an offset leads to the offset behind it. -/
theorem after_ofOffset (text : List Char) (k n : Nat) :
    (ofOffset text k).after ((text.drop k).take n) = ofOffset text (k + n) := by
  rw [ofOffset, ofOffset, ← after_origin, ← after_origin, ← after_append, List.take_add]

theorem next_ofOffset {text : List Char} {k : Nat} {c : Char} (h : text[k]? = some c) :
    (ofOffset text k).next c = ofOffset text (k + 1) := by
  rw [← after_ofOffset, List.take_one, List.head?_drop, h]
  rfl

theorem ofOffset_lt_succ {text : List Char} {k : Nat} (hk : k < text.length) :
    ofOffset text k < ofOffset text (k + 1) := by
  rw [← next_ofOffset (List.getElem?_eq_getElem hk)]
  exact lt_next _ _

/-- Of two characters the later one has the greater place; the end of the text has the greatest. -/
theorem strictMonoOn_ofOffset (text : List Char) :
    StrictMonoOn (ofOffset text) {k | k ≤ text.length} := by
  intro i _ j hj hij
  induction j, hij using Nat.le_induction with
  | base => exact ofOffset_lt_succ hj
  | succ j hij ih => exact (ih (Nat.le_of_lt hj)).trans (ofOffset_lt_succ hj)

end LintRun.Position
