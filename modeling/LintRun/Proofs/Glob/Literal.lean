import LintRun.Glob.Expand
import Mathlib.Data.List.Basic

/-! Patterns that begin with plain pieces.

    A plain character stands for itself, so plain text is read character by character
    (`readTokens_plain`) and a plain piece is a name that must be there (`mapM_tokens_plain`,
    `Segment.ofTokens_plain`). -/

namespace LintRun.Glob

variable {s : List Char}

/-- Whether a character is none that is special in patterns. -/
def isPlain (c : Char) : Bool := c ≠ '*' && c ≠ '?' && c ≠ '['

theorem isPlain_iff {c : Char} : isPlain c = true ↔ c ≠ '*' ∧ c ≠ '?' ∧ c ≠ '[' := by
  simp [isPlain, and_assoc]

/-- Plain text is read character by character, and a component begins behind a separator. -/
theorem readTokens_plain (hs : ∀ c ∈ s, isPlain c = true) (fuel : Nat) (atStart : Bool)
    (rest : List Char) :
    readTokens (s.length + fuel) atStart (s ++ rest) =
      (readTokens fuel (s.getLast?.elim atStart fun c => decide (c = '/')) rest).map
        (s.map .char ++ ·) := by
  induction s generalizing atStart with
  | nil =>
    rw [List.length_nil, Nat.zero_add, List.nil_append, List.getLast?_nil, Option.elim_none]
    cases readTokens fuel atStart rest <;> rfl
  | cons c s ih =>
    rw [List.forall_mem_cons] at hs
    obtain ⟨hstar, hany, hset⟩ := isPlain_iff.1 hs.1
    have hlast : (c :: s).getLast?.elim atStart (fun c => decide (c = '/')) =
        s.getLast?.elim (decide (c = '/')) fun c => decide (c = '/') := by
      rw [List.getLast?_cons]
      cases s.getLast? <;> rfl
    rw [hlast, List.length_cons, Nat.succ_add, List.cons_append, readTokens, if_neg hany,
      if_neg hstar, if_neg hset, ih hs.2]
    cases readTokens fuel _ rest <;> rfl

/-- Plain text is a well formed pattern. -/
theorem tokens_plain (hs : ∀ c ∈ s, isPlain c = true) : tokens s = .ok (s.map .char) := by
  have h := readTokens_plain hs 1 true []
  rw [List.append_nil] at h
  rw [tokens, h, readTokens, Except.map, List.append_nil]

theorem mapM_tokens_plain {pieces : List (List Char)}
    (h : ∀ piece ∈ pieces, ∀ c ∈ piece, isPlain c = true) :
    pieces.mapM tokens = .ok (pieces.map fun piece => piece.map .char) := by
  induction pieces with
  | nil => rfl
  | cons piece pieces ih =>
    rw [List.forall_mem_cons] at h
    rw [List.mapM_cons, tokens_plain h.1, ih h.2]
    rfl

/-- A plain piece is a name. -/
theorem Segment.ofTokens_plain (s : List Char) :
    Segment.ofTokens (s.map .char) = .name (String.ofList s) := by
  have hplain : plainText (s.map .char) = some s := by
    induction s with
    | nil => rfl
    | cons c s ih => rw [List.map_cons, plainText, ih]; rfl
  rw [Segment.ofTokens, if_neg (by simp), hplain]

theorem collapse_names (names : List String) (rest : List Segment) :
    collapse (names.map .name ++ rest) = names.map .name ++ collapse rest := by
  induction names with
  | nil => rfl
  | cons name names ih =>
    rw [List.map_cons, List.cons_append, collapse, ih, List.cons_append]
    rintro ⟨⟩

end LintRun.Glob
