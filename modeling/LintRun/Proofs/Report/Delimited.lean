import Mathlib.Data.List.Basic

/-! Written forms that tell what they stand for and where they end, whatever follows them. They are
    closed under fixed text before or after them, under one following the other, and under lists
    with a stop that begins like no member. A number is one if what follows is no digit. -/

namespace LintRun.Report

/-- A way of writing values in which no text can be read as two values, or as one with two ends. -/
def Delimited {α : Type} (write : α → List Char) : Prop :=
  ∀ ⦃a b : α⦄ ⦃x y : List Char⦄, write a ++ x = write b ++ y → a = b ∧ x = y

namespace Delimited

variable {α β : Type} {f : α → List Char} {g : β → List Char}

theorem injective (hf : Delimited f) : Function.Injective f := by
  intro a b hab
  have h : f a ++ [] = f b ++ [] := by rw [hab]
  exact (hf h).1

theorem before (hf : Delimited f) (text : List Char) : Delimited fun a => text ++ f a := by
  intro a b x y h
  simp only [List.append_assoc, List.append_cancel_left_eq] at h
  exact hf h

theorem pair (hf : Delimited f) (hg : Delimited g) :
    Delimited fun p : α × β => f p.1 ++ g p.2 := by
  rintro ⟨a, b⟩ ⟨a', b'⟩ x y h
  simp only [List.append_assoc] at h
  obtain ⟨rfl, hrest⟩ := hf h
  obtain ⟨rfl, hend⟩ := hg hrest
  exact ⟨rfl, hend⟩

theorem comp (hf : Delimited f) {i : β → α} (hi : Function.Injective i) :
    Delimited fun b => f (i b) := by
  intro b b' x y h
  obtain ⟨hb, hrest⟩ := hf h
  exact ⟨hi hb, hrest⟩

/-- The members of a list, up to a stop that no member begins like. -/
theorem flatMap (hf : Delimited f) {stop : List Char} (hstop : ∀ a x y, f a ++ x ≠ stop ++ y) :
    Delimited fun l : List α => l.flatMap f ++ stop := by
  intro l
  induction l with
  | nil =>
    rintro (- | ⟨b, m⟩) x y h
    · exact ⟨rfl, List.append_cancel_left h⟩
    · simp only [List.flatMap_cons, List.append_assoc] at h
      exact absurd h.symm (hstop b _ x)
  | cons a l ih =>
    rintro (- | ⟨b, m⟩) x y h
    · simp only [List.flatMap_cons, List.append_assoc] at h
      exact absurd h (hstop a _ y)
    · simp only [List.flatMap_cons, List.append_assoc] at h
      obtain ⟨rfl, hrest⟩ := hf h
      simp only [← List.append_assoc] at hrest
      obtain ⟨rfl, hend⟩ := ih hrest
      exact ⟨rfl, hend⟩

end Delimited

/-- Two rows of members of some kind, each followed by one of another kind. -/
theorem append_cons_inj_of_forall {α : Type} {p : α → Bool} {a b x y : List α} {c d : α}
    (ha : ∀ e ∈ a, p e) (hb : ∀ e ∈ b, p e) (hc : p c = false) (hd : p d = false)
    (h : a ++ c :: x = b ++ d :: y) : a = b ∧ c :: x = d :: y := by
  have htake := congrArg (List.takeWhile p) h
  have hdrop := congrArg (List.dropWhile p) h
  simp only [List.takeWhile_append_of_pos ha, List.takeWhile_append_of_pos hb,
    List.takeWhile_cons, hc, hd, List.dropWhile_append_of_pos ha, List.dropWhile_append_of_pos hb,
    List.dropWhile_cons] at htake hdrop
  exact ⟨by simpa using htake, by simpa using hdrop⟩

theorem isDigit_of_mem_toString {n : Nat} {c : Char} (hc : c ∈ (toString n).toList) :
    c.isDigit = true := by
  rw [Nat.toString_eq_ofList_toDigits, String.toList_ofList] at hc
  exact Nat.isDigit_of_mem_toDigits (by decide) (by decide) hc

/-- A number, up to a text that begins with no digit. -/
theorem delimited_toString {stop : List Char} {c : Char} (hstop : stop.head? = some c)
    (hc : c.isDigit = false) : Delimited fun n : Nat => (toString n).toList ++ stop := by
  obtain ⟨rest, rfl⟩ := List.head?_eq_some_iff.1 hstop
  intro m n x y h
  simp only [List.append_assoc, List.cons_append] at h
  obtain ⟨hdigits, hrest⟩ := append_cons_inj_of_forall (p := Char.isDigit)
    (fun _ => isDigit_of_mem_toString) (fun _ => isDigit_of_mem_toString) hc hc h
  refine ⟨?_, List.append_cancel_left (List.cons.inj hrest).2⟩
  simp only [Nat.toString_eq_ofList_toDigits, String.toList_ofList] at hdigits
  rw [← Nat.ofDigitChars_ten_toDigits (n := m), hdigits, Nat.ofDigitChars_ten_toDigits]

end LintRun.Report
