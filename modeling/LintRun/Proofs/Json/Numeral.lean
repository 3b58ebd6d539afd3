import LintRun.Proofs.Json.RoundTrip

/-! The values of numbers. The digits of an integer that fits 64 bits, with a sign or without, give
    this integer again (`Numeral.value_ofInt`), and a number is never another integer than one that
    fits (`Numeral.value_cases`). -/

namespace LintRun.Json

/-- An integer that fits 64 bits, with a sign if it is negative. -/
def Fits (n : Int) : Prop := -2 ^ 63 ≤ n ∧ n < 2 ^ 64

instance (n : Int) : Decidable (Fits n) := inferInstanceAs (Decidable (_ ∧ _))

theorem le_foldl_digits (ds : List Nat) (acc : Nat) :
    acc ≤ ds.foldl (fun n d => n * 10 + d) acc := by
  induction ds generalizing acc with
  | nil => exact Nat.le_refl acc
  | cons d ds ih =>
    calc acc ≤ acc * 10 + d := by omega
      _ ≤ _ := ih (acc * 10 + d)

/-- Digits of a number that fits are all taken. -/
theorem takeDigits_of_le {ds : List Nat} {acc : Nat}
    (h : ds.foldl (fun n d => n * 10 + d) acc ≤ significandMax) :
    takeDigits acc ds = (ds.foldl (fun n d => n * 10 + d) acc, []) := by
  induction ds generalizing acc with
  | nil => rfl
  | cons d ds ih =>
    have hfits : acc * 10 + d ≤ significandMax := Nat.le_trans (le_foldl_digits ds _) h
    rw [takeDigits, if_pos hfits, ih h]
    rfl

/-- What is taken fits. -/
theorem takeDigits_le (ds : List Nat) {acc : Nat} (h : acc ≤ significandMax) :
    (takeDigits acc ds).1 ≤ significandMax := by
  induction ds generalizing acc with
  | nil => exact h
  | cons d ds ih =>
    rw [takeDigits]
    split_ifs with hfits
    · exact ih hfits
    · exact h

theorem foldl_digitsOf (n : Nat) : (digitsOf n).foldl (fun n d => n * 10 + d) 0 = n := by
  have hdigits : Nat.ofDigitChars 10 (Nat.toDigits 10 n) 0 = n := Nat.ofDigitChars_ten_toDigits
  rw [Nat.ofDigitChars_eq_foldl] at hdigits
  simpa only [digitsOf, List.foldl_map, Nat.mul_comm] using hdigits

theorem takeDigits_digitsOf {n : Nat} (hn : n < 2 ^ 64) : takeDigits 0 (digitsOf n) = (n, []) := by
  have hmax : significandMax = 2 ^ 64 - 1 := rfl
  have hfits : (digitsOf n).foldl (fun n d => n * 10 + d) 0 ≤ significandMax := by
    rw [foldl_digitsOf]
    omega
  rw [takeDigits_of_le hfits, foldl_digitsOf]

/-- The digits of an integer that fits give this integer again. -/
theorem Numeral.value_ofInt {n : Int} (hn : Fits n) : (ofInt n).value = some (.integer n) := by
  obtain ⟨hlow, hhigh⟩ := hn
  have htake : takeDigits 0 (digitsOf n.natAbs) = (n.natAbs, []) := takeDigits_digitsOf (by omega)
  by_cases hneg : n < 0
  · have hrange : 1 ≤ n.natAbs ∧ n.natAbs ≤ Nat.pow 2 63 :=
      ⟨by omega, show n.natAbs ≤ 2 ^ 63 by omega⟩
    have hback : -(n.natAbs : Int) = n := by omega
    simp only [value, ofInt, htake, hneg, hrange, hback, decide_true, Bool.and_self,
      if_pos, Bool.not_true, Bool.false_eq_true, if_false]
  · have hback : (n.natAbs : Int) = n := by omega
    simp only [value, ofInt, htake, hneg, hback, decide_true, decide_false,
      Bool.and_self, if_pos, Bool.not_false]

/-- The digits of a natural number below 2^64 give this number again. -/
theorem natural?_ofInt {n : Nat} (hn : n < 2 ^ 64) : (Numeral.ofInt n).natural? = some n := by
  have hvalue : (Numeral.ofInt n).value = some (.integer n) :=
    Numeral.value_ofInt ⟨by omega, by omega⟩
  simp [Numeral.natural?, hvalue]

theorem exists_float_of_floatOf {negative : Bool} {significand : Nat} {e : Int} {v : Value}
    (h : floatOf negative significand e = some v) : ∃ x, v = .float x := by
  simp only [floatOf, Option.pure_def, Option.bind_eq_bind, Option.bind_eq_some_iff,
    Option.some.injEq] at h
  obtain ⟨x, -, rfl⟩ := h
  exact ⟨_, rfl⟩

/-- A number is an integer that fits, or a float. -/
theorem Numeral.value_cases {n : Numeral} {v : Value} (h : n.value = some v) :
    (∃ m, Fits m ∧ v = .integer m) ∨ ∃ x, v = .float x := by
  have hmax : significandMax = 2 ^ 64 - 1 := rfl
  have hle : (takeDigits 0 n.whole).1 ≤ significandMax := takeDigits_le n.whole (Nat.zero_le _)
  simp only [value] at h
  split_ifs at h with hplain hsign hrange
  · cases h
    exact .inl ⟨_, ⟨by omega, by omega⟩, rfl⟩
  · cases h
    simp only [Bool.and_eq_true, decide_eq_true_eq] at hrange
    have hlow : (takeDigits 0 n.whole).1 ≤ 2 ^ 63 := hrange.2
    exact .inl ⟨_, ⟨by omega, by omega⟩, rfl⟩
  · exact .inr (exists_float_of_floatOf h)
  · exact .inr (exists_float_of_floatOf h)

end LintRun.Json
