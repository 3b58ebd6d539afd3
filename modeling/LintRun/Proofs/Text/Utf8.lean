import LintRun.Text.Utf8
import Mathlib.Data.List.Basic

/-! Decoding after encoding. The machine that decodes comes from the bytes of a character back to
    where it was, with this character (`run_encodeChar`), so the bytes of a text are well formed and
    give the text again, whether gaps are refused or replaced. A byte order mark in front of other
    bytes is one character more, which is left out when it is dropped before the bytes are decoded
    (`lossy_dropMark_encode`). -/

namespace LintRun.Text.Utf8

/-! ### One byte -/

/-- What came out before is kept in front. -/
theorem run_eq_append (done : List (Option Char)) (st : State) (bytes : List UInt8) :
    run done st bytes = done.reverse ++ run [] st bytes := by
  induction bytes generalizing done st with
  | nil => cases st <;> simp [run]
  | cons b bytes ih =>
    simp only [run]
    rw [ih, ih ((step st b).1.reverse ++ [])]
    simp

theorem run_cons (st : State) (b : UInt8) (bytes : List UInt8) :
    run [] st (b :: bytes) = (step st b).1 ++ run [] (step st b).2 bytes := by
  simp only [run]
  rw [run_eq_append]
  simp

theorem start_one : ∀ a < 128, start (UInt8.ofNat a) = ([some (Char.ofNat a)], .ready) := by
  decide

theorem start_two : ∀ a < 32, 2 ≤ a →
    start (UInt8.ofNat (a + 192)) = ([], .pending 0 0x80 0xBF a) := by
  decide

/-- The first of three bytes. The next one may not write fewer bits than need three, nor a
    surrogate. -/
theorem start_three : ∀ a < 16, start (UInt8.ofNat (a + 224)) =
    ([], .pending 1 (if a = 0 then 0xA0 else 0x80) (if a = 13 then 0x9F else 0xBF) a) := by
  decide

/-- The first of four bytes. The next one may not write fewer bits than need four, nor a number
    beyond the last character. -/
theorem start_four : ∀ a < 5, start (UInt8.ofNat (a + 240)) =
    ([], .pending 2 (if a = 0 then 0x90 else 0x80) (if a = 4 then 0x8F else 0xBF) a) := by
  decide

/-- The six bits of a byte that is not the first one. -/
theorem toNat_tail {k : Nat} (hk : k < 64) : (UInt8.ofNat (k + 128)).toNat = k + 128 :=
  UInt8.toNat_ofNat_of_lt' (by simp only [UInt8.size]; omega)

section Tail

variable {k : Nat} {lo hi : UInt8}

/-- A byte that ends a sequence. -/
theorem step_last (hk : k < 64) (hlo : lo.toNat ≤ k + 128) (hhi : k + 128 ≤ hi.toNat)
    (value : Nat) : step (.pending 0 lo hi value) (UInt8.ofNat (k + 128)) =
      ([some (Char.ofNat (value * 64 + k))], .ready) := by
  simp only [step, UInt8.le_iff_toNat_le, hlo, hhi, toNat_tail hk, decide_true, Bool.and_true,
    if_true, Nat.add_sub_cancel]

/-- A byte after which others are due. -/
theorem step_more (hk : k < 64) (hlo : lo.toNat ≤ k + 128) (hhi : k + 128 ≤ hi.toNat)
    (more value : Nat) : step (.pending (more + 1) lo hi value) (UInt8.ofNat (k + 128)) =
      ([], .pending more 0x80 0xBF (value * 64 + k)) := by
  simp only [step, UInt8.le_iff_toNat_le, hlo, hhi, toNat_tail hk, decide_true, Bool.and_true,
    if_true, Nat.add_sub_cancel]

theorem low_le (k : Nat) : (0x80 : UInt8).toNat ≤ k + 128 := by
  change 128 ≤ k + 128
  omega

theorem le_high (hk : k < 64) : k + 128 ≤ (0xBF : UInt8).toNat := by
  change k + 128 ≤ 191
  omega

end Tail

/-! ### One character -/

/-- The bytes of a character give this character. -/
theorem run_encodeChar (c : Char) (bytes : List UInt8) :
    run [] .ready (String.utf8EncodeChar c ++ bytes) = some c :: run [] .ready bytes := by
  have hvalid : c.val.toNat < 0xD800 ∨ 0xDFFF < c.val.toNat ∧ c.val.toNat < 0x110000 := c.valid
  have hchar : Char.ofNat c.val.toNat = c := Char.ofNat_toNat c
  rw [String.utf8EncodeChar.eq_1]
  generalize c.val.toNat = v at hvalid hchar
  have hlast : v % 64 < 64 := Nat.mod_lt _ (by decide)
  have hmiddle : v / 64 % 64 < 64 := Nat.mod_lt _ (by decide)
  have hfirst : v / 4096 % 64 < 64 := Nat.mod_lt _ (by decide)
  split_ifs with h1 h2 h3
  · have hstart : step .ready (UInt8.ofNat v) = _ := start_one v (by omega)
    simp only [List.cons_append, List.nil_append, run_cons, hstart, hchar]
  · have hstart : step .ready (UInt8.ofNat (v / 64 % 32 + 192)) = _ :=
      start_two (v / 64 % 32) (by omega) (by omega)
    have hvalue : v / 64 % 32 * 64 + v % 64 = v := by omega
    simp only [List.cons_append, List.nil_append, run_cons, hstart,
      step_last hlast (low_le _) (le_high hlast), hvalue, hchar]
  · have hstart : step .ready (UInt8.ofNat (v / 4096 % 16 + 224)) = _ :=
      start_three (v / 4096 % 16) (by omega)
    have hlo : (if v / 4096 % 16 = 0 then (0xA0 : UInt8) else 0x80).toNat ≤
        v / 64 % 64 + 128 := by
      split_ifs
      · change 160 ≤ _
        omega
      · exact low_le _
    have hhi : v / 64 % 64 + 128 ≤
        (if v / 4096 % 16 = 13 then (0x9F : UInt8) else 0xBF).toNat := by
      split_ifs
      · change _ ≤ 159
        omega
      · exact le_high hmiddle
    have hvalue : (v / 4096 % 16 * 64 + v / 64 % 64) * 64 + v % 64 = v := by omega
    simp only [List.cons_append, List.nil_append, run_cons, hstart, step_more hmiddle hlo hhi,
      step_last hlast (low_le _) (le_high hlast), hvalue, hchar]
  · have hstart : step .ready (UInt8.ofNat (v / 262144 % 8 + 240)) = _ :=
      start_four (v / 262144 % 8) (by omega)
    have hlo : (if v / 262144 % 8 = 0 then (0x90 : UInt8) else 0x80).toNat ≤
        v / 4096 % 64 + 128 := by
      split_ifs
      · change 144 ≤ _
        omega
      · exact low_le _
    have hhi : v / 4096 % 64 + 128 ≤
        (if v / 262144 % 8 = 4 then (0x8F : UInt8) else 0xBF).toNat := by
      split_ifs
      · change _ ≤ 143
        omega
      · exact le_high hfirst
    have hvalue : ((v / 262144 % 8 * 64 + v / 4096 % 64) * 64 + v / 64 % 64) * 64 + v % 64 = v := by
      omega
    simp only [List.cons_append, List.nil_append, run_cons, hstart, step_more hfirst hlo hhi,
      step_more hmiddle (low_le _) (le_high hmiddle), step_last hlast (low_le _) (le_high hlast),
      hvalue, hchar]

/-! ### Whole texts -/

theorem decode_encode (s : String) : decode (encode s) = s.toList.map some := by
  rw [decode, encode]
  induction s.toList with
  | nil => rfl
  | cons c cs ih => rw [List.flatMap_cons, run_encodeChar, ih, List.map_cons]

theorem mapM_id_eq_some_iff {l : List (Option Char)} {cs : List Char} :
    l.mapM id = some cs ↔ l = cs.map some := by
  induction l generalizing cs with
  | nil => cases cs <;> simp
  | cons a l ih =>
    cases cs with
    | nil => cases a <;> simp [Option.bind_eq_some_iff]
    | cons c cs => cases a <;> simp [Option.bind_eq_some_iff, ih, and_comm]

/-- Bytes are well formed exactly if decoding leaves no gap. -/
theorem strict_eq_some_iff {bytes : List UInt8} {s : String} :
    strict bytes = some s ↔ decode bytes = s.toList.map some := by
  simp only [strict, Option.map_eq_some_iff, mapM_id_eq_some_iff]
  constructor
  · rintro ⟨cs, hcs, rfl⟩
    rwa [String.toList_ofList]
  · exact fun h => ⟨s.toList, h, String.ofList_toList⟩

theorem strict_encode (s : String) : strict (encode s) = some s :=
  strict_eq_some_iff.2 (decode_encode s)

/-- Of well formed bytes nothing is replaced. -/
theorem lossy_of_decode {bytes : List UInt8} {cs : List Char} (h : decode bytes = cs.map some) :
    lossy bytes = String.ofList cs := by
  rw [lossy, h, List.map_map]
  exact congrArg String.ofList (List.map_id cs)

/-- A text comes back from its bytes, though its decoding would tolerate others. -/
theorem lossy_encode (s : String) : lossy (encode s) = s := by
  rw [lossy_of_decode (decode_encode s), String.ofList_toList]

theorem decode_mark (bytes : List UInt8) :
    decode (0xEF :: 0xBB :: 0xBF :: bytes) = some '\uFEFF' :: decode bytes := by
  rw [decode, run_cons, run_cons, run_cons]
  rfl

/-! ### The mark -/

theorem dropMark_cases (bytes : List UInt8) :
    (∃ rest, bytes = 0xEF :: 0xBB :: 0xBF :: rest ∧ dropMark bytes = rest) ∨
      dropMark bytes = bytes := by
  rw [dropMark.eq_def]
  split
  · exact .inl ⟨_, rfl, rfl⟩
  · exact .inr rfl

/-- The tolerant reading of well formed bytes leaves out a mark in front and nothing else. -/
theorem lossy_dropMark {bytes : List UInt8} {s : String} (h : strict bytes = some s) :
    lossy (dropMark bytes) = s ∨
      s = String.ofList ('\uFEFF' :: (lossy (dropMark bytes)).toList) := by
  rw [strict_eq_some_iff] at h
  rcases dropMark_cases bytes with ⟨rest, rfl, hdrop⟩ | hdrop
  · right
    rw [decode_mark] at h
    rcases hs : s.toList with - | ⟨c, cs⟩
    · simp [hs] at h
    · rw [hs, List.map_cons, List.cons.injEq, Option.some.injEq] at h
      obtain ⟨rfl, hrest⟩ := h
      rw [hdrop, lossy_of_decode hrest, String.toList_ofList, ← hs, String.ofList_toList]
  · left
    rw [hdrop, lossy_of_decode h, String.ofList_toList]

/-- A text without the byte order mark that it may begin with. -/
def unmarked (s : String) : String :=
  match s.toList with
  | '\uFEFF' :: rest => String.ofList rest
  | _ => s

theorem encode_mark (rest : List Char) : encode (String.ofList ('\uFEFF' :: rest)) =
    0xEF :: 0xBB :: 0xBF :: encode (String.ofList rest) := by
  simp only [encode, String.toList_ofList, List.flatMap_cons]
  rfl

/-- A text comes back from its bytes without the mark that it may begin with. -/
theorem lossy_dropMark_encode (s : String) : lossy (dropMark (encode s)) = unmarked s := by
  rw [unmarked]
  split
  · next rest hs =>
    rw [← String.ofList_toList (s := s), hs, encode_mark]
    exact lossy_encode _
  · next hs =>
    refine (lossy_dropMark (strict_encode s)).resolve_right fun hmark => ?_
    exact hs _ ((congrArg String.toList hmark).trans String.toList_ofList)

end LintRun.Text.Utf8
