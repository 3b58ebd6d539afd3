import LintRun.Ignore.Sections
import LintRun.Proofs.Ignore.Offset

/-! The ignore sections of a text by offset, told by where markers stand: a section begins at the
    first start marker from where the last one ended, and ends with the first end marker behind
    that. `exists_spans` says that the scan by lines and columns finds just these sections, each at
    the places of its first and its last character. -/

namespace LintRun

/-- A stretch of text by the offsets of its first and its last character. Without a last one it
    goes to the end of the text. -/
structure Span where
  first : Nat
  last : Option Nat
  deriving DecidableEq

namespace Span

/-- Whether the character at an offset lies in a span. -/
def Covers (s : Span) (i : Nat) : Prop := s.first ≤ i ∧ ∀ l ∈ s.last, i ≤ l

/-- A span by the places of its ends. -/
def toSection (text : List Char) (s : Span) : Section :=
  ⟨.ofOffset text s.first, s.last.map (.ofOffset text)⟩

end Span

/-- A marker stands at an offset. -/
def OccursAt (marker text : List Char) (i : Nat) : Prop := marker <+: text.drop i

instance (marker text : List Char) (i : Nat) : Decidable (OccursAt marker text i) :=
  inferInstanceAs (Decidable (marker <+: text.drop i))

/-- Of the offsets from `k` on, `i` is the first at which a marker stands. -/
structure NextAt (marker text : List Char) (k i : Nat) : Prop where
  le : k ≤ i
  occurs : OccursAt marker text i
  least : ∀ j, k ≤ j → j < i → ¬ OccursAt marker text j

/-- The sections of a text from an offset on. -/
inductive Spans (start stop text : List Char) : Nat → List Span → Prop where
  | none {k : Nat} (hnone : ∀ i, k ≤ i → ¬ OccursAt start text i) : Spans start stop text k []
  | unclosed {k i : Nat} (hstart : NextAt start text k i)
      (hnone : ∀ j, i + start.length ≤ j → ¬ OccursAt stop text j) :
      Spans start stop text k [⟨i, .none⟩]
  | closed {k i j : Nat} {rest : List Span} (hstart : NextAt start text k i)
      (hstop : NextAt stop text (i + start.length) j)
      (hrest : Spans start stop text (j + stop.length) rest) :
      Spans start stop text k (⟨i, some (j + stop.length - 1)⟩ :: rest)

theorem OccursAt.add_length_le {marker text : List Char} {i : Nat} (hm : marker ≠ [])
    (h : OccursAt marker text i) : i + marker.length ≤ text.length := by
  have hlen := h.length_le
  have hpos := List.length_pos_iff.2 hm
  rw [List.length_drop] at hlen
  omega

namespace NextAt

variable {marker text : List Char} {k i j : Nat}

theorem of_occurs (h : OccursAt marker text k) : NextAt marker text k k :=
  ⟨le_refl k, h, fun _ hk hj => absurd hj (Nat.not_lt.2 hk)⟩

theorem of_succ (hk : ¬ OccursAt marker text k) (h : NextAt marker text (k + 1) i) :
    NextAt marker text k i := by
  refine ⟨Nat.le_of_succ_le h.le, h.occurs, ?_⟩
  intro j hkj hji
  rcases Nat.eq_or_lt_of_le hkj with rfl | hlt
  · exact hk
  · exact h.least j hlt hji

theorem unique (hi : NextAt marker text k i) (hj : NextAt marker text k j) : i = j := by
  rcases Nat.lt_trichotomy i j with h | h | h
  · exact absurd hi.occurs (hj.least i hi.le h)
  · exact h
  · exact absurd hj.occurs (hi.least j hj.le h)

end NextAt

namespace Spans

variable {start stop text : List Char} {k : Nat}

/-- The markers of a text leave no choice of sections. -/
theorem unique {as bs : List Span} (ha : Spans start stop text k as)
    (hb : Spans start stop text k bs) : as = bs := by
  induction ha generalizing bs with
  | none hnone =>
    cases hb with
    | none => rfl
    | unclosed hi => exact absurd hi.occurs (hnone _ hi.le)
    | closed hi => exact absurd hi.occurs (hnone _ hi.le)
  | unclosed hi hnone =>
    cases hb with
    | none h => exact absurd hi.occurs (h _ hi.le)
    | unclosed hi' => rw [hi.unique hi']
    | closed hi' hj =>
      obtain rfl := hi.unique hi'
      exact absurd hj.occurs (hnone _ hj.le)
  | closed hi hj _ ih =>
    cases hb with
    | none h => exact absurd hi.occurs (h _ hi.le)
    | unclosed hi' h =>
      obtain rfl := hi.unique hi'
      exact absurd hj.occurs (h _ hj.le)
    | closed hi' hj' hrest =>
      obtain rfl := hi.unique hi'
      obtain rfl := hj.unique hj'
      rw [ih hrest]

/-- Sections lie in the text, behind the offset from which they are looked for, and have at least
    two characters. -/
theorem bounds (hstart : start ≠ []) (hstop : stop ≠ []) {spans : List Span}
    (h : Spans start stop text k spans) :
    ∀ s ∈ spans, k ≤ s.first ∧ s.first < text.length ∧
      ∀ l ∈ s.last, s.first < l ∧ l < text.length := by
  have hpos := List.length_pos_iff.2 hstart
  have hpos' := List.length_pos_iff.2 hstop
  induction h with
  | none => simp
  | unclosed hi =>
    have hin := hi.occurs.add_length_le hstart
    have hle := hi.le
    simp only [List.mem_singleton, forall_eq, Option.mem_def, reduceCtorEq, false_imp_iff,
      implies_true, and_true]
    omega
  | closed hi hj _ ih =>
    have hin := hi.occurs.add_length_le hstart
    have hin' := hj.occurs.add_length_le hstop
    have hle := hi.le
    have hle' := hj.le
    simp only [List.mem_cons, forall_eq_or_imp, Option.mem_def, Option.some.injEq, forall_eq']
    refine ⟨by omega, fun s hs => ?_⟩
    obtain ⟨hk, hrest⟩ := ih s hs
    exact ⟨by omega, hrest⟩

/-- Only the last section can go to the end of the text. -/
theorem getLast?_of_last_eq_none {spans : List Span} (h : Spans start stop text k spans) :
    ∀ s ∈ spans, s.last = .none → spans.getLast? = some s := by
  induction h with
  | none => simp
  | unclosed => simp
  | @closed _ _ _ rest _ _ _ ih =>
    intro s hs hlast
    rcases List.mem_cons.1 hs with rfl | hs
    · simp at hlast
    · rw [List.getLast?_cons, ih s hs hlast]
      rfl

end Spans

namespace Section

variable {marker start stop text : List Char} {k : Nat}

theorem contains_iff (s : Section) (p : Position) :
    s.contains p = true ↔ s.start ≤ p ∧ ∀ q ∈ s.stop, p ≤ q := by
  rw [contains, Bool.and_eq_true, decide_eq_true_iff, Option.all_eq_true]
  simp only [decide_eq_true_iff, Option.mem_def]

theorem seek_cons_found {p : Position} {c : Char} {cs : List Char}
    (h : marker <+: c :: cs) : seek marker p (c :: cs) = some (p, (c :: cs).drop marker.length) := by
  rw [seek, if_pos (List.isPrefixOf_iff_prefix.2 h)]

theorem seek_cons_past {p : Position} {c : Char} {cs : List Char}
    (h : ¬ marker <+: c :: cs) : seek marker p (c :: cs) = seek marker (p.next c) cs := by
  rw [seek, if_neg (mt List.isPrefixOf_iff_prefix.1 h)]

/-- What the head and the tail of a text from an offset on are. -/
theorem drop_eq_cons {c : Char} {cs : List Char} (h : text.drop k = c :: cs) :
    text[k]? = some c ∧ text.drop (k + 1) = cs := by
  rw [← List.head?_drop, ← List.tail_drop, h]
  exact ⟨rfl, rfl⟩

/-- A marker that is not found stands nowhere behind the offset it was looked for from. -/
theorem not_occursAt_of_seek (hm : marker ≠ [])
    (h : seek marker (.ofOffset text k) (text.drop k) = none) :
    ∀ i, k ≤ i → ¬ OccursAt marker text i := by
  generalize hcs : text.drop k = cs at h
  induction cs generalizing k with
  | nil =>
    intro i hi hocc
    have hin := hocc.add_length_le hm
    have hpos := List.length_pos_iff.2 hm
    have hend := List.drop_eq_nil_iff.1 hcs
    omega
  | cons c cs ih =>
    obtain ⟨hc, hcs'⟩ := drop_eq_cons hcs
    by_cases hp : marker <+: c :: cs
    · simp [seek_cons_found hp] at h
    · rw [seek_cons_past hp, Position.next_ofOffset hc] at h
      intro i hi
      rcases Nat.eq_or_lt_of_le hi with rfl | hlt
      · rwa [OccursAt, hcs]
      · exact ih hcs' h i hlt

/-- A marker is found where it first stands, and what is left is the text behind it. -/
theorem nextAt_of_seek {q : Position} {rest : List Char}
    (h : seek marker (.ofOffset text k) (text.drop k) = some (q, rest)) :
    ∃ i, NextAt marker text k i ∧ q = .ofOffset text i ∧ rest = text.drop (i + marker.length) := by
  generalize hcs : text.drop k = cs at h
  induction cs generalizing k with
  | nil => simp [seek] at h
  | cons c cs ih =>
    obtain ⟨hc, hcs'⟩ := drop_eq_cons hcs
    by_cases hp : marker <+: c :: cs
    · rw [seek_cons_found hp, ← hcs, List.drop_drop] at h
      obtain ⟨rfl, rfl⟩ := Prod.mk.inj (Option.some.inj h)
      exact ⟨k, .of_occurs (by rwa [OccursAt, hcs]), rfl, rfl⟩
    · rw [seek_cons_past hp, Position.next_ofOffset hc] at h
      obtain ⟨i, hi, hq, hrest⟩ := ih hcs' h
      exact ⟨i, .of_succ (by rwa [OccursAt, hcs]) hi, hq, hrest⟩

/-- The place behind a marker, and that of its last character. -/
theorem after_marker {i : Nat} (h : OccursAt marker text i) :
    (Position.ofOffset text i).after marker = .ofOffset text (i + marker.length) := by
  rw [← Position.after_ofOffset, ← List.prefix_iff_eq_take.1 h]

theorem after_dropLast {i : Nat} (hm : marker ≠ []) (h : OccursAt marker text i) :
    (Position.ofOffset text i).after marker.dropLast = .ofOffset text (i + marker.length - 1) := by
  have hpos := List.length_pos_iff.2 hm
  have hocc : OccursAt marker.dropLast text i := (List.dropLast_prefix marker).trans h
  rw [after_marker hocc, List.length_dropLast, Nat.add_sub_assoc hpos]

/-- The scan from an offset finds the sections from there on. -/
theorem exists_spans_from (hstart : start ≠ []) (hstop : stop ≠ []) (text : List Char) (k : Nat) :
    ∃ spans, Spans start stop text k spans ∧
      scanFrom start stop hstart hstop (.ofOffset text k) (text.drop k) =
        spans.map (·.toSection text) := by
  have hpos := List.length_pos_iff.2 hstart
  have hpos' := List.length_pos_iff.2 hstop
  induction hn : text.length - k using Nat.strong_induction_on generalizing k with
  | _ n ih =>
    rw [scanFrom]
    split
    · next hopened => exact ⟨[], .none (not_occursAt_of_seek hstart hopened), rfl⟩
    next opened inside hopened =>
    obtain ⟨i, hi, rfl, rfl⟩ := nextAt_of_seek hopened
    rw [after_marker hi.occurs]
    split
    · next hclosed => exact ⟨_, .unclosed hi (not_occursAt_of_seek hstop hclosed), rfl⟩
    next q rest hclosed =>
    obtain ⟨j, hj, rfl, rfl⟩ := nextAt_of_seek hclosed
    have hlt : text.length - (j + stop.length) < n := by
      have hin := hj.occurs.add_length_le hstop
      have hle := hi.le
      have hle' := hj.le
      omega
    obtain ⟨spans, hspans, hscan⟩ := ih _ hlt (j + stop.length) rfl
    refine ⟨_, .closed hi hj hspans, ?_⟩
    rw [after_marker hj.occurs, after_dropLast hstop hj.occurs, hscan]
    rfl

/-- The scan of a text finds its sections. -/
theorem exists_spans {markers : Markers} (hstart : markers.start ≠ "") (hstop : markers.stop ≠ "")
    (text : String) :
    ∃ spans, Spans markers.start.toList markers.stop.toList text.toList 0 spans ∧
      scan markers text = spans.map (·.toSection text.toList) := by
  have hne : markers.start.toList ≠ [] ∧ markers.stop.toList ≠ [] := by
    simp [hstart, hstop]
  rw [scan, dif_pos hne]
  exact exists_spans_from hne.1 hne.2 text.toList 0

/-- An empty marker marks nothing. -/
theorem scan_eq_nil {markers : Markers} (h : markers.start = "" ∨ markers.stop = "")
    (text : String) : scan markers text = [] := by
  have hempty : ¬ (markers.start.toList ≠ [] ∧ markers.stop.toList ≠ []) := by
    simpa [or_iff_not_imp_left] using h
  rw [scan, dif_neg hempty]

end Section

end LintRun
