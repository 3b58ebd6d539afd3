import LintRun.Proofs.Ignore.Spans
import Mathlib.Data.Nat.Find

/-! Which places are ignored, told by offsets.

    A scan compares lines and columns, and a linter may report places at which no character stands.
    `scan_covered` says what comes of that for every place: it counts which characters the sections
    cover, on both sides of the place if it lies between two of them. -/

namespace LintRun

/-- How the places of a text with some sections are ignored. -/
structure Covered (text : List Char) (spans : List Span) (ignored : Position → Prop) : Prop where
  /-- The place of a character is ignored when a section covers the character. -/
  character : ∀ i < text.length, (ignored (.ofOffset text i) ↔ ∃ s ∈ spans, s.Covers i)
  /-- A place between two characters is ignored when one section covers both. -/
  between : ∀ i, i + 1 < text.length → ∀ p, .ofOffset text i < p → p < .ofOffset text (i + 1) →
    (ignored p ↔ ∃ s ∈ spans, s.Covers i ∧ s.Covers (i + 1))
  /-- A place before all characters is never ignored. -/
  before : ∀ p, (∀ i < text.length, p < .ofOffset text i) → ¬ ignored p
  /-- A place behind all characters is ignored when the last section has no end. -/
  behind : ∀ p, (∀ i < text.length, .ofOffset text i < p) →
    (ignored p ↔ ∃ s, spans.getLast? = some s ∧ s.last = none)

namespace Position

variable {text : List Char} {i j : Nat}

theorem ofOffset_le_iff (hi : i < text.length) (hj : j < text.length) :
    ofOffset text i ≤ ofOffset text j ↔ i ≤ j :=
  (strictMonoOn_ofOffset text).le_iff_le (Nat.le_of_lt hi) (Nat.le_of_lt hj)

theorem ofOffset_lt_iff (hi : i < text.length) (hj : j < text.length) :
    ofOffset text i < ofOffset text j ↔ i < j :=
  (strictMonoOn_ofOffset text).lt_iff_lt (Nat.le_of_lt hi) (Nat.le_of_lt hj)

/-- Every place is that of a character, between two neighbours, before all or behind all. -/
theorem located (text : List Char) (p : Position) :
    (∃ i < text.length, p = ofOffset text i) ∨
      (∃ i, i + 1 < text.length ∧ ofOffset text i < p ∧ p < ofOffset text (i + 1)) ∨
      (∀ i < text.length, p < ofOffset text i) ∨ (∀ i < text.length, ofOffset text i < p) := by
  by_cases h : ∃ i, i < text.length ∧ p < ofOffset text i
  · -- the first character behind the place, and the one before that
    classical
    obtain ⟨hi, hp⟩ := Nat.find_spec h
    have hleast := fun j => Nat.find_min h (m := j)
    rcases hk : Nat.find h with - | k <;> rw [hk] at hi hp hleast
    · refine Or.inr (Or.inr (Or.inl fun j hj => ?_))
      exact hp.trans_le ((ofOffset_le_iff hi hj).2 (Nat.zero_le j))
    · have hlt : k < text.length := Nat.lt_of_succ_lt hi
      have hle : ofOffset text k ≤ p := not_lt.1 fun hlt' => hleast k k.lt_succ_self ⟨hlt, hlt'⟩
      rcases hle.eq_or_lt with heq | hlt'
      · exact Or.inl ⟨k, hlt, heq.symm⟩
      · exact Or.inr (Or.inl ⟨k, hi, hlt', hp⟩)
  · have hall : ∀ i < text.length, ofOffset text i ≤ p := by
      intro i hi
      exact not_lt.1 fun hlt => h ⟨i, hi, hlt⟩
    by_cases hchar : ∃ i < text.length, p = ofOffset text i
    · exact Or.inl hchar
    · refine Or.inr (Or.inr (Or.inr fun i hi => ?_))
      exact (hall i hi).lt_of_ne fun heq => hchar ⟨i, hi, heq.symm⟩

end Position

namespace Span

variable {text : List Char} {s : Span} {p : Position}

theorem contains_toSection :
    (s.toSection text).contains p = true ↔
      .ofOffset text s.first ≤ p ∧ ∀ l ∈ s.last, p ≤ .ofOffset text l := by
  simp [Section.contains_iff, toSection]

section
variable (hfirst : s.first < text.length) (hlast : ∀ l ∈ s.last, l < text.length)
include hfirst hlast

theorem contains_ofOffset {i : Nat} (hi : i < text.length) :
    (s.toSection text).contains (.ofOffset text i) = true ↔ s.Covers i := by
  rw [contains_toSection, Position.ofOffset_le_iff hfirst hi, Covers]
  refine and_congr_right fun _ => forall₂_congr fun l hl => ?_
  exact Position.ofOffset_le_iff hi (hlast l hl)

theorem contains_between {i : Nat} (hi : i + 1 < text.length) (hlow : .ofOffset text i < p)
    (hhigh : p < .ofOffset text (i + 1)) :
    (s.toSection text).contains p = true ↔ s.Covers i ∧ s.Covers (i + 1) := by
  have hi' := Nat.lt_of_succ_lt hi
  rw [contains_toSection, Covers, Covers]
  constructor
  · rintro ⟨hle, hends⟩
    have hle' := (Position.ofOffset_lt_iff hfirst hi).1 (hle.trans_lt hhigh)
    have hends' : ∀ l ∈ s.last, i < l := fun l hl =>
      (Position.ofOffset_lt_iff hi' (hlast l hl)).1 (hlow.trans_le (hends l hl))
    exact ⟨⟨Nat.le_of_lt_succ hle', fun l hl => Nat.le_of_lt (hends' l hl)⟩, Nat.le_of_lt hle', hends'⟩
  · rintro ⟨⟨hle, -⟩, -, hends⟩
    refine ⟨((Position.ofOffset_le_iff hfirst hi').2 hle).trans hlow.le, fun l hl => ?_⟩
    exact hhigh.le.trans ((Position.ofOffset_le_iff hi (hlast l hl)).2 (hends l hl))

theorem contains_behind (hp : ∀ i < text.length, .ofOffset text i < p) :
    (s.toSection text).contains p = true ↔ s.last = none := by
  rw [contains_toSection, Option.eq_none_iff_forall_not_mem]
  refine ⟨fun h l hl => ?_, fun h => ⟨(hp _ hfirst).le, fun l hl => absurd hl (h l)⟩⟩
  exact absurd (h.2 l hl) (not_le.2 (hp l (hlast l hl)))

end

theorem not_contains_before (hfirst : s.first < text.length)
    (hp : ∀ i < text.length, p < .ofOffset text i) : ¬ (s.toSection text).contains p = true :=
  fun h => absurd (contains_toSection.1 h).1 (not_le.2 (hp _ hfirst))

end Span

/-- A scan ignores a place as the sections of the text cover the characters around it. -/
theorem scan_covered {markers : Markers} (hstart : markers.start ≠ "") (hstop : markers.stop ≠ "")
    (content : String) :
    ∃ spans : List Span,
      (∀ l, Spans markers.start.toList markers.stop.toList content.toList 0 l ↔ l = spans) ∧
      Covered content.toList spans
        (fun p => isIgnored (Section.scan markers content) p = true) ∧
      ∀ p : Position, (∃ i < content.toList.length, p = .ofOffset content.toList i) ∨
        (∃ i, i + 1 < content.toList.length ∧ .ofOffset content.toList i < p ∧
          p < .ofOffset content.toList (i + 1)) ∨
        (∀ i < content.toList.length, p < .ofOffset content.toList i) ∨
        (∀ i < content.toList.length, .ofOffset content.toList i < p) := by
  obtain ⟨spans, hspans, hscan⟩ := Section.exists_spans hstart hstop content
  have hbounds := hspans.bounds (by simpa using hstart) (by simpa using hstop)
  have hfirst : ∀ s ∈ spans, s.first < content.toList.length := fun s hs => (hbounds s hs).2.1
  have hlast : ∀ s ∈ spans, ∀ l ∈ s.last, l < content.toList.length :=
    fun s hs l hl => ((hbounds s hs).2.2 l hl).2
  have hignored : ∀ p, isIgnored (Section.scan markers content) p = true ↔
      ∃ s ∈ spans, (s.toSection content.toList).contains p = true := by
    simp [hscan, isIgnored]
  refine ⟨spans, fun l => ⟨fun hl => hl.unique hspans, ?_⟩, ⟨?_, ?_, ?_, ?_⟩, Position.located _⟩
  · rintro rfl
    exact hspans
  · intro i hi
    rw [hignored]
    exact exists_congr fun s => and_congr_right fun hs =>
      Span.contains_ofOffset (hfirst s hs) (hlast s hs) hi
  · intro i hi p hlow hhigh
    rw [hignored]
    exact exists_congr fun s => and_congr_right fun hs =>
      Span.contains_between (hfirst s hs) (hlast s hs) hi hlow hhigh
  · intro p hp h
    obtain ⟨s, hs, hcontains⟩ := (hignored p).1 h
    exact Span.not_contains_before (hfirst s hs) hp hcontains
  · intro p hp
    rw [hignored]
    constructor
    · rintro ⟨s, hs, hcontains⟩
      have hnone := (Span.contains_behind (hfirst s hs) (hlast s hs) hp).1 hcontains
      exact ⟨s, hspans.getLast?_of_last_eq_none s hs hnone, hnone⟩
    · rintro ⟨s, hs, hnone⟩
      have hmem := List.mem_of_getLast? hs
      exact ⟨s, hmem, (Span.contains_behind (hfirst s hmem) (hlast s hmem) hp).2 hnone⟩

/-- A section that ends on the next line, and one that does not end. -/
theorem scan_covered_brackets :
    ("[" ≠ "" ∧ "]" ≠ "") ∧ Covered "x[\n]y[".toList [⟨1, some 3⟩, ⟨5, none⟩]
      (fun p => isIgnored (Section.scan ⟨"[", "]"⟩ "x[\n]y[") p = true) := by
  obtain ⟨spans, hspans, hcovered, -⟩ :=
    @scan_covered ⟨"[", "]"⟩ (by decide) (by decide) "x[\n]y["
  have hopened : NextAt "[".toList "x[\n]y[".toList 0 1 :=
    .of_succ (by decide) (.of_occurs (by decide))
  have hclosed : NextAt "]".toList "x[\n]y[".toList 2 3 :=
    .of_succ (by decide) (.of_occurs (by decide))
  have hagain : NextAt "[".toList "x[\n]y[".toList 4 5 :=
    .of_succ (by decide) (.of_occurs (by decide))
  have hopen : ∀ j, 6 ≤ j → ¬ OccursAt "]".toList "x[\n]y[".toList j := by
    intro j hj hoccurs
    have hle : j + 1 ≤ 6 := hoccurs.add_length_le (by decide)
    omega
  have hbrackets := (hspans _).1 (.closed hopened hclosed (.unclosed hagain hopen))
  exact ⟨by decide, hbrackets ▸ hcovered⟩

end LintRun
