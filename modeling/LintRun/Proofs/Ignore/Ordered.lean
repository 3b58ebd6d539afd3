import LintRun.Proofs.Ignore.Coverage

/-! The order of the ignore sections of a text: each ends behind its start and before the next one
    starts, and only the last one may have no end. So no place lies in two sections
    (`Ordered.countP_le_one`), whether or not a character stands there.

    The order is that of the offsets of markers (`Spans.pairwise`), carried over to places by
    `Position.strictMonoOn_ofOffset`. -/

namespace LintRun

/-- Sections as they stand one behind the other. One that is not the last has an end. -/
structure Ordered (sections : List Section) : Prop where
  /-- A section with an end starts before it. -/
  start_lt : ∀ s ∈ sections, ∀ q ∈ s.stop, s.start < q
  /-- A section ends before each later one starts. -/
  stop_lt : sections.Pairwise fun s later => ∃ q ∈ s.stop, q < later.start

instance (sections : List Section) : Decidable (Ordered sections) :=
  decidable_of_iff ((∀ s ∈ sections, ∀ q ∈ s.stop, s.start < q) ∧
    sections.Pairwise fun s later => ∃ q ∈ s.stop, q < later.start)
    ⟨fun h => ⟨h.1, h.2⟩, fun h => ⟨h.start_lt, h.stop_lt⟩⟩

/-- Sections that share one place are not ordered, nor is anything behind one without an end. -/
example : ¬ Ordered [⟨⟨1, 1⟩, some ⟨2, 5⟩⟩, ⟨⟨2, 5⟩, some ⟨2, 9⟩⟩] ∧
    ¬ Ordered [⟨⟨1, 1⟩, none⟩, ⟨⟨3, 1⟩, none⟩] := by decide

namespace Spans

variable {start stop text : List Char} {k : Nat} {spans : List Span}

/-- A section ends before each later one begins. -/
theorem pairwise (hstart : start ≠ []) (hstop : stop ≠ []) (h : Spans start stop text k spans) :
    spans.Pairwise fun s later => ∃ l ∈ s.last, l < later.first := by
  have hpos := List.length_pos_iff.2 hstop
  induction h with
  | none => exact .nil
  | unclosed => exact List.pairwise_singleton ..
  | closed _ _ hrest ih =>
    refine .cons (fun later hlater => ⟨_, rfl, ?_⟩) ih
    have hbehind := (hrest.bounds hstart hstop later hlater).1
    omega

/-- The places of sections are ordered as their offsets are. -/
theorem ordered (hstart : start ≠ []) (hstop : stop ≠ []) (h : Spans start stop text k spans) :
    Ordered (spans.map (·.toSection text)) := by
  have hbounds := h.bounds hstart hstop
  constructor
  · intro placed hplaced q hq
    obtain ⟨s, hs, rfl⟩ := List.mem_map.1 hplaced
    obtain ⟨l, hl, rfl⟩ := Option.map_eq_some_iff.1 hq
    obtain ⟨-, hfirst, hlast⟩ := hbounds s hs
    exact (Position.ofOffset_lt_iff hfirst (hlast l hl).2).2 (hlast l hl).1
  · refine List.pairwise_map.2 ((h.pairwise hstart hstop).imp_of_mem ?_)
    rintro s later hs hlater ⟨l, hl, hlt⟩
    refine ⟨_, Option.mem_map_of_mem _ hl, ?_⟩
    exact (Position.ofOffset_lt_iff ((hbounds s hs).2.2 l hl).2 (hbounds later hlater).2.1).2 hlt

end Spans

/-- No place lies in two ordered sections. -/
theorem Ordered.countP_le_one {sections : List Section} (h : Ordered sections) (p : Position) :
    sections.countP (·.contains p) ≤ 1 := by
  obtain ⟨-, hpairwise⟩ := h
  induction hpairwise with
  | nil => exact Nat.zero_le 1
  | @cons s later hs _ ih =>
    by_cases hp : s.contains p = true
    · -- the place is at or before the end of this section, and all others start behind that
      have hnone : later.countP (·.contains p) = 0 := by
        refine List.countP_eq_zero.2 fun s' hs' hp' => ?_
        obtain ⟨q, hq, hlt⟩ := hs s' hs'
        have hle := ((Section.contains_iff s p).1 hp).2 q hq
        exact absurd ((Section.contains_iff s' p).1 hp').1 (not_le.2 (hle.trans_lt hlt))
      rw [List.countP_cons, if_pos hp, hnone]
    · rwa [List.countP_cons, if_neg hp]

/-- The sections of a text are ordered, so every place lies in at most one of them. -/
theorem scan_ordered (markers : Markers) (content : String) :
    Ordered (Section.scan markers content) ∧
      ∀ p : Position, (Section.scan markers content).countP (·.contains p) ≤ 1 := by
  have hordered : Ordered (Section.scan markers content) := by
    by_cases hempty : markers.start = "" ∨ markers.stop = ""
    · rw [Section.scan_eq_nil hempty]
      exact ⟨by simp, .nil⟩
    · obtain ⟨hstart, hstop⟩ := not_or.1 hempty
      obtain ⟨spans, hspans, hscan⟩ := Section.exists_spans hstart hstop content
      rw [hscan]
      exact hspans.ordered (by simpa using hstart) (by simpa using hstop)
  exact ⟨hordered, hordered.countP_le_one⟩

end LintRun
