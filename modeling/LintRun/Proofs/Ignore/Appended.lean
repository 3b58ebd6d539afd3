import LintRun.Proofs.Ignore.Coverage

/-! What text at the end of a file does to the ignore sections before it. A section that has ended
    stays as it is, since where a marker first stands is settled by the text up to its end
    (`NextAt.append`). A section without an end stays open or ends in the new text. The only section
    that can begin in the old text anew is one whose start marker goes over the seam.

    `Grown` says so of two lists of sections, `Spans.grown` proves it of the sections of a text and
    of a longer one by induction on the former, and `scan_append` tells what it means for the places
    that are ignored. -/

namespace LintRun

/-! ### Markers at a seam -/

section
variable {marker text : List Char} {k i : Nat}

theorem OccursAt.append (h : OccursAt marker text i) (more : List Char) :
    OccursAt marker (text ++ more) i := by
  rw [OccursAt, List.drop_append]
  exact h.trans (List.prefix_append ..)

/-- A marker that ends before a seam does not depend on what is behind it. -/
theorem OccursAt.of_append {more : List Char} (h : OccursAt marker (text ++ more) i)
    (hin : i + marker.length ≤ text.length) : OccursAt marker text i := by
  rw [OccursAt, List.drop_append] at h
  refine List.prefix_of_prefix_length_le h (List.prefix_append ..) ?_
  rw [List.length_drop]
  omega

/-- A marker that stands in the longer text only goes over the seam. -/
theorem OccursAt.length_lt {more : List Char} (h : OccursAt marker (text ++ more) i)
    (hnot : ¬ OccursAt marker text i) : text.length < i + marker.length :=
  Nat.lt_of_not_le fun hin => hnot (h.of_append hin)

theorem NextAt.append (hm : marker ≠ []) (h : NextAt marker text k i) (more : List Char) :
    NextAt marker (text ++ more) k i := by
  refine ⟨h.le, h.occurs.append more, fun j hkj hji hocc => ?_⟩
  have hin := h.occurs.add_length_le hm
  exact h.least j hkj hji (hocc.of_append (by omega))

end

/-! ### Sections at a seam -/

/-- How the sections of a text go on in a longer one: the text has `seam` characters and the start
    marker has `width`. -/
inductive Grown (seam width : Nat) : List Span → List Span → Prop where
  | ended {more : List Span} (hmore : ∀ s ∈ more, seam < s.first + width) : Grown seam width [] more
  | unended {first : Nat} {last : Option Nat} {more : List Span} (hlast : ∀ l ∈ last, seam ≤ l)
      (hmore : ∀ s ∈ more, seam ≤ s.first) :
      Grown seam width [⟨first, none⟩] (⟨first, last⟩ :: more)
  | closed {first last : Nat} {old new : List Span} (hrest : Grown seam width old new) :
      Grown seam width (⟨first, some last⟩ :: old) (⟨first, some last⟩ :: new)

namespace Spans

variable {start stop text more : List Char} {k : Nat}

/-- Each section begins with a start marker. -/
theorem occursAt_first {spans : List Span} (h : Spans start stop text k spans) :
    ∀ s ∈ spans, k ≤ s.first ∧ OccursAt start text s.first := by
  induction h with
  | none => simp
  | unclosed hi => simp [hi.le, hi.occurs]
  | closed hi hj _ ih =>
    refine List.forall_mem_cons.2 ⟨⟨hi.le, hi.occurs⟩, fun s hs => ?_⟩
    have hle := hi.le
    have hle' := hj.le
    obtain ⟨hk, hocc⟩ := ih s hs
    exact ⟨by omega, hocc⟩

/-- The sections of a text go on in every longer one. -/
theorem grown (hstart : start ≠ []) (hstop : stop ≠ []) {old new : List Span}
    (hold : Spans start stop text k old) (hnew : Spans start stop (text ++ more) k new) :
    Grown text.length start.length old new := by
  induction hold generalizing new with
  | none hnone =>
    refine .ended fun s hs => ?_
    obtain ⟨hk, hocc⟩ := hnew.occursAt_first s hs
    exact hocc.length_lt (hnone _ hk)
  | unclosed hi hnone =>
    have hi' := hi.append hstart more
    cases hnew with
    | none h => exact absurd hi'.occurs (h _ hi.le)
    | unclosed h =>
      obtain rfl := hi'.unique h
      exact .unended (by simp) (by simp)
    | closed h hj hrest =>
      obtain rfl := hi'.unique h
      -- the end marker stands in the longer text only
      have hseam := hj.occurs.length_lt (hnone _ hj.le)
      refine .unended (fun l hl => ?_) fun s hs => ?_
      · obtain rfl := Option.some.inj hl
        omega
      · have hbehind := (hrest.occursAt_first s hs).1
        omega
  | closed hi hj _ ih =>
    have hi' := hi.append hstart more
    have hj' := hj.append hstop more
    cases hnew with
    | none h => exact absurd hi'.occurs (h _ hi.le)
    | unclosed h hnone =>
      obtain rfl := hi'.unique h
      exact absurd hj'.occurs (hnone _ hj.le)
    | closed h h' hrest =>
      obtain rfl := hi'.unique h
      obtain rfl := hj'.unique h'
      exact .closed (ih hrest)

end Spans

namespace Grown

variable {seam width i : Nat} {old new : List Span}

/-- What was covered stays covered. -/
theorem covers (h : Grown seam width old new) (hi : i < seam) (hcovers : ∃ s ∈ old, s.Covers i) :
    ∃ s ∈ new, s.Covers i := by
  induction h with
  | ended => simp at hcovers
  | @unended first last more hlast =>
    obtain ⟨s, hs, hfirst, -⟩ := hcovers
    obtain rfl := List.mem_singleton.1 hs
    exact ⟨_, List.mem_cons_self, hfirst, fun l hl => (Nat.le_of_lt hi).trans (hlast l hl)⟩
  | closed _ ih =>
    obtain ⟨s, hs, hs'⟩ := hcovers
    rcases List.mem_cons.1 hs with rfl | hs
    · exact ⟨_, List.mem_cons_self, hs'⟩
    · obtain ⟨t, ht, ht'⟩ := ih ⟨s, hs, hs'⟩
      exact ⟨t, List.mem_cons_of_mem _ ht, ht'⟩

/-- What is covered anew lies within a start marker of the seam. -/
theorem lt_of_covers (h : Grown seam width old new) (hi : i < seam)
    (hnot : ¬ ∃ s ∈ old, s.Covers i) (hcovers : ∃ s ∈ new, s.Covers i) : seam < i + width := by
  obtain ⟨s, hs, hcovers⟩ := hcovers
  have hle := hcovers.1
  induction h with
  | ended hmore =>
    have hfirst := hmore s hs
    omega
  | unended _ hmore =>
    rcases List.mem_cons.1 hs with rfl | hs
    · exact absurd ⟨_, List.mem_singleton_self _, hle, by simp⟩ hnot
    · have hfirst := hmore s hs
      omega
  | closed _ ih =>
    rcases List.mem_cons.1 hs with rfl | hs
    · exact absurd ⟨_, List.mem_cons_self, hcovers⟩ hnot
    · refine ih (fun ⟨t, ht, ht'⟩ => hnot ⟨t, List.mem_cons_of_mem _ ht, ht'⟩) hs

end Grown

/-! ### Places at a seam -/

theorem Position.ofOffset_append {text : List Char} {i : Nat} (hi : i ≤ text.length)
    (more : List Char) : ofOffset (text ++ more) i = ofOffset text i := by
  rw [ofOffset, ofOffset, List.take_append_of_le_length hi]

/-- A section within a text has the same places in a longer one. -/
theorem Span.toSection_append {text : List Char} {s : Span} (hfirst : s.first < text.length)
    (hlast : ∀ l ∈ s.last, l < text.length) (more : List Char) :
    s.toSection (text ++ more) = s.toSection text := by
  rw [toSection, toSection, Position.ofOffset_append (Nat.le_of_lt hfirst)]
  congr 1
  exact Option.map_congr fun l hl => Position.ofOffset_append (Nat.le_of_lt (hlast l hl)) more

/-- The sections with an end come first again, and then the one without an end, wherever it ends. -/
theorem Grown.exists_later {text : List Char} {width : Nat} {old new : List Span}
    (h : Grown text.length width old new)
    (hbounds : ∀ s ∈ old, s.first < text.length ∧ ∀ l ∈ s.last, l < text.length)
    (more : List Char) :
    ∃ later, new.map (·.toSection (text ++ more)) =
        (old.map (·.toSection text)).filter (·.stop.isSome) ++ later ∧
      ∀ s ∈ old.map (·.toSection text), s.stop = none →
        ∃ stop rest, later = ⟨s.start, stop⟩ :: rest := by
  induction h with
  | ended => exact ⟨_, rfl, by simp⟩
  | @unended first last rest =>
    have hfirst : first < text.length := (hbounds _ List.mem_cons_self).1
    refine ⟨_, rfl, fun s hs _ => ?_⟩
    obtain rfl := List.mem_singleton.1 hs
    simp only [Span.toSection, Position.ofOffset_append (Nat.le_of_lt hfirst)]
    exact ⟨_, _, rfl⟩
  | closed _ ih =>
    obtain ⟨⟨hfirst, hlast⟩, hbounds⟩ := List.forall_mem_cons.1 hbounds
    obtain ⟨later, hnew, hlater⟩ := ih hbounds
    refine ⟨later, ?_,
      List.forall_mem_cons.2 ⟨fun hnone => absurd hnone (Option.some_ne_none _), hlater⟩⟩
    rw [List.map_cons, hnew, Span.toSection_append hfirst hlast]
    rfl

/-- What a scan ignores of a text, told by the offsets of its sections. -/
theorem Spans.isIgnored_iff {start stop text : List Char} (hstart : start ≠ []) (hstop : stop ≠ [])
    {spans : List Span} (h : Spans start stop text 0 spans) {i : Nat} (hi : i < text.length) :
    isIgnored (spans.map (·.toSection text)) (.ofOffset text i) = true ↔
      ∃ s ∈ spans, s.Covers i := by
  have hbounds := h.bounds hstart hstop
  simp only [isIgnored, List.any_map, List.any_eq_true, Function.comp_apply]
  exact exists_congr fun s => and_congr_right fun hs =>
    Span.contains_ofOffset (hbounds s hs).2.1 (fun l hl => ((hbounds s hs).2.2 l hl).2) hi

/-- Text at the end of a file leaves the sections that have ended as they are, and a section without
    an end keeps its start. No place that was ignored counts again. The places that are ignored anew
    are those of the last characters, fewer than the start marker has. -/
theorem scan_append (markers : Markers) (content suffix : String) :
    let before := Section.scan markers content
    let after := Section.scan markers (content ++ suffix)
    let closed := before.filter (·.stop.isSome)
    closed <+: after ∧
    (∀ s ∈ before, s.stop = none → ∃ stop rest, after = closed ++ ⟨s.start, stop⟩ :: rest) ∧
    ∀ i < content.toList.length,
      let was := isIgnored before (.ofOffset content.toList i) = true
      let now := isIgnored after (.ofOffset (content ++ suffix).toList i) = true
      (was → now) ∧
      (now → ¬ was → content.toList.length - (markers.start.toList.length - 1) ≤ i) := by
  by_cases hempty : markers.start = "" ∨ markers.stop = ""
  · simp [Section.scan_eq_nil hempty, isIgnored]
  obtain ⟨hstart, hstop⟩ := not_or.1 hempty
  have hstart' : markers.start.toList ≠ [] := by simpa using hstart
  have hstop' : markers.stop.toList ≠ [] := by simpa using hstop
  obtain ⟨old, hold, hbefore⟩ := Section.exists_spans hstart hstop content
  obtain ⟨new, hnew, hafter⟩ := Section.exists_spans hstart hstop (content ++ suffix)
  rw [String.toList_append] at hnew hafter
  have hgrown := hold.grown hstart' hstop' hnew
  obtain ⟨later, hmap, hlater⟩ := hgrown.exists_later
    (fun s hs => ⟨(hold.bounds hstart' hstop' s hs).2.1,
      fun l hl => ((hold.bounds hstart' hstop' s hs).2.2 l hl).2⟩) suffix.toList
  rw [← hbefore, ← hafter] at hmap
  rw [← hbefore] at hlater
  intro before after closed
  refine ⟨⟨later, hmap.symm⟩, fun s hs hnone => ?_, fun i hi => ?_⟩
  · obtain ⟨stop, rest, rfl⟩ := hlater s hs hnone
    exact ⟨stop, rest, hmap⟩
  · have hi' : i < (content.toList ++ suffix.toList).length := by
      rw [List.length_append]
      omega
    simp only [before, after, hbefore, hafter, String.toList_append,
      hold.isIgnored_iff hstart' hstop' hi, hnew.isIgnored_iff hstart' hstop' hi']
    refine ⟨hgrown.covers hi, fun hcovers hnot => ?_⟩
    have hseam := hgrown.lt_of_covers hi hnot hcovers
    omega

end LintRun
