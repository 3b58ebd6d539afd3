import LintRun.Proofs.Ignore.Appended

/-! What lines above a text do to its ignore sections: they move down by as many lines, and those of
    the lines above come first.

    The search for markers must not notice the seam. No start marker goes over it, since it has no
    line feed and the text above ends with one (`OccursAt.of_wholeLines`), and all sections above
    have ended. So the search comes to the seam outside of all sections and goes on as it would at
    the beginning of the text below (`Spans.append`), where the places are those of the text below,
    some lines down (`Position.ofOffset_below`). -/

namespace LintRun

/-- A text that is empty or ends with a line feed. -/
def WholeLines (text : List Char) : Prop := text = [] ∨ text.getLast? = some '\n'

instance (text : List Char) : Decidable (WholeLines text) :=
  inferInstanceAs (Decidable (text = [] ∨ text.getLast? = some '\n'))

/-! ### Places below a seam -/

namespace Position

variable {above : List Char} {p q : Position} {k i : Nat}

/-- The place in the same column some lines down. -/
def down (k : Nat) (p : Position) : Position := ⟨p.line + k, p.column⟩

@[simp] theorem down_le_down_iff : p.down k ≤ q.down k ↔ p ≤ q := by
  simp only [le_iff, down]
  omega

theorem next_down (k : Nat) (p : Position) (c : Char) : (p.down k).next c = (p.next c).down k := by
  by_cases hc : c = '\n'
  · simp only [next, if_pos hc, down, Nat.add_right_comm]
  · simp only [next, if_neg hc, down]

theorem after_down (k : Nat) (p : Position) (cs : List Char) :
    (p.down k).after cs = (p.after cs).down k := by
  induction cs generalizing p with
  | nil => rfl
  | cons c cs ih => rw [after_cons, next_down, ih, after_cons]

/-- Whole lines lead to the first column of the next line. -/
theorem after_wholeLines (h : WholeLines above) :
    origin.after above = origin.down (above.count '\n') := by
  rcases h with rfl | h
  · rfl
  · obtain ⟨lines, rfl⟩ := List.getLast?_eq_some_iff.1 h
    rw [after_append, after_cons, after_nil, after_origin, List.count_append,
      List.count_singleton_self]
    simp only [next, if_true, ofPrefix, down, origin, Nat.add_assoc]

/-- Below whole lines stand the places of the text below, as many lines down. -/
theorem ofOffset_below (h : WholeLines above) (text : List Char) (i : Nat) :
    ofOffset (above ++ text) (above.length + i) = (ofOffset text i).down (above.count '\n') := by
  rw [ofOffset, List.take_length_add_append, ← after_origin, after_append, after_wholeLines h,
    after_down, after_origin, ofOffset]

/-- The characters of whole lines stand in as many lines as there are line feeds. -/
theorem line_ofOffset_le (h : WholeLines above) (hi : i < above.length) :
    (ofOffset above i).line ≤ above.count '\n' := by
  have hlt : ofOffset above i < ofOffset above above.length :=
    strictMonoOn_ofOffset above (Nat.le_of_lt hi) (Nat.le_refl _) hi
  have hend : ofOffset above above.length = origin.down (above.count '\n') := by
    rw [ofOffset, List.take_length, ← after_origin, after_wholeLines h]
  rw [hend, lt_iff] at hlt
  simp only [ofOffset, ofPrefix, down, origin] at hlt ⊢
  omega

end Position

namespace Section

/-- The section with the same columns some lines down. -/
def down (k : Nat) (s : Section) : Section := ⟨s.start.down k, s.stop.map (·.down k)⟩

theorem contains_down (k : Nat) (s : Section) (p : Position) :
    (s.down k).contains (p.down k) = s.contains p := by
  rw [Bool.eq_iff_iff, contains_iff, contains_iff]
  simp [down]

end Section

/-! ### Markers below a seam -/

section
variable {marker above text : List Char} {k i : Nat}

theorem occursAt_behind :
    OccursAt marker (above ++ text) (above.length + i) ↔ OccursAt marker text i := by
  rw [OccursAt, OccursAt, List.drop_length_add_append]

/-- A marker without a line feed does not go over the end of a line. -/
theorem OccursAt.of_wholeLines (hmarker : '\n' ∉ marker) (h : WholeLines above)
    (hocc : OccursAt marker (above ++ text) i) (hi : i < above.length) :
    OccursAt marker above i := by
  rw [OccursAt, List.drop_append_of_le_length (Nat.le_of_lt hi)] at hocc
  rcases List.prefix_or_prefix_of_prefix hocc (List.prefix_append ..) with hin | hover
  · exact hin
  -- a marker that went over the seam would have the last character above in it
  have hlast : (above.drop i).getLast? = some '\n' := by
    rw [List.getLast?_drop, if_neg (Nat.not_le.2 hi)]
    exact h.resolve_left (List.ne_nil_of_length_pos (Nat.zero_lt_of_lt hi))
  exact absurd (hover.subset (List.mem_of_getLast? hlast)) hmarker

theorem NextAt.behind (h : NextAt marker text k i) (above : List Char) :
    NextAt marker (above ++ text) (above.length + k) (above.length + i) := by
  refine ⟨Nat.add_le_add_left h.le _, occursAt_behind.2 h.occurs, fun j hkj hji => ?_⟩
  obtain ⟨j, rfl⟩ := Nat.exists_eq_add_of_le (Nat.le_of_add_right_le hkj)
  rw [occursAt_behind]
  exact h.least j (by omega) (by omega)

/-- Offsets at which no marker stands do not change which one is next. -/
theorem NextAt.of_le {m : Nat} (hkm : k ≤ m)
    (hnone : ∀ j, k ≤ j → j < m → ¬ OccursAt marker text j)
    (h : NextAt marker text m i) : NextAt marker text k i := by
  refine ⟨hkm.trans h.le, h.occurs, fun j hkj hji => ?_⟩
  rcases Nat.lt_or_ge j m with hlt | hge
  · exact hnone j hkj hlt
  · exact h.least j hge hji

end

/-! ### Sections below a seam -/

/-- The span of a text that stands behind some more characters. -/
def Span.behind (n : Nat) (s : Span) : Span := ⟨n + s.first, s.last.map (n + ·)⟩

theorem Span.toSection_behind {above : List Char} (h : WholeLines above) (text : List Char)
    (s : Span) :
    (s.behind above.length).toSection (above ++ text) =
      (s.toSection text).down (above.count '\n') := by
  simp only [toSection, behind, Section.down, Option.map_map, Function.comp_def,
    Position.ofOffset_below h]

namespace Spans

variable {start stop above text : List Char} {k : Nat} {spans : List Span}

/-- The sections of a text stand behind other text just as well. -/
theorem behind (hstop : stop ≠ []) (h : Spans start stop text k spans) (above : List Char) :
    Spans start stop (above ++ text) (above.length + k) (spans.map (·.behind above.length)) := by
  have hnone {marker : List Char} {k : Nat} (h : ∀ i, k ≤ i → ¬ OccursAt marker text i) :
      ∀ i, above.length + k ≤ i → ¬ OccursAt marker (above ++ text) i := by
    intro i hi
    obtain ⟨j, rfl⟩ := Nat.exists_eq_add_of_le (Nat.le_of_add_right_le hi)
    rw [occursAt_behind]
    exact h j (by omega)
  induction h with
  | none h => exact .none (hnone h)
  | @unclosed k i hi h =>
    refine .unclosed (hi.behind above) ?_
    rw [Nat.add_assoc]
    exact hnone h
  | @closed k i j rest hi hj _ ih =>
    have hj' := hj.behind above
    have hpos := List.length_pos_iff.2 hstop
    have hlast : above.length + (j + stop.length - 1) = above.length + j + stop.length - 1 := by
      omega
    rw [← Nat.add_assoc] at hj' ih
    rw [List.map_cons, Span.behind, Option.map_some, hlast]
    exact .closed (hi.behind above) hj' ih

theorem of_le {m : Nat} (hkm : k ≤ m) (hnone : ∀ j, k ≤ j → j < m → ¬ OccursAt start text j)
    (h : Spans start stop text m spans) : Spans start stop text k spans := by
  cases h with
  | none h =>
    refine .none fun i hi => ?_
    rcases Nat.lt_or_ge i m with hlt | hge
    · exact hnone i hi hlt
    · exact h i hge
  | unclosed hi h => exact .unclosed (hi.of_le hkm hnone) h
  | closed hi hj hrest => exact .closed (hi.of_le hkm hnone) hj hrest

/-- Sections that have all ended are followed by those from the seam on. -/
theorem append (hstart : start ≠ []) (hstop : stop ≠ []) {more : List Span}
    (hseam : ∀ i < above.length, OccursAt start (above ++ text) i → OccursAt start above i)
    (h : Spans start stop above k spans) (hk : k ≤ above.length)
    (hended : ∀ s ∈ spans, s.last ≠ .none)
    (hmore : Spans start stop (above ++ text) above.length more) :
    Spans start stop (above ++ text) k (spans ++ more) := by
  induction h with
  | none hnone => exact hmore.of_le hk fun j hkj hj hocc => hnone j hkj (hseam j hj hocc)
  | unclosed => exact absurd rfl (hended _ List.mem_cons_self)
  | closed hi hj _ ih =>
    refine .closed (hi.append hstart text) (hj.append hstop text) ?_
    exact ih (hj.occurs.add_length_le hstop) fun s hs => hended s (List.mem_cons_of_mem _ hs)

end Spans

/-! ### Texts below whole lines -/

section
variable {markers : Markers} {above text : String} (hlines : WholeLines above.toList)
include hlines

/-- The sections of the whole text are those of the lines above, if these have ended, and those of
    the text below, moved down. -/
theorem Section.scan_below (hstart : markers.start ≠ "") (hstop : markers.stop ≠ "")
    (hline : '\n' ∉ markers.start.toList) (hended : ∀ s ∈ scan markers above, s.stop ≠ none) :
    scan markers (above ++ text) =
      scan markers above ++ (scan markers text).map (·.down (above.toList.count '\n')) := by
  have hstart' : markers.start.toList ≠ [] := by simpa using hstart
  have hstop' : markers.stop.toList ≠ [] := by simpa using hstop
  obtain ⟨first, hfirst, habove⟩ := exists_spans hstart hstop above
  obtain ⟨rest, hrest, htext⟩ := exists_spans hstart hstop text
  obtain ⟨all, hall, hscan⟩ := exists_spans hstart hstop (above ++ text)
  rw [String.toList_append] at hall hscan
  have hended' : ∀ s ∈ first, s.last ≠ none := by
    intro s hs hnone
    refine hended (s.toSection above.toList) (habove ▸ List.mem_map_of_mem hs) ?_
    rw [Span.toSection, hnone, Option.map_none]
  have hjoined := hfirst.append hstart' hstop'
    (fun i hi hocc => hocc.of_wholeLines hline hlines hi) (Nat.zero_le _) hended'
    (hrest.behind hstop' above.toList)
  obtain rfl := hall.unique hjoined
  rw [hscan, habove, htext, List.map_append, List.map_map, List.map_map]
  refine congrArg₂ _ (List.map_congr_left fun s hs => ?_) (List.map_congr_left fun s _ => ?_)
  · obtain ⟨-, hin, hin'⟩ := hfirst.bounds hstart' hstop' s hs
    exact Span.toSection_append hin (fun l hl => (hin' l hl).2) text.toList
  · exact Span.toSection_behind hlines text.toList s

/-- Sections of whole lines that have ended hold no place below these lines. -/
theorem Section.isIgnored_below (hstart : markers.start ≠ "") (hstop : markers.stop ≠ "")
    (hended : ∀ s ∈ scan markers above, s.stop ≠ none) {p : Position}
    (hp : above.toList.count '\n' < p.line) : isIgnored (scan markers above) p = false := by
  obtain ⟨spans, hspans, hscan⟩ := exists_spans hstart hstop above
  rw [hscan] at hended ⊢
  refine List.any_eq_false.2 fun placed hplaced hcontains => ?_
  obtain ⟨q, hq⟩ := Option.ne_none_iff_exists'.1 (hended placed hplaced)
  obtain ⟨s, hs, rfl⟩ := List.mem_map.1 hplaced
  obtain ⟨l, hl, rfl⟩ := Option.map_eq_some_iff.1 hq
  have hin := (hspans.bounds (by simpa using hstart) (by simpa using hstop) s hs).2.2 l hl
  have hle := Position.le_iff.1 ((Span.contains_toSection.1 hcontains).2 l hl)
  have hline := Position.line_ofOffset_le hlines hin.2
  omega

end

theorem isIgnored_append (as bs : List Section) (p : Position) :
    isIgnored (as ++ bs) p = (isIgnored as p || isIgnored bs p) := List.any_append

theorem isIgnored_map_down (k : Nat) (sections : List Section) (p : Position) :
    isIgnored (sections.map (·.down k)) (p.down k) = isIgnored sections p := by
  simp only [isIgnored, List.any_map, Function.comp_def, Section.contains_down]

/-- Whole lines above a text in which every section has ended move the sections of the text down by
    as many lines, and add their own in front. What is ignored of the text stays the same. -/
theorem scan_shifted (markers : Markers) (above text : String) (hlines : WholeLines above.toList)
    (hline : '\n' ∉ markers.start.toList)
    (hended : ∀ s ∈ Section.scan markers above, s.stop ≠ none) :
    let k := above.toList.count '\n'
    Section.scan markers (above ++ text) =
        Section.scan markers above ++ (Section.scan markers text).map (·.down k) ∧
      ∀ line column, 1 ≤ line →
        isIgnored (Section.scan markers (above ++ text)) ⟨line + k, column⟩ =
          isIgnored (Section.scan markers text) ⟨line, column⟩ := by
  by_cases hempty : markers.start = "" ∨ markers.stop = ""
  · simp [Section.scan_eq_nil hempty, isIgnored]
  obtain ⟨hstart, hstop⟩ := not_or.1 hempty
  have hscan : Section.scan markers (above ++ text) = _ :=
    Section.scan_below hlines hstart hstop hline hended
  intro k
  refine ⟨hscan, fun line column hl => ?_⟩
  have hp : k < (Position.mk (line + k) column).line := Nat.lt_add_of_pos_left hl
  have habove := Section.isIgnored_below hlines hstart hstop hended hp
  rw [hscan, isIgnored_append, habove, Bool.false_or]
  exact isIgnored_map_down k _ ⟨line, column⟩

/-- A section that ends with the line feed before the seam, and a text that begins with an end
    marker and has a section without an end. -/
theorem scan_shifted_seam :
    let markers : Markers := ⟨"[", "]\n"⟩
    (WholeLines "a[b\n]\n".toList ∧ '\n' ∉ markers.start.toList ∧
      ∀ s ∈ Section.scan markers "a[b\n]\n", s.stop ≠ none) ∧
    Section.scan markers ("a[b\n]\n" ++ "]\nc[d") =
      [⟨⟨1, 2⟩, some ⟨2, 2⟩⟩, ⟨⟨4, 2⟩, none⟩] ∧
    ∀ line column, 1 ≤ line →
      isIgnored (Section.scan markers ("a[b\n]\n" ++ "]\nc[d")) ⟨line + 2, column⟩ =
        isIgnored (Section.scan markers "]\nc[d") ⟨line, column⟩ := by
  intro markers
  have hyps : WholeLines "a[b\n]\n".toList ∧ '\n' ∉ markers.start.toList ∧
      ∀ s ∈ Section.scan markers "a[b\n]\n", s.stop ≠ none := by decide +kernel
  obtain ⟨hscan, hignored⟩ := scan_shifted markers "a[b\n]\n" "]\nc[d" hyps.1 hyps.2.1 hyps.2.2
  exact ⟨hyps, hscan.trans (by decide +kernel), hignored⟩

end LintRun
