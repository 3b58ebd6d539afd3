import LintRun.Path.Basic
import Mathlib.Data.List.Basic

/-! The pieces of paths, and what a join does to them.

    A path whose text ends with a separator has an empty piece at its end, which is no component and
    which a join fills. `trail` is what there is before it: a join appends the pieces of the second
    path to the trail of the first one (`segments_join`), and its components to those of the first
    one (`components_join`). -/

namespace LintRun.Path

/-! ### Pieces of a text -/

theorem segmentsOf_eq_splitOn (s : List Char) : segmentsOf s = s.splitOn '/' := by
  induction s with
  | nil => rfl
  | cons c s ih =>
    rw [segmentsOf, ih, List.splitOn_cons_eq_if_modifyHead]
    by_cases hc : c = '/'
    · simp [hc]
    · rw [if_neg hc, if_neg (by simpa using hc)]
      rcases h : s.splitOn '/' with - | ⟨first, rest⟩
      · exact absurd h (List.splitOn_ne_nil _ _)
      · rfl

theorem segmentsOf_ne_nil (s : List Char) : segmentsOf s ≠ [] := by
  rw [segmentsOf_eq_splitOn]
  exact List.splitOn_ne_nil _ _

theorem sep_notMem_segmentsOf (s : List Char) : ∀ piece ∈ segmentsOf s, '/' ∉ piece := by
  induction s with
  | nil => simp [segmentsOf]
  | cons c s ih =>
    rw [segmentsOf]
    split
    · simpa using ih
    · next hc =>
      split
      · next h => exact absurd h (segmentsOf_ne_nil s)
      · next first rest h => simpa [h, Ne.symm hc] using ih

theorem segmentsOf_of_notMem {s : List Char} (h : '/' ∉ s) : segmentsOf s = [s] := by
  rw [segmentsOf_eq_splitOn, List.splitOn_eq_singleton h]

theorem segmentsOf_append (s t : List Char) :
    segmentsOf (s ++ '/' :: t) = segmentsOf s ++ segmentsOf t := by
  simp only [segmentsOf_eq_splitOn]
  exact List.splitOnP_append_cons s t (by simp)

/-- No character is lost but separators. -/
theorem exists_mem_segmentsOf {c : Char} (hc : c ≠ '/') (s : List Char) :
    (∃ piece ∈ segmentsOf s, c ∈ piece) ↔ c ∈ s := by
  induction s with
  | nil => simp [segmentsOf]
  | cons d s ih =>
    rw [segmentsOf, List.mem_cons, ← ih]
    split
    · next hd => simp [hd, hc]
    · split
      · next h => exact absurd h (segmentsOf_ne_nil s)
      · next first rest h => simp [h, or_assoc]

theorem intercalate_segmentsOf (s : List Char) : ['/'].intercalate (segmentsOf s) = s := by
  rw [segmentsOf_eq_splitOn, List.intercalate_splitOn]

theorem segmentsOf_intercalate {pieces : List (List Char)} (hne : pieces ≠ [])
    (h : ∀ piece ∈ pieces, '/' ∉ piece) : segmentsOf (['/'].intercalate pieces) = pieces := by
  rw [segmentsOf_eq_splitOn, List.splitOn_intercalate _ h hne]

/-! ### Pieces of a path -/

theorem exists_mem_segments {c : Char} (hc : c ≠ '/') (p : Path) :
    (∃ piece ∈ p.segments, c ∈ piece.toList) ↔ c ∈ p.text.toList := by
  simp [segments, exists_mem_segmentsOf hc]

/-- The pieces behind the root, or all pieces of a relative path. -/
theorem segmentsOf_relative (p : Path) :
    segmentsOf (if p.isAbsolute then p.text.toList.drop 1 else p.text.toList) =
      (if p.isAbsolute then p.segments.tail else p.segments).map String.toList := by
  cases habs : p.isAbsolute with
  | false => simp [segments, Function.comp_def]
  | true =>
    obtain ⟨s, hs⟩ := List.head?_eq_some_iff.1 (of_decide_eq_true habs)
    simp [segments, hs, segmentsOf, Function.comp_def]

theorem segments_intercalate {names : List String} (hne : names ≠ [])
    (h : ∀ name ∈ names, '/' ∉ name.toList) :
    (⟨"/".intercalate names⟩ : Path).segments = names := by
  have hsep : "/".toList = ['/'] := rfl
  rw [segments, String.toList_intercalate, hsep,
    segmentsOf_intercalate (by simpa using hne) (by simpa using h), List.map_map]
  simp [Function.comp_def]

/-- The pieces of a path without the empty one behind a separator at its end. -/
def trail (p : Path) : List String :=
  if p.text.toList.getLast? = some '/' then p.segments.dropLast else p.segments

theorem segments_piece {s : String} (h : '/' ∉ s.toList) : (⟨s⟩ : Path).segments = [s] := by
  simp [segments, segmentsOf_of_notMem h]

theorem isAbsolute_piece {s : String} (h : '/' ∉ s.toList) : (⟨s⟩ : Path).isAbsolute = false := by
  rw [isAbsolute, decide_eq_false_iff_not]
  exact fun hhead => h (List.mem_of_mem_head? hhead)

theorem segments_ne_nil (p : Path) : p.segments ≠ [] := by
  simpa [segments] using segmentsOf_ne_nil p.text.toList

/-- Behind the trail of a path there is nothing, or an empty piece. -/
theorem segments_eq_trail (p : Path) : p.segments = p.trail ∨ p.segments = p.trail ++ [""] := by
  rw [trail]
  split
  · next h =>
    obtain ⟨s, hs⟩ := List.getLast?_eq_some_iff.1 h
    refine Or.inr ?_
    rw [segments, hs, segmentsOf_append]
    simp [segmentsOf]
  · exact Or.inl rfl

theorem mem_segments_of_mem_trail {p : Path} {s : String} (h : s ∈ p.trail) : s ∈ p.segments := by
  rcases segments_eq_trail p with heq | heq <;> simp [heq, h]

theorem segments_of_isEmpty {p : Path} (h : p.isEmpty = true) : p.segments = [""] := by
  rw [isEmpty, String.isEmpty_iff] at h
  simp [segments, h, segmentsOf]

theorem trail_ne_nil (p : Path) : p.trail ≠ [] := by
  rw [trail]
  split
  · next h =>
    obtain ⟨s, hs⟩ := List.getLast?_eq_some_iff.1 h
    simp [segments, hs, segmentsOf_append, segmentsOf, segmentsOf_ne_nil]
  · exact segments_ne_nil p

theorem sep_notMem_trail (p : Path) : ∀ piece ∈ p.trail, '/' ∉ piece.toList := by
  intro piece hpiece
  obtain ⟨cs, hcs, rfl⟩ := List.mem_map.1 (mem_segments_of_mem_trail hpiece)
  simpa using sep_notMem_segmentsOf _ cs hcs

theorem exists_trail_of_isAbsolute {p : Path} (h : p.isAbsolute = true) :
    ∃ rest, p.trail = "" :: rest := by
  rw [isAbsolute, decide_eq_true_eq] at h
  obtain ⟨s, hs⟩ := List.head?_eq_some_iff.1 h
  have hsegments : p.segments = "" :: (segmentsOf s).map String.ofList := by
    simp [segments, hs, segmentsOf]
  rw [trail, hsegments]
  split
  · exact ⟨_, List.dropLast_cons_of_ne_nil (by simpa using segmentsOf_ne_nil s)⟩
  · exact ⟨_, rfl⟩

/-- The trail spells the path, save a separator at its end. -/
theorem sublist_of_trail (p : Path) :
    (['/'].intercalate (p.trail.map String.toList)).Sublist p.text.toList := by
  rw [trail]
  split
  · next h =>
    obtain ⟨s, hs⟩ := List.getLast?_eq_some_iff.1 h
    simp [segments, hs, segmentsOf_append, segmentsOf, Function.comp_def, intercalate_segmentsOf]
  · simp [segments, Function.comp_def, intercalate_segmentsOf]

/-! ### Joins -/

/-- The characters of a path up to where a join puts those of the second one. -/
def opened (p : Path) : List Char :=
  if p.text.toList.getLast? = some '/' then p.text.toList else p.text.toList ++ ['/']

theorem sublist_opened (p : Path) : p.text.toList.Sublist p.opened := by
  rw [opened]
  split
  · exact List.Sublist.refl _
  · exact List.sublist_append_left ..

theorem opened_piece {s : String} (h : '/' ∉ s.toList) : (⟨s⟩ : Path).opened = s.toList ++ ['/'] :=
  if_neg fun hlast => h (List.mem_of_getLast? hlast)

/-- Before the second path of a join there is the trail of the first one, and a separator. -/
theorem segmentsOf_opened (p : Path) (s : List Char) :
    (segmentsOf (p.opened ++ s)).map String.ofList =
      p.trail ++ (segmentsOf s).map String.ofList := by
  rw [opened, trail]
  split
  · next h =>
    obtain ⟨body, hbody⟩ := List.getLast?_eq_some_iff.1 h
    simp [segments, hbody, segmentsOf_append, segmentsOf]
  · simp [segments, segmentsOf_append]

section join

variable {p q : Path} (hp : p.isEmpty = false) (hq : q.isAbsolute = false)

include hp hq

theorem toList_join : (p.join q).text.toList = p.opened ++ q.text.toList := by
  have hsep : "/".toList = ['/'] := rfl
  rw [join, if_neg (by simp [hp, hq]), opened]
  split <;> simp [hsep]

theorem isEmpty_join : (p.join q).isEmpty = false := by
  rw [isEmpty, Bool.eq_false_iff]
  intro hempty
  have hnil := toList_join hp hq
  rw [String.isEmpty_iff.1 hempty, String.toList_empty, opened] at hnil
  split at hnil <;> simp_all [isEmpty]

theorem segments_join : (p.join q).segments = p.trail ++ q.segments := by
  rw [segments, toList_join hp hq, segmentsOf_opened]
  rfl

theorem isAbsolute_join : (p.join q).isAbsolute = p.isAbsolute := by
  obtain ⟨c, s, hs⟩ : ∃ c s, p.text.toList = c :: s := by
    refine List.exists_cons_of_ne_nil fun hnil => ?_
    rw [String.toList_eq_nil_iff] at hnil
    rw [isEmpty, hnil] at hp
    cases hp
  rw [isAbsolute, toList_join hp hq, opened]
  split <;> simp [isAbsolute, hs]

/-- A join appends components. -/
theorem components_join :
    (p.join q).components = p.components ++ q.segments.filterMap bodyComponent := by
  obtain ⟨first, rest, htrail⟩ := List.exists_cons_of_ne_nil p.trail_ne_nil
  have hbody : bodyComponent "" = none := rfl
  rw [components, components, segments_join hp hq, isAbsolute_join hp hq]
  rcases segments_eq_trail p with hsegments | hsegments <;> rw [hsegments, htrail] <;>
    simp [hbody]

end join

/-! ### Components -/

theorem bodyComponent_ne_current {s : String} : bodyComponent s ≠ some .current := by
  rw [bodyComponent]
  grind

theorem bodyComponent_ne_root {s : String} : bodyComponent s ≠ some .root := by
  rw [bodyComponent]
  grind

theorem bodyComponent_eq_none_iff {s : String} : bodyComponent s = none ↔ s = "" ∨ s = "." := by
  rw [bodyComponent]
  grind

/-- A path that is a lone `.` has no other piece that counts. -/
theorem loose_of_components_eq_current {p : Path} (h : p.components = [.current]) :
    p.isAbsolute = false ∧ p.segments.filterMap bodyComponent = [] := by
  obtain ⟨first, rest, hsegments⟩ := List.exists_cons_of_ne_nil p.segments_ne_nil
  rw [components, hsegments] at h
  cases habs : p.isAbsolute with
  | true => simp [habs] at h
  | false =>
    refine ⟨rfl, ?_⟩
    by_cases hfirst : first = "."
    · simpa [habs, hfirst, hsegments, bodyComponent] using h
    · have hmem : Component.current ∈ (first :: rest).filterMap bodyComponent := by
        rw [List.filterMap_cons]
        cases hbody : bodyComponent first <;> simp_all
      obtain ⟨s, -, hs⟩ := List.mem_filterMap.1 hmem
      exact absurd hs bodyComponent_ne_current

end LintRun.Path
