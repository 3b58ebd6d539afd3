import LintRun.Glob.Expand
import LintRun.Proofs.Files.Denoted

/-! What lies below a path, and how it is spelled.

    `below` lists the names that lead from a directory to all it holds, each once, and `under` puts
    them behind the path of the directory. Such a spelling leads where the names lead
    (`resolve_under`) and its components are those of the directory and the names
    (`components_under`), save that a lone `.` is left out. -/

namespace LintRun

namespace Path

variable {names : List String}

theorem filterMap_bodyComponent (h : ∀ name ∈ names, FileTree.isName name = true) :
    names.filterMap bodyComponent = names.map .name := by
  rw [List.filterMap_congr fun name hname => bodyComponent_of_isName (h name hname),
    List.filterMap_eq_map']

section names

variable (hne : names ≠ []) (h : ∀ name ∈ names, FileTree.isName name = true)

include hne h

theorem segments_names : (⟨"/".intercalate names⟩ : Path).segments = names :=
  segments_intercalate hne fun name hname => (FileTree.isName_iff.1 (h name hname)).2.2.2.1

theorem isAbsolute_names : (⟨"/".intercalate names⟩ : Path).isAbsolute = false := by
  obtain ⟨first, rest, rfl⟩ := List.exists_cons_of_ne_nil hne
  obtain ⟨hempty, -, -, hsep, -⟩ := FileTree.isName_iff.1 (h first (by simp))
  obtain ⟨c, s, hfirst⟩ := List.exists_cons_of_ne_nil (mt String.toList_eq_nil_iff.1 hempty)
  have hc : c ≠ '/' := by
    rintro rfl
    simp [hfirst] at hsep
  by_cases hrest : rest = []
  · simp [isAbsolute, hrest, hfirst, hc]
  · simp [isAbsolute, String.intercalate_cons_of_ne_nil hrest, hfirst, hc]

theorem components_names : (⟨"/".intercalate names⟩ : Path).components = names.map .name := by
  obtain ⟨first, rest, rfl⟩ := List.exists_cons_of_ne_nil hne
  have hcurrent := (FileTree.isName_iff.1 (h first (by simp))).2.1
  rw [components, segments_names hne h, isAbsolute_names hne h, ← filterMap_bodyComponent h]
  simp [hcurrent, bodyComponent_of_isName (h first (by simp))]

end names

end Path

namespace Glob

open FileTree

variable {t : FileTree} {p : Place} {e : Entry} {base : Path} {names : List String}

/-! ### Names below a directory -/

theorem mem_below (wf : t.WellFormed) (h : t.resolve base = .ok p) :
    names ∈ t.below base ↔ names ≠ [] ∧ ∃ e, t.entry? (p ++ names) = some e := by
  rw [below, h]
  simp only [List.mem_mergeSort, List.mem_filterMap, Prod.exists]
  constructor
  · rintro ⟨q, e, hmem, hnames⟩
    rw [Option.ite_none_right_eq_some] at hnames
    obtain ⟨hq, hdrop⟩ := hnames
    rw [Bool.and_eq_true, List.isPrefixOf_iff_prefix] at hq
    obtain ⟨⟨more, rfl⟩, hne⟩ := hq
    obtain rfl : more = names := by simpa using hdrop
    refine ⟨?_, e, wf.entry?_of_mem hmem⟩
    rintro rfl
    simp at hne
  · rintro ⟨hne, e, he⟩
    refine ⟨p ++ names, e, mem_entries (by simp [hne]) he, ?_⟩
    simp [hne]

theorem nodup_below (wf : t.WellFormed) (h : t.resolve base = .ok p) : (t.below base).Nodup := by
  rw [below, h]
  -- Two places that go on from `p` by the same names are the same place.
  refine (List.mergeSort_perm _ _).nodup_iff.2 ?_
  rw [List.Nodup, List.pairwise_filterMap]
  refine (List.pairwise_map.1 wf.places_nodup).imp ?_
  rintro ⟨q, e⟩ ⟨q', e'⟩ hne names hnames names' hnames' rfl
  rw [Option.ite_none_right_eq_some, Bool.and_eq_true, List.isPrefixOf_iff_prefix] at hnames hnames'
  obtain ⟨⟨⟨more, rfl⟩, -⟩, hmore⟩ := hnames
  obtain ⟨⟨⟨more', rfl⟩, -⟩, hmore'⟩ := hnames'
  simp only [List.drop_left, Option.some.injEq] at hmore hmore'
  exact hne (by rw [hmore, hmore'])

/-! ### Spelling -/

/-- A path that is where relative patterns begin leads there. -/
theorem place_of_isCurrent (hcur : isCurrent base = true) (h : t.resolve base = .ok p) :
    p = t.here := by
  rw [isCurrent, decide_eq_true_eq] at hcur
  obtain ⟨hrel, hloose⟩ := Path.loose_of_components_eq_current hcur
  have hwalk := walk_of_resolve h
  rw [origin, hrel] at hwalk
  exact eq_of_walk_loose hloose hwalk

theorem under_of_isCurrent (h : isCurrent base = true) :
    under base names = ⟨"/".intercalate names⟩ := if_pos h

theorem under_of_not_isCurrent (h : isCurrent base = false) :
    under base names = base.join ⟨"/".intercalate names⟩ := if_neg (by simp [h])

section names

variable (hne : names ≠ []) (hnames : ∀ name ∈ names, isName name = true)

include hne hnames

theorem segments_under (hbase : base.isEmpty = false) :
    (under base names).segments = (if isCurrent base then [] else base.trail) ++ names := by
  cases hcur : isCurrent base with
  | true => simp [under_of_isCurrent hcur, Path.segments_names hne hnames]
  | false =>
    rw [under_of_not_isCurrent hcur,
      Path.segments_join hbase (Path.isAbsolute_names hne hnames),
      Path.segments_names hne hnames]
    rfl

/-- The components of what lies below a path are its own and the names. -/
theorem components_under (hbase : base.isEmpty = false) :
    (under base names).components =
      (if isCurrent base then [] else base.components) ++ names.map .name := by
  cases hcur : isCurrent base with
  | true => simp [under_of_isCurrent hcur, Path.components_names hne hnames]
  | false =>
    rw [under_of_not_isCurrent hcur,
      Path.components_join hbase (Path.isAbsolute_names hne hnames),
      Path.segments_names hne hnames, Path.filterMap_bodyComponent hnames]
    rfl

theorem fileName?_under (hbase : base.isEmpty = false) :
    (under base names).fileName? = names.getLast? := by
  obtain ⟨above, name, rfl⟩ := List.eq_nil_or_concat' names |>.resolve_left hne
  rw [Path.fileName?, components_under hne hnames hbase]
  simp [← List.append_assoc]

/-- The spelling of what lies below a path is taken unless it is too long. -/
theorem admits_under (h : Admits base) :
    Admits (under base names) ↔ (under base names).text.utf8ByteSize < pathLimit := by
  have hsegments := segments_under hne hnames h.2.1
  refine ⟨fun hadmits => hadmits.2.2, fun hsize => ⟨fun hnul => ?_, ?_, hsize⟩⟩
  · rw [← Path.exists_mem_segments (by decide), hsegments] at hnul
    obtain ⟨piece, hpiece, hnul⟩ := hnul
    rcases List.mem_append.1 hpiece with hpiece | hpiece
    · refine h.1 ((Path.exists_mem_segments (by decide) base).1 ⟨piece, ?_, hnul⟩)
      split at hpiece
      · cases hpiece
      · exact Path.mem_segments_of_mem_trail hpiece
    · exact (isName_iff.1 (hnames piece hpiece)).2.2.2.2.1 hnul
  · rw [Bool.eq_false_iff]
    intro hempty
    rw [Path.segments_of_isEmpty hempty] at hsegments
    obtain ⟨above, name, rfl⟩ := List.eq_nil_or_concat' names |>.resolve_left hne
    rw [← List.append_assoc] at hsegments
    obtain rfl : "" = name := by simpa using congrArg List.getLast? hsegments
    exact (isName_iff.1 (hnames "" (by simp))).1 rfl

end names

/-- Names below a directory lead where they lead from its place. -/
theorem resolve_under (wf : t.WellFormed) (h : t.resolve base = .ok p) (hne : names ≠ [])
    (hentry : t.entry? (p ++ names) = some e) (hadmits : Admits (under base names)) :
    t.resolve (under base names) = .ok (p ++ names) := by
  have hnames := wf.isName_of_eq_some hentry
  cases hcur : isCurrent base with
  | true =>
    rw [under_of_isCurrent hcur] at hadmits ⊢
    rw [resolve_eq hadmits, origin, Path.isAbsolute_names hne hnames,
      Path.segments_names hne hnames, ← place_of_isCurrent hcur h]
    exact wf.walk_names hentry
  | false =>
    rw [under_of_not_isCurrent hcur] at hadmits ⊢
    rw [resolve_join h (Path.isAbsolute_names hne hnames) hadmits,
      Path.segments_names hne hnames]
    exact wf.walk_names hentry

end Glob

end LintRun
