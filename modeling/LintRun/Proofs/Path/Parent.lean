import LintRun.Proofs.Path.Segments
import Mathlib.Data.List.DropRight

/-! The path without its last component, which is what one step up from a path is.

    A step up is taken on the pieces: those at the end that are no component go, then one that is,
    then again those that are none (`componentsFrom_dropComponent`). So the path above has the same
    components but for the last one (`components_parent?`), its pieces are the first ones of the
    path (`exists_isPrefix_of_parent?`), and it begins at the root if the path does. -/

namespace LintRun.Path

/-! ### Pieces without those at the end -/

variable {first : Bool} {pieces : List String}

/-- The components of some pieces; `first` tells whether the first piece of a path is there. -/
def componentsFrom (first : Bool) (pieces : List String) : List Component :=
  (if first && pieces.head? = some "." then [.current] else []) ++ pieces.filterMap bodyComponent

/-- Whether a piece is no component behind the first one. -/
def isLoose (s : String) : Bool := (bodyComponent s).isNone

theorem filterMap_rdropWhile (pieces : List String) :
    (pieces.rdropWhile isLoose).filterMap bodyComponent = pieces.filterMap bodyComponent := by
  induction pieces using List.reverseRecOn with
  | nil => rfl
  | append_singleton init last ih =>
    rw [List.rdropWhile_concat]
    split
    · next hlast => simp [ih, Option.isNone_iff_eq_none.1 hlast]
    · rfl

/-- Without the pieces at the end that are no component there is nothing left, at most a lone dot at
    the beginning, or what ends with a component. -/
theorem dropLoose_eq (first : Bool) (pieces : List String) : dropLoose first pieces =
    if pieces.rdropWhile isLoose = [] then
      if first && pieces.head? = some "." then ["."] else []
    else pieces.rdropWhile isLoose := by
  have hkept : pieces.reverse.dropWhile (fun s => (bodyComponent s).isNone) =
      (pieces.rdropWhile isLoose).reverse := (List.reverse_reverse _).symm
  rw [dropLoose, hkept]
  rcases pieces.rdropWhile isLoose |>.eq_nil_or_concat with h | ⟨init, last, h⟩ <;> simp [h]

theorem dropLoose_isPrefix (first : Bool) (pieces : List String) :
    dropLoose first pieces <+: pieces := by
  rw [dropLoose_eq]
  split
  · split
    · next hdot =>
      have hhead : pieces.head? = some "." := of_decide_eq_true (Bool.and_eq_true_iff.1 hdot).2
      obtain ⟨rest, rfl⟩ := List.head?_eq_some_iff.1 hhead
      exact List.prefix_append ["."] rest
    · exact List.nil_prefix
  · exact List.rdropWhile_prefix isLoose pieces

theorem componentsFrom_dropLoose (first : Bool) (pieces : List String) :
    componentsFrom first (dropLoose first pieces) = componentsFrom first pieces := by
  have hbody := filterMap_rdropWhile pieces
  rw [dropLoose_eq]
  split
  · next hnil =>
    rw [hnil] at hbody
    split
    · next hdot => simp_all [componentsFrom, bodyComponent]
    · next hdot => simp_all [componentsFrom]
  · next hne =>
    obtain ⟨rest, hrest⟩ := List.rdropWhile_prefix isLoose pieces
    have hhead : (pieces.rdropWhile isLoose).head? = pieces.head? := by
      conv_rhs => rw [← hrest]
      rw [List.head?_append_of_ne_nil _ hne]
    rw [componentsFrom, componentsFrom, hbody, hhead]

theorem dropLoose_cases (first : Bool) (pieces : List String) :
    dropLoose first pieces = [] ∨ dropLoose first pieces = ["."] ∨
      ∃ init last, dropLoose first pieces = init ++ [last] ∧ isLoose last = false := by
  rw [dropLoose_eq]
  split
  · split <;> simp
  · next hne =>
    refine Or.inr (Or.inr ⟨_, _, (List.dropLast_concat_getLast hne).symm, ?_⟩)
    simpa using List.rdropWhile_last_not isLoose pieces hne

theorem exists_componentsFrom_concat {last : String} (h : isLoose last = false) (first : Bool)
    (init : List String) :
    ∃ c, componentsFrom first (init ++ [last]) = componentsFrom first init ++ [c] := by
  cases hlast : bodyComponent last with
  | none => simp [isLoose, hlast] at h
  | some c =>
    have hdot : last ≠ "." := by
      rintro rfl
      cases hlast
    refine ⟨c, ?_⟩
    rw [componentsFrom, componentsFrom, List.filterMap_append]
    cases init <;> simp [hlast, hdot]

/-- A step up takes the last component away. -/
theorem componentsFrom_dropComponent (first : Bool) (pieces : List String) :
    componentsFrom first (dropComponent first pieces) = (componentsFrom first pieces).dropLast := by
  rw [← componentsFrom_dropLoose first pieces, dropComponent]
  rcases dropLoose_cases first pieces with h | h | ⟨init, last, h, hlast⟩
  · simp [h, componentsFrom]
  · cases first <;> simp [h, componentsFrom, bodyComponent]
  · obtain ⟨c, hc⟩ := exists_componentsFrom_concat hlast first init
    rw [h, hc, List.dropLast_concat]
    split
    · next hnil => simp at hnil
    · have hdot : init ++ [last] ≠ ["."] := by
        rintro heq
        obtain rfl : last = "." := by simpa using congrArg List.getLast? heq
        cases hlast
      rw [if_neg hdot, List.dropLast_concat, componentsFrom_dropLoose]

theorem dropComponent_isPrefix (first : Bool) (pieces : List String) :
    dropComponent first pieces <+: pieces := by
  rw [dropComponent]
  split
  · exact List.nil_prefix
  · split
    · exact List.nil_prefix
    · exact (dropLoose_isPrefix ..).trans ((List.dropLast_prefix _).trans (dropLoose_isPrefix ..))

/-! ### The path above -/

variable {p q : Path}

theorem components_eq (p : Path) : p.components =
    if p.isAbsolute then .root :: componentsFrom false p.segments.tail
    else componentsFrom true p.segments := by
  obtain ⟨s, rest, hsegments⟩ := List.exists_cons_of_ne_nil p.segments_ne_nil
  rw [components, hsegments]
  cases habs : p.isAbsolute with
  | true => simp [componentsFrom]
  | false =>
    by_cases hdot : s = "."
    · simp [componentsFrom, hdot, bodyComponent]
    · cases hbody : bodyComponent s <;> simp [componentsFrom, hdot, hbody]

theorem sep_notMem_segments (p : Path) : ∀ piece ∈ p.segments, '/' ∉ piece.toList := by
  intro piece hpiece
  obtain ⟨cs, hcs, rfl⟩ := List.mem_map.1 hpiece
  simpa using sep_notMem_segmentsOf _ cs hcs

theorem exists_segments_of_isAbsolute (h : p.isAbsolute = true) :
    ∃ rest, p.segments = "" :: rest := by
  obtain ⟨s, hs⟩ := List.head?_eq_some_iff.1 (of_decide_eq_true h)
  exact ⟨_, by rw [segments, hs, segmentsOf, if_pos rfl]; rfl⟩

/-- What a path has before the components that its pieces are: the root or a dot. -/
def front (p : Path) : List Component :=
  if p.isAbsolute then [.root] else if p.segments.head? = some "." then [.current] else []

theorem components_eq_front (p : Path) :
    p.components = p.front ++ p.segments.filterMap bodyComponent := by
  rw [components_eq, front]
  cases habs : p.isAbsolute with
  | true =>
    obtain ⟨rest, hrest⟩ := exists_segments_of_isAbsolute habs
    rw [hrest]
    rfl
  | false => simp [componentsFrom]

theorem segments_root (s : String) :
    (⟨"/" ++ s⟩ : Path).segments = "" :: (⟨s⟩ : Path).segments := by
  simp [segments, segmentsOf]

/-- The pieces of a path that is spelled by some names. No names leave one empty piece. -/
def spelled (names : List String) : List String := if names = [] then [""] else names

theorem segments_spelled {names : List String} (h : ∀ name ∈ names, '/' ∉ name.toList) :
    (⟨"/".intercalate names⟩ : Path).segments = spelled names := by
  rw [spelled]
  split
  · next hnil => rw [hnil]; rfl
  · next hne => exact segments_intercalate hne h

theorem componentsFrom_spelled (first : Bool) (names : List String) :
    componentsFrom first (spelled names) = componentsFrom first names := by
  rw [spelled]
  split
  · next hnil => simp [hnil, componentsFrom, bodyComponent]
  · rfl

theorem spelled_eq (names : List String) :
    spelled names = names ∨ spelled names = names ++ [""] := by
  rw [spelled]
  split
  · next hnil => exact Or.inr (by rw [hnil]; rfl)
  · exact Or.inl rfl

/-- Before and behind a separator there are pieces of their own. -/
theorem intercalate_isPrefix {sep : List Char} {before all : List (List Char)}
    (h : before <+: all) : sep.intercalate before <+: sep.intercalate all := by
  obtain ⟨more, rfl⟩ := h
  induction before with
  | nil => exact List.nil_prefix
  | cons s before ih =>
    rcases before with - | ⟨s', before⟩
    · rcases more with - | ⟨s', more⟩
      · exact List.prefix_rfl
      · rw [List.singleton_append, List.intercalate_singleton, List.intercalate_cons_cons,
          List.append_assoc]
        exact List.prefix_append ..
    · rw [List.cons_append, List.cons_append, List.intercalate_cons_cons,
        List.intercalate_cons_cons, List.prefix_append_right_inj]
      exact ih

section

variable (h : p.parent? = some q)

include h

/-- What a path above another one is. -/
theorem eq_of_parent? : p.components ≠ [] ∧ p.components ≠ [.root] ∧ q =
    if p.isAbsolute then ⟨"/" ++ "/".intercalate (dropComponent false p.segments.tail)⟩
    else ⟨"/".intercalate (dropComponent true p.segments)⟩ := by
  rw [parent?] at h
  split at h
  · cases h
  · cases h
  · next c hroot hlast =>
    refine ⟨fun hnil => ?_, fun hone => ?_, ?_⟩
    · simp [hnil] at hlast
    · have hc : .root = c := by simpa [hone] using hlast
      exact hroot hc.symm
    · split at h
      · next habs => rw [if_pos habs, Option.some.inj h]
      · next habs => rw [if_neg habs, Option.some.inj h]

/-- The path above is a first part of the text of a path. -/
theorem text_isPrefix_of_parent? : q.text.toList <+: p.text.toList := by
  obtain ⟨-, -, rfl⟩ := eq_of_parent? h
  have hsep : "/".toList = ['/'] := rfl
  split
  · next habs =>
    obtain ⟨s, hs⟩ := List.head?_eq_some_iff.1 (of_decide_eq_true habs)
    have htail : p.segments.tail.map String.toList = segmentsOf s := by
      simp [segments, hs, segmentsOf, Function.comp_def]
    rw [hs, ← intercalate_segmentsOf s, ← htail, String.toList_append, String.toList_intercalate,
      hsep, List.singleton_append, List.cons_prefix_cons]
    exact ⟨rfl, intercalate_isPrefix ((dropComponent_isPrefix false _).map _)⟩
  · have hsegments : p.segments.map String.toList = segmentsOf p.text.toList := by
      simp [segments, Function.comp_def]
    rw [← intercalate_segmentsOf p.text.toList, ← hsegments, String.toList_intercalate, hsep]
    exact intercalate_isPrefix ((dropComponent_isPrefix true _).map _)

theorem isAbsolute_parent? : q.isAbsolute = p.isAbsolute := by
  cases habs : p.isAbsolute with
  | true =>
    obtain ⟨-, -, hq⟩ := eq_of_parent? h
    rw [hq, if_pos habs]
    simp [isAbsolute]
  | false =>
    obtain ⟨more, hmore⟩ := text_isPrefix_of_parent? h
    rw [isAbsolute, ← hmore, decide_eq_false_iff_not] at habs
    rw [isAbsolute, decide_eq_false_iff_not]
    intro hhead
    obtain ⟨s, hs⟩ := List.head?_eq_some_iff.1 hhead
    exact habs (by rw [hs]; rfl)

/-- The pieces of a path above another one. -/
theorem segments_parent? : q.segments =
    if p.isAbsolute then "" :: spelled (dropComponent false p.segments.tail)
    else spelled (dropComponent true p.segments) := by
  obtain ⟨-, -, hq⟩ := eq_of_parent? h
  rw [hq]
  split
  · rw [segments_root, segments_spelled fun name hname => sep_notMem_segments p name
      (List.mem_of_mem_tail ((dropComponent_isPrefix ..).subset hname))]
  · rw [segments_spelled fun name hname => sep_notMem_segments p name
      ((dropComponent_isPrefix ..).subset hname)]

/-- They are the first ones of the path, with an empty one behind them if nothing else is left. -/
theorem exists_isPrefix_of_parent? :
    ∃ pieces, pieces <+: p.segments ∧ (q.segments = pieces ∨ q.segments = pieces ++ [""]) := by
  rw [segments_parent? h]
  split
  · next habs =>
    have hnames := dropComponent_isPrefix false p.segments.tail
    obtain ⟨rest, hrest⟩ := exists_segments_of_isAbsolute habs
    rw [hrest] at hnames ⊢
    exact ⟨_, List.cons_prefix_cons.2 ⟨rfl, hnames⟩, by simpa using spelled_eq _⟩
  · exact ⟨_, dropComponent_isPrefix true p.segments, spelled_eq _⟩

/-- The path above has the components of the path but for the last one. -/
theorem components_parent? : q.components = p.components.dropLast := by
  obtain ⟨-, hroot, -⟩ := eq_of_parent? h
  rw [components_eq q, isAbsolute_parent? h, segments_parent? h]
  rw [components_eq p] at hroot ⊢
  cases habs : p.isAbsolute with
  | true =>
    have hne : componentsFrom false p.segments.tail ≠ [] := by simpa [habs] using hroot
    simp only [if_true, List.tail_cons]
    rw [componentsFrom_spelled, componentsFrom_dropComponent, List.dropLast_cons_of_ne_nil hne]
  | false =>
    simp only [Bool.false_eq_true, if_false]
    rw [componentsFrom_spelled, componentsFrom_dropComponent]

/-- A path has one component more than the path above it. -/
theorem length_components_parent? : p.components.length = q.components.length + 1 := by
  have hpos := List.length_pos_iff.2 (eq_of_parent? h).1
  rw [components_parent? h, List.length_dropLast]
  omega

end

/-- Paths that begin in the same way have the root in common, so what one has behind the other one
    does not lead there. -/
theorem root_notMem_of_components_eq {dropped : List Component}
    (habs : q.isAbsolute = p.isAbsolute) (h : p.components = q.components ++ dropped) :
    .root ∉ dropped := by
  have hfrom (first : Bool) (pieces : List String) : .root ∉ componentsFrom first pieces := by
    simp only [componentsFrom, List.mem_append, List.mem_filterMap, not_or, not_exists, not_and]
    refine ⟨by split <;> simp, fun s _ => ?_⟩
    rw [bodyComponent]
    grind
  rw [components_eq q, components_eq p, habs] at h
  intro hmem
  split at h
  · rw [List.cons_append, List.cons.injEq] at h
    exact hfrom _ _ (h.2 ▸ List.mem_append_right _ hmem)
  · exact hfrom _ _ (h ▸ List.mem_append_right _ hmem)

end LintRun.Path
