import LintRun.Proofs.Path.Parent

/-! Pieces that end with a component, as those of the path above another one do unless it has none
    but the root or a dot (`trimmed_parent?`). A path whose pieces end with a component has this
    component more than the path above it, and before it only pieces that are none
    (`exists_loose_of_parent?`). -/

namespace LintRun.Path

variable {first : Bool} {pieces init : List String} {last : String} {p q : Path}

/-- Pieces that end with a component if any of them is one. -/
def Trimmed (pieces : List String) : Prop :=
  (∀ s ∈ pieces, isLoose s = true) ∨ ∃ init last, pieces = init ++ [last] ∧ isLoose last = false

theorem trimmed_dropLoose (first : Bool) (pieces : List String) :
    Trimmed (dropLoose first pieces) := by
  rcases dropLoose_cases first pieces with h | h | h
  · exact Or.inl (by simp [h])
  · exact Or.inl (by rw [h]; decide)
  · exact Or.inr h

theorem trimmed_dropComponent (first : Bool) (pieces : List String) :
    Trimmed (dropComponent first pieces) := by
  rw [dropComponent]
  split
  · exact Or.inl (by simp)
  · split
    · exact Or.inl (by simp)
    · exact trimmed_dropLoose ..

theorem Trimmed.spelled (h : Trimmed pieces) : Trimmed (spelled pieces) := by
  rw [Path.spelled]
  split
  · exact Or.inl (by decide)
  · exact h

/-- The path above ends with a component unless it has none but the root or a dot. -/
theorem trimmed_parent? (h : p.parent? = some q) : Trimmed q.segments := by
  rw [segments_parent? h]
  split
  · rcases (trimmed_dropComponent false p.segments.tail).spelled with hloose | ⟨init, last, heq, hlast⟩
    · exact Or.inl (List.forall_mem_cons.2 ⟨rfl, hloose⟩)
    · exact Or.inr ⟨"" :: init, last, by rw [heq]; rfl, hlast⟩
  · exact (trimmed_dropComponent true p.segments).spelled

/-- No piece of a path is a component if there is no path above it. -/
theorem loose_of_parent?_eq_none (h : p.parent? = none) :
    p.segments.filterMap bodyComponent = [] := by
  rcases (p.segments.filterMap bodyComponent).eq_nil_or_concat' with hnil | ⟨before, c, hconcat⟩
  · exact hnil
  · have hlast : p.components.getLast? = some c := by
      rw [components_eq_front, hconcat, ← List.append_assoc, List.getLast?_concat]
    obtain ⟨s, -, hs⟩ := List.mem_filterMap.1 (hconcat ▸ List.mem_append_right before (by simp) :
      c ∈ p.segments.filterMap bodyComponent)
    have hroot : c ≠ .root := fun heq => bodyComponent_ne_root (heq ▸ hs)
    rw [parent?, hlast] at h
    cases c with
    | root => exact absurd rfl hroot
    | _ => cases habs : p.isAbsolute <;> simp [habs] at h

/-- There is a path above one that ends with a component. -/
theorem exists_parent? (hsegments : p.segments = init ++ [last]) (hlast : isLoose last = false) :
    ∃ q, p.parent? = some q := by
  refine Option.ne_none_iff_exists'.1 fun hnone => ?_
  have hall := List.filterMap_eq_nil_iff.1 (loose_of_parent?_eq_none hnone) last (by simp [hsegments])
  rw [isLoose, hall] at hlast
  cases hlast

/-- Only pieces that are no component are dropped from the end. -/
theorem exists_loose_of_dropLoose (first : Bool) (pieces : List String) :
    ∃ loose, pieces = dropLoose first pieces ++ loose ∧ ∀ s ∈ loose, isLoose s = true := by
  rw [dropLoose_eq]
  split
  · next hnil =>
    rw [List.rdropWhile_eq_nil_iff] at hnil
    split
    · next hdot =>
      have hhead : pieces.head? = some "." := of_decide_eq_true (Bool.and_eq_true_iff.1 hdot).2
      obtain ⟨rest, rfl⟩ := List.head?_eq_some_iff.1 hhead
      exact ⟨rest, rfl, fun s hs => hnil s (List.mem_cons_of_mem _ hs)⟩
    · exact ⟨pieces, rfl, hnil⟩
  · exact ⟨_, List.rdropWhile_append_rtakeWhile.symm, fun s hs => List.mem_rtakeWhile_imp hs⟩

/-- A step up from pieces that end with a component. -/
theorem dropComponent_concat (hlast : isLoose last = false) (first : Bool) (init : List String) :
    dropComponent first (init ++ [last]) = dropLoose first init := by
  have hkept : dropLoose first (init ++ [last]) = init ++ [last] := by
    rw [dropLoose_eq, List.rdropWhile_concat_neg _ _ _ (by simp [hlast])]
    simp
  have hdot : init ++ [last] ≠ ["."] := by
    intro heq
    obtain rfl : last = "." := by simpa using congrArg List.getLast? heq
    cases hlast
  rw [dropComponent, hkept]
  split
  · next hnil => simp at hnil
  · rw [if_neg hdot, List.dropLast_concat]

/-- What a path that ends with a component has more than the path above it: pieces that are none,
    and this component. -/
theorem exists_loose_of_parent? (h : p.parent? = some q) (hsegments : p.segments = init ++ [last])
    (hlast : isLoose last = false) : ∃ pieces loose, init = pieces ++ loose ∧
      (∀ s ∈ loose, isLoose s = true) ∧ (q.segments = pieces ∨ q.segments = pieces ++ [""]) := by
  rw [segments_parent? h, hsegments]
  split
  · next habs =>
    obtain ⟨rest, hrest⟩ := exists_segments_of_isAbsolute habs
    cases init with
    | nil =>
      obtain rfl : last = "" := by simpa [hsegments] using congrArg List.head? hrest
      cases hlast
    | cons s init =>
      obtain rfl : s = "" := by simpa [hsegments] using congrArg List.head? hrest
      obtain ⟨loose, hloose, hall⟩ := exists_loose_of_dropLoose false init
      rw [List.cons_append, List.tail_cons, dropComponent_concat hlast]
      refine ⟨"" :: dropLoose false init, loose, ?_, hall, by simpa using spelled_eq _⟩
      rw [List.cons_append, ← hloose]
  · obtain ⟨loose, hloose, hall⟩ := exists_loose_of_dropLoose true init
    rw [dropComponent_concat hlast]
    exact ⟨_, loose, hloose, hall, spelled_eq _⟩

end LintRun.Path
