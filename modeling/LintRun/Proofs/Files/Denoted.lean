import LintRun.Proofs.Files.Walk
import LintRun.Proofs.Path.Parent
import Mathlib.Data.List.Infix

/-! The place that a path denotes, read off its components.

    Each component is a move from one place to another, whatever there is in a tree. A path that
    leads anywhere leads to the place that it denotes (`eq_placeFrom_of_resolve`). Paths that begin
    in the same way and then go down name by name denote one place only if they have the same
    components (`same_of_placeFrom_eq`). The places that the components of a path lead through are
    the way along it (`way`), and its pieces lead through the same places (`mem_way_of_pieces`,
    `exists_pieces_of_mem_way`). -/

namespace LintRun

namespace Component

/-- The place that a component leads to: from everywhere to the root, up, down, or nowhere else. -/
def move (p : Place) : Component → Place
  | .root => []
  | .current => p
  | .parent => p.dropLast
  | .name s => p ++ [s]

/-- Whether a component is a name. -/
def isName : Component → Bool
  | .name _ => true
  | _ => false

theorem exists_names {cs : List Component} (h : ∀ c ∈ cs, c.isName = true) :
    ∃ names : List String, cs = names.map .name := by
  induction cs with
  | nil => exact ⟨[], rfl⟩
  | cons c cs ih =>
    obtain ⟨hc, hcs⟩ := List.forall_mem_cons.1 h
    obtain ⟨names, rfl⟩ := ih hcs
    cases c with
    | name s => exact ⟨s :: names, rfl⟩
    | _ => cases hc

/-- Names lead down. -/
theorem foldl_move_names (p : Place) (names : List String) :
    (names.map Component.name).foldl move p = p ++ names := by
  induction names generalizing p with
  | nil => simp
  | cons name names ih => rw [List.map_cons, List.foldl_cons, ih, move, List.append_assoc]; rfl

/-- Components that lead nowhere else from a place. -/
theorem foldl_move_fixed {cs : List Component} {p : Place}
    (h : ∀ c ∈ cs, move p c = p) : cs.foldl move p = p := by
  induction cs with
  | nil => rfl
  | cons c cs ih =>
    obtain ⟨hc, hcs⟩ := List.forall_mem_cons.1 h
    rw [List.foldl_cons, hc, ih hcs]

end Component

namespace Path

/-- The place that a path denotes where relative paths begin at a place. -/
def placeFrom (here : Place) (p : Path) : Place := p.components.foldl Component.move here

/-- What a path has before its first name: the root or a lone dot, and steps up. -/
def lead (p : Path) : List Component := p.components.takeWhile (!·.isName)

/-- What a path has from its first name on. -/
def descent (p : Path) : List Component := p.components.dropWhile (!·.isName)

/-- A path that does not go up behind a name. -/
def Descends (p : Path) : Prop := ∀ c ∈ p.descent, c.isName = true

instance (p : Path) : Decidable p.Descends := inferInstanceAs (Decidable (∀ c ∈ p.descent, _))

theorem lead_append_descent (p : Path) : p.lead ++ p.descent = p.components :=
  List.takeWhile_append_dropWhile

theorem placeFrom_eq (here : Place) (p : Path) :
    p.placeFrom here = p.descent.foldl Component.move (p.lead.foldl Component.move here) := by
  rw [placeFrom, ← lead_append_descent, List.foldl_append]

/-- Paths that begin in the same way and then go down are the same if they denote the same place. -/
theorem same_of_placeFrom_eq {p q : Path} (hlead : p.lead = q.lead) (hp : p.Descends)
    (hq : q.Descends) {here : Place} (h : p.placeFrom here = q.placeFrom here) : p.Same q := by
  obtain ⟨names, hnames⟩ := Component.exists_names hp
  obtain ⟨names', hnames'⟩ := Component.exists_names hq
  rw [placeFrom_eq, placeFrom_eq, hlead, hnames, hnames', Component.foldl_move_names,
    Component.foldl_move_names, List.append_cancel_left_eq] at h
  rw [Same, ← lead_append_descent p, ← lead_append_descent q, hlead, hnames, hnames', h]

theorem bodyComponent_of_isName {s : String} (h : FileTree.isName s = true) :
    bodyComponent s = some (.name s) := by
  obtain ⟨hempty, hcurrent, hparent, -⟩ := FileTree.isName_iff.1 h
  simp [bodyComponent, hempty, hcurrent, hparent]

end Path

namespace FileTree

open LintRun.Path (bodyComponent)

variable {t : FileTree} {p q place : Place} {name : String} {names rest : List String} {path : Path}

/-- A step leads where its component does. -/
theorem eq_move_of_step (h : t.step q name = .ok p) :
    p = (bodyComponent name).toList.foldl Component.move q := by
  by_cases hloose : bodyComponent name = none
  · rw [hloose, eq_of_step_loose hloose h]
    rfl
  · have hdir := (of_step_eq_ok h).1
    rw [Path.bodyComponent_eq_none_iff, not_or] at hloose
    obtain ⟨hempty, hcurrent⟩ := hloose
    rw [step, hdir] at h
    by_cases hparent : name = ".."
    · subst hparent
      exact (Except.ok.inj h).symm
    · simp only [hempty, hcurrent, hparent, decide_false, Bool.or_self,
        Bool.false_eq_true, if_false] at h
      split at h
      · cases h
      split at h
      · simp [bodyComponent, hempty, hcurrent, hparent, Component.move, ← Except.ok.inj h]
      · cases h

/-- A walk leads where its components do. -/
theorem eq_foldl_move_of_walk (h : t.walk q names = .ok p) :
    p = (names.filterMap bodyComponent).foldl Component.move q := by
  induction names generalizing q with
  | nil => exact (Except.ok.inj h).symm
  | cons name names ih =>
    obtain ⟨q', hstep, hwalk⟩ := walk_cons_eq_ok.1 h
    rw [ih hwalk, eq_move_of_step hstep, List.filterMap_cons]
    cases bodyComponent name <;> rfl

/-! ### Components and pieces -/

theorem foldl_move_front (t : FileTree) (path : Path) :
    path.front.foldl Component.move t.here = t.origin path := by
  rw [Path.front, origin]
  split
  · rfl
  · split <;> rfl

/-- What stands before the components that its pieces are does not lead away from where a path
    begins. -/
theorem move_of_mem_front {c : Component} (hc : c ∈ path.front) :
    Component.move (t.origin path) c = t.origin path := by
  rw [Path.front] at hc
  rw [origin]
  split at hc
  · next habs =>
    rw [if_pos habs, List.mem_singleton.1 hc]
    rfl
  · split at hc
    · rw [List.mem_singleton.1 hc]
      rfl
    · cases hc

/-- The place that a path denotes is where its components lead from where it begins. -/
theorem foldl_move_components (t : FileTree) (path : Path) :
    path.components.foldl Component.move (t.origin path) = path.placeFrom t.here := by
  rw [Path.placeFrom, Path.components_eq_front, List.foldl_append, List.foldl_append,
    foldl_move_front, Component.foldl_move_fixed fun c hc => move_of_mem_front hc]

/-- The place that a path denotes is where its pieces lead from where it begins. -/
theorem foldl_move_segments (t : FileTree) (path : Path) :
    (path.segments.filterMap bodyComponent).foldl Component.move (t.origin path) =
      path.placeFrom t.here := by
  rw [Path.placeFrom, Path.components_eq_front, List.foldl_append, foldl_move_front]

/-- A path that leads anywhere leads to the place that it denotes. -/
theorem eq_placeFrom_of_resolve (h : t.resolve path = .ok p) : p = path.placeFrom t.here := by
  rw [eq_foldl_move_of_walk (walk_of_resolve h), foldl_move_segments]

/-! ### The way along a path -/

/-- The places that the components of a path lead through before the last one. -/
def way (t : FileTree) (path : Path) : List Place :=
  path.components.dropLast.inits.map (·.foldl Component.move (t.origin path))

theorem mem_way : place ∈ t.way path ↔
    ∃ before, before <+: path.components.dropLast ∧
      before.foldl Component.move (t.origin path) = place := by
  simp [way]

/-- Pieces lead to a place on the way as long as a component follows. -/
theorem mem_way_of_pieces (h : path.segments = names ++ rest)
    (hrest : rest.filterMap bodyComponent ≠ []) :
    (names.filterMap bodyComponent).foldl Component.move (t.origin path) ∈ t.way path := by
  refine mem_way.2 ⟨path.front ++ names.filterMap bodyComponent, ?_, ?_⟩
  · rw [Path.components_eq_front, h, List.filterMap_append, ← List.append_assoc,
      List.dropLast_append_of_ne_nil hrest]
    exact List.prefix_append ..
  · rw [List.foldl_append, Component.foldl_move_fixed fun c hc => move_of_mem_front hc]

/-- A place on the way is where some pieces lead that are not all. -/
theorem exists_pieces_of_mem_way (h : place ∈ t.way path) :
    ∃ names rest, path.segments = names ++ rest ∧ rest ≠ [] ∧
      (names.filterMap bodyComponent).foldl Component.move (t.origin path) = place := by
  obtain ⟨before, ⟨more, hmore⟩, rfl⟩ := mem_way.1 h
  have hstart (hfront : ∀ c ∈ before, c ∈ path.front) : ∃ names rest,
      path.segments = names ++ rest ∧ rest ≠ [] ∧
        (names.filterMap bodyComponent).foldl Component.move (t.origin path) =
          before.foldl Component.move (t.origin path) :=
    ⟨[], path.segments, rfl, path.segments_ne_nil,
      (Component.foldl_move_fixed fun c hc => move_of_mem_front (hfront c hc)).symm⟩
  rcases path.components.eq_nil_or_concat' with hnil | ⟨init, last, hconcat⟩
  · rw [hnil, List.dropLast_nil, List.append_eq_nil_iff] at hmore
    exact hstart (by simp [hmore.1])
  · rw [hconcat, List.dropLast_concat] at hmore
    rw [Path.components_eq_front, ← hmore, List.append_assoc] at hconcat
    rcases List.append_eq_append_iff.1 hconcat with ⟨behind, rfl, hbehind⟩ | ⟨_, hfront, -⟩
    · obtain ⟨names, rest, hsegments, rfl, hrest⟩ := List.filterMap_eq_append_iff.1 hbehind
      refine ⟨names, rest, hsegments, ?_, ?_⟩
      · rintro rfl
        simp at hrest
      · rw [List.foldl_append, Component.foldl_move_fixed fun c hc => move_of_mem_front hc]
    · exact hstart fun c hc => hfront ▸ List.mem_append_left _ hc

end FileTree

end LintRun
