import LintRun.Proofs.Files.Denoted
import LintRun.Proofs.Path.Parent

/-! Where the path above another one leads.

    In a tree it leads to a directory if the path below leads to one (`Leads.parent?`). By the
    components alone it leads to a place at or above that of the path below, as long as no `..` has
    been taken away (`Path.placeFrom_isPrefix`): the path above `lib/..` is `lib`, a place below. -/

namespace LintRun

namespace Component

/-- Components that are neither the root nor `..` lead nowhere but down. -/
theorem prefix_foldl_move {cs : List Component} (hroot : .root ∉ cs) (hparent : .parent ∉ cs)
    (p : Place) : p <+: cs.foldl move p := by
  induction cs generalizing p with
  | nil => exact List.prefix_rfl
  | cons c cs ih =>
    rw [List.mem_cons, not_or] at hroot hparent
    have hstep : p <+: move p c := by
      cases c with
      | root => exact absurd rfl hroot.1
      | current => exact List.prefix_rfl
      | parent => exact absurd rfl hparent.1
      | name s => exact List.prefix_append p [s]
    exact hstep.trans (ih hroot.2 hparent.2 _)

end Component

/-- A path without some of the last components of another one denotes a place at or above its place,
    if none of these is `..`. -/
theorem Path.placeFrom_isPrefix {p q : Path} {dropped : List Component}
    (habs : q.isAbsolute = p.isAbsolute) (h : p.components = q.components ++ dropped)
    (hparent : .parent ∉ dropped) (here : Place) : q.placeFrom here <+: p.placeFrom here := by
  rw [placeFrom, placeFrom, h, List.foldl_append]
  exact Component.prefix_foldl_move (root_notMem_of_components_eq habs h) hparent _

theorem Path.join_of_isEmpty {p : Path} (h : p.isEmpty = true) (q : Path) : p.join q = q := by
  rw [join, h, Bool.or_true, if_pos rfl]

namespace FileTree

variable {t : FileTree} {p : Place} {path q : Path} {names : List String}

/-- Where a path leads when names are put behind it: one without text stands for the directory in
    which relative paths begin. -/
def Leads (t : FileTree) (path : Path) (p : Place) : Prop :=
  t.resolve path = .ok p ∨ path.isEmpty = true ∧ p = t.here

theorem components_of_isEmpty (h : path.isEmpty = true) : path.components = [] := by
  rw [Path.isEmpty, String.isEmpty_iff] at h
  obtain ⟨text⟩ := path
  obtain rfl := h
  rfl

/-- A path leads to the place that it denotes. -/
theorem Leads.eq_placeFrom (h : t.Leads path p) : p = path.placeFrom t.here := by
  rcases h with h | ⟨hempty, rfl⟩
  · exact eq_placeFrom_of_resolve h
  · rw [Path.placeFrom, components_of_isEmpty hempty]
    rfl

/-- A walk that ends in a directory begins in one. -/
theorem directory_of_walk (hp : t.entry? p = some .directory) {place : Place}
    (h : t.walk place names = .ok p) : t.entry? place = some .directory := by
  cases names with
  | nil =>
    obtain rfl := Except.ok.inj h
    exact hp
  | cons name names =>
    obtain ⟨q, hstep, -⟩ := walk_cons_eq_ok.1 h
    exact (of_step_eq_ok hstep).1

/-- The path above a path that leads to a directory leads to one. -/
theorem Leads.parent? (wf : t.WellFormed) (h : t.Leads path p)
    (hp : t.entry? p = some .directory) (hup : path.parent? = some q) :
    ∃ p', t.Leads q p' ∧ t.entry? p' = some .directory := by
  rcases h with h | ⟨hempty, -⟩
  · obtain ⟨pieces, ⟨rest, hrest⟩, hsegments⟩ := Path.exists_isPrefix_of_parent? hup
    have hwalk := walk_of_resolve h
    rw [← hrest, walk_append_eq_ok] at hwalk
    obtain ⟨p', hpieces, hrest⟩ := hwalk
    have hdir := directory_of_walk hp hrest
    cases htext : q.isEmpty with
    | true => exact ⟨t.here, Or.inr ⟨htext, rfl⟩, wf.here_directory⟩
    | false =>
      have hadmits : Admits q :=
        (admits_of_resolve h).of_sublist htext (Path.text_isPrefix_of_parent? hup).sublist
      refine ⟨p', Or.inl ?_, hdir⟩
      rw [resolve_eq hadmits, origin, Path.isAbsolute_parent? hup, ← origin]
      rcases hsegments with hsegments | hsegments <;> rw [hsegments]
      · exact hpieces
      · exact walk_append_eq_ok.2 ⟨p', hpieces, by rw [walk_singleton, step_empty hdir]⟩
  · exact absurd (components_of_isEmpty hempty) (Path.eq_of_parent? hup).1

/-- The way along the path above, and its end, are on the way along a path. -/
theorem mem_way_of_parent? (hup : path.parent? = some above)
    (h : place ∈ t.way above ∨ place = above.placeFrom t.here) : place ∈ t.way path := by
  have horigin : t.origin path = t.origin above := by
    rw [origin, origin, Path.isAbsolute_parent? hup]
  rw [mem_way, ← Path.components_parent? hup, horigin]
  rcases h with h | rfl
  · obtain ⟨before, hbefore, hplace⟩ := mem_way.1 h
    exact ⟨before, hbefore.trans (List.dropLast_prefix _), hplace⟩
  · exact ⟨above.components, List.prefix_rfl, foldl_move_components t above⟩

/-! ### Names behind a path -/

section join

variable {more : Path} (hmore : more.isAbsolute = false)

include hmore

/-- A path below another one leads on from there. -/
theorem Leads.resolve_join (h : t.Leads path p) (hjoin : Admits (path.join more)) :
    t.resolve (path.join more) = t.walk p more.segments := by
  rcases h with h | ⟨hempty, rfl⟩
  · exact FileTree.resolve_join h hmore hjoin
  · rw [Path.join_of_isEmpty hempty] at hjoin ⊢
    rw [resolve_eq hjoin, origin, hmore]
    rfl

/-- What a path below another one leads to is found from where the other one leads. -/
theorem exists_leads_of_resolve_join (h : t.resolve (path.join more) = .ok p) :
    ∃ p', t.Leads path p' ∧ t.walk p' more.segments = .ok p := by
  cases hempty : path.isEmpty with
  | true =>
    rw [Path.join_of_isEmpty hempty] at h
    have hwalk := walk_of_resolve h
    rw [origin, hmore] at hwalk
    exact ⟨t.here, Or.inr ⟨hempty, rfl⟩, hwalk⟩
  | false =>
    have hwalk := walk_of_resolve h
    rw [Path.segments_join hempty hmore, origin, Path.isAbsolute_join hempty hmore, ← origin,
      walk_append_eq_ok] at hwalk
    obtain ⟨p', htrail, hwalk⟩ := hwalk
    refine ⟨p', Or.inl ?_, hwalk⟩
    have hadmits : Admits path := by
      refine (admits_of_resolve h).of_sublist hempty ?_
      rw [Path.toList_join hempty hmore]
      exact path.sublist_opened.trans (List.sublist_append_left ..)
    rw [resolve_eq hadmits]
    rcases path.segments_eq_trail with heq | heq <;> rw [heq]
    · exact htrail
    · obtain ⟨name, names, hnames⟩ := List.exists_cons_of_ne_nil more.segments_ne_nil
      rw [hnames, walk_cons_eq_ok] at hwalk
      obtain ⟨q, hstep, -⟩ := hwalk
      exact walk_append_eq_ok.2
        ⟨p', htrail, by rw [walk_singleton, step_empty (of_step_eq_ok hstep).1]⟩

/-- A path below one that leads anywhere is looked up unless it is too long. -/
theorem Leads.admits_join (h : t.Leads path p) (hnul : '\x00' ∉ more.text.toList)
    (htext : more.isEmpty = false) (hsize : (path.join more).text.utf8ByteSize < pathLimit) :
    Admits (path.join more) := by
  cases hempty : path.isEmpty with
  | true =>
    rw [Path.join_of_isEmpty hempty] at hsize ⊢
    exact ⟨hnul, htext, hsize⟩
  | false =>
    have hpath : t.resolve path = .ok p := h.resolve_right (by simp [hempty])
    refine ⟨?_, Path.isEmpty_join hempty hmore, hsize⟩
    have hopened : '\x00' ∉ path.opened := by
      rw [Path.opened]
      split <;> simp [(admits_of_resolve hpath).1]
    simp [Path.toList_join hempty hmore, hopened, hnul]

end join

end FileTree

end LintRun
