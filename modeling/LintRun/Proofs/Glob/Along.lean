import LintRun.Proofs.Glob.Below

/-! Names at the beginning of a pattern: where they lead, and how the path is spelled there.

    The names are put behind a path one by one (`along`). Where they can be walked, a pattern that
    begins with them goes on where the walk ends (`expandFrom_names`). The spelling may lose
    separators that repeat and a `.` at the beginning, and it gains nothing (`sublist_along`). Behind
    a `.` that is left out, an empty name is the empty path, which leads nowhere
    (`expandFrom_loose`). -/

namespace LintRun.Glob

open FileTree

variable {t : FileTree} {p q : Place} {path : Path} {name : String} {names : List String}

/-- A path with names put behind it one by one. -/
def along (path : Path) (names : List String) : Path :=
  names.foldl (fun path name => under path [name]) path

theorem along_cons (path : Path) (name : String) (names : List String) :
    along path (name :: names) = along (under path [name]) names := rfl

theorem isCurrent_join {more : Path} (hpath : path.isEmpty = false)
    (hmore : more.isAbsolute = false) (h : isCurrent path = false) :
    isCurrent (path.join more) = false := by
  rw [isCurrent, decide_eq_false_iff_not] at h ⊢
  rw [Path.components_join hpath hmore, List.append_eq_singleton_iff]
  rintro (⟨-, hbody⟩ | ⟨hcomponents, -⟩)
  · have hmem : Component.current ∈ more.segments.filterMap Path.bodyComponent := by simp [hbody]
    obtain ⟨s, -, hs⟩ := List.mem_filterMap.1 hmem
    exact Path.bodyComponent_ne_current hs
  · exact h hcomponents

/-- Unless it is where relative patterns begin, a path is spelled in front of a name. -/
theorem under_singleton (hcur : isCurrent path = false) :
    under path [name] = path.join ⟨name⟩ := by
  rw [under_of_not_isCurrent hcur, String.intercalate_singleton]

/-! ### Where the names lead -/

/-- A name that can be walked is put behind the path. -/
theorem expandFrom_name (hpath : t.resolve path = .ok q) (hstep : t.step q name = .ok p)
    (hnext : t.resolve (under path [name]) = .ok p) (directories : Bool) (rest : List Segment) :
    expandFrom t directories (.name name :: rest) path =
      expandFrom t directories rest (under path [name]) := by
  obtain ⟨hdir, hsome⟩ := of_step_eq_ok hstep
  have hleads : leads t path (under path [name]) name = true := by
    rw [leads]
    split
    · exact isDirectory_iff.2 ⟨q, hpath, hdir⟩
    · next hdots => exact holds_of_resolve hnext (hsome fun hname => hdots (by simp [hname]))
  simp only [expandFrom, hleads, if_true]

section

variable (hsep : ∀ name ∈ names, '/' ∉ name.toList)

include hsep

theorem sublist_along_self (hpath : path.isEmpty = false) (hcur : isCurrent path = false) :
    path.text.toList.Sublist (along path names).text.toList := by
  induction names generalizing path with
  | nil => exact List.Sublist.refl _
  | cons name names ih =>
    rw [List.forall_mem_cons] at hsep
    have hrel := Path.isAbsolute_piece hsep.1
    rw [along_cons, under_singleton hcur]
    refine List.Sublist.trans ?_
      (ih hsep.2 (Path.isEmpty_join hpath hrel) (isCurrent_join hpath hrel hcur))
    rw [Path.toList_join hpath hrel]
    exact path.sublist_opened.trans (List.sublist_append_left ..)

theorem isEmpty_along (hpath : path.isEmpty = false) (hcur : isCurrent path = false) :
    (along path names).isEmpty = false := by
  rw [Path.isEmpty, Bool.eq_false_iff] at hpath ⊢
  intro hempty
  have hself := sublist_along_self hsep (by rwa [Path.isEmpty, Bool.eq_false_iff]) hcur
  rw [String.isEmpty_iff.1 hempty, String.toList_empty, List.sublist_nil,
    String.toList_eq_nil_iff] at hself
  exact hpath (by rw [hself]; rfl)

/-- No character is spelled that the names do not have. -/
theorem sublist_along (hpath : path.isEmpty = false) (hcur : isCurrent path = false)
    (hne : names ≠ []) :
    (along path names).text.toList.Sublist
      (path.opened ++ ['/'].intercalate (names.map String.toList)) := by
  induction names generalizing path with
  | nil => exact absurd rfl hne
  | cons name names ih =>
    rw [List.forall_mem_cons] at hsep
    have hrel := Path.isAbsolute_piece hsep.1
    rw [along_cons, under_singleton hcur]
    have hjoin := Path.toList_join hpath hrel
    rcases names with - | ⟨second, more⟩
    · simp [along, hjoin]
    · -- A name may end the joined path with a separator, and then the next join adds none.
      have hopened : (path.join ⟨name⟩).opened.Sublist (path.opened ++ name.toList ++ ['/']) := by
        rw [Path.opened, hjoin]
        split
        · exact List.sublist_append_left ..
        · exact List.Sublist.refl _
      have hrest := ih hsep.2 (Path.isEmpty_join hpath hrel) (isCurrent_join hpath hrel hcur)
        (List.cons_ne_nil second more)
      simp only [List.map_cons, List.intercalate_cons_cons, ← List.append_assoc] at hrest ⊢
      exact hrest.trans (List.Sublist.append_right hopened _)

/-- Names that can be walked are put behind the path, and a pattern that begins with them goes on
    where they lead. -/
theorem expandFrom_names (hpath : t.resolve path = .ok q) (hcur : isCurrent path = false)
    (hwalk : t.walk q names = .ok p) (hadmits : Admits (along path names)) :
    t.resolve (along path names) = .ok p ∧ ∀ directories rest,
      expandFrom t directories (names.map .name ++ rest) path =
        expandFrom t directories rest (along path names) := by
  -- The path moves on with its place, and each path on the way is part of the last one.
  induction names generalizing path q with
  | nil => exact ⟨hpath.trans hwalk, fun directories rest => rfl⟩
  | cons name names ih =>
    obtain ⟨q', hstep, hwalk⟩ := walk_cons_eq_ok.1 hwalk
    rw [List.forall_mem_cons] at hsep
    have hrel := Path.isAbsolute_piece hsep.1
    have htext := (admits_of_resolve hpath).2.1
    rw [along_cons, under_singleton hcur] at hadmits ⊢
    have htext' := Path.isEmpty_join htext hrel
    have hcur' := isCurrent_join htext hrel hcur
    have hnext : t.resolve (path.join ⟨name⟩) = .ok q' := by
      rw [resolve_join hpath hrel
        (hadmits.of_sublist htext' (sublist_along_self hsep.2 htext' hcur')),
        Path.segments_piece hsep.1, walk_singleton, hstep]
    obtain ⟨hplace, hexpand⟩ := ih hsep.2 hnext hcur' hwalk hadmits
    refine ⟨hplace, fun directories rest => ?_⟩
    rw [List.map_cons, List.cons_append,
      expandFrom_name hpath hstep (by rwa [under_singleton hcur]), under_singleton hcur, hexpand]

end

/-! ### Names behind the directory in which relative patterns begin -/

theorem under_current_current : under ⟨"."⟩ ["."] = ⟨"."⟩ := by decide

theorem under_current (name : String) : under ⟨"."⟩ [name] = ⟨name⟩ := by
  rw [under_of_isCurrent (by decide), String.intercalate_singleton]

theorem resolve_current (hhere : t.entry? t.here = some .directory) :
    t.resolve ⟨"."⟩ = .ok t.here := by
  change t.walk t.here ["."] = _
  rw [walk_singleton, step_current hhere]

theorem isCurrent_piece (hsep : '/' ∉ name.toList) (hne : name ≠ "") (hcur : name ≠ ".") :
    isCurrent ⟨name⟩ = false := by
  rw [isCurrent, decide_eq_false_iff_not]
  intro h
  have hloose := (Path.loose_of_components_eq_current h).2
  rw [Path.segments_piece hsep, List.filterMap_eq_nil_iff] at hloose
  exact (Path.bodyComponent_eq_none_iff.1 (hloose name (by simp))).elim hne hcur

section

variable (hsep : ∀ name ∈ names, '/' ∉ name.toList)
  (hloose : (names.dropWhile (· = ".")).head? ≠ some "")

include hsep hloose

theorem isEmpty_along_current : (along ⟨"."⟩ names).isEmpty = false := by
  induction names with
  | nil => rfl
  | cons name names ih =>
    rw [List.forall_mem_cons] at hsep
    rw [along_cons]
    by_cases hname : name = "."
    · subst hname
      rw [under_current_current]
      exact ih hsep.2 (by rwa [List.dropWhile_cons_of_pos (by simp)] at hloose)
    · have hempty : name ≠ "" := by simpa [hname] using hloose
      rw [under_current]
      exact isEmpty_along hsep.2 (by simpa [Path.isEmpty] using hempty)
        (isCurrent_piece hsep.1 hempty hname)

theorem sublist_along_current (hne : names ≠ []) :
    (along ⟨"."⟩ names).text.toList.Sublist (['/'].intercalate (names.map String.toList)) := by
  induction names with
  | nil => exact absurd rfl hne
  | cons name names ih =>
    rw [List.forall_mem_cons] at hsep
    rw [along_cons]
    by_cases hname : name = "."
    · subst hname
      rw [List.dropWhile_cons_of_pos (by simp)] at hloose
      rw [under_current_current]
      rcases names with - | ⟨second, more⟩
      · exact List.Sublist.refl _
      · refine (ih hsep.2 hloose (List.cons_ne_nil second more)).trans ?_
        simp only [List.map_cons, List.intercalate_cons_cons]
        exact List.sublist_append_right ..
    · rw [List.dropWhile_cons_of_neg (by simpa using hname)] at hloose
      have hempty : name ≠ "" := by simpa using hloose
      rw [under_current]
      rcases names with - | ⟨second, more⟩
      · simp [along]
      · have htext : (⟨name⟩ : Path).isEmpty = false := by simpa [Path.isEmpty] using hempty
        have hrest := sublist_along hsep.2 htext (isCurrent_piece hsep.1 hempty hname)
          (List.cons_ne_nil second more)
        simpa only [Path.opened_piece hsep.1, List.map_cons, List.intercalate_cons_cons] using hrest

theorem expandFrom_current (hhere : t.entry? t.here = some .directory)
    (hwalk : t.walk t.here names = .ok p) (hadmits : Admits (along ⟨"."⟩ names)) :
    t.resolve (along ⟨"."⟩ names) = .ok p ∧ ∀ directories rest,
      expandFrom t directories (names.map .name ++ rest) ⟨"."⟩ =
        expandFrom t directories rest (along ⟨"."⟩ names) := by
  have hcurrent := resolve_current hhere
  induction names with
  | nil => exact ⟨hcurrent.trans hwalk, fun directories rest => rfl⟩
  | cons name names ih =>
    obtain ⟨q, hstep, hwalk⟩ := walk_cons_eq_ok.1 hwalk
    rw [List.forall_mem_cons] at hsep
    rw [along_cons] at hadmits ⊢
    by_cases hname : name = "."
    · subst hname
      obtain rfl := eq_of_step_loose (by decide) hstep
      rw [List.dropWhile_cons_of_pos (by simp)] at hloose
      rw [under_current_current] at hadmits ⊢
      obtain ⟨hplace, hexpand⟩ := ih hsep.2 hloose hwalk hadmits
      refine ⟨hplace, fun directories rest => ?_⟩
      rw [List.map_cons, List.cons_append, expandFrom_name hcurrent hstep
        (by rwa [under_current_current]), under_current_current, hexpand]
    · rw [List.dropWhile_cons_of_neg (by simpa using hname)] at hloose
      have hempty : name ≠ "" := by simpa using hloose
      have htext : (⟨name⟩ : Path).isEmpty = false := by simpa [Path.isEmpty] using hempty
      have hcur := isCurrent_piece hsep.1 hempty hname
      rw [under_current] at hadmits ⊢
      have hnext : t.resolve ⟨name⟩ = .ok q := by
        rw [resolve_eq (hadmits.of_sublist htext (sublist_along_self hsep.2 htext hcur)), origin,
          Path.isAbsolute_piece hsep.1, Path.segments_piece hsep.1]
        exact (walk_singleton ..).trans hstep
      obtain ⟨hplace, hexpand⟩ := expandFrom_names hsep.2 hnext hcur hwalk hadmits
      refine ⟨hplace, fun directories rest => ?_⟩
      rw [List.map_cons, List.cons_append, expandFrom_name hcurrent hstep (by rwa [under_current]),
        under_current, hexpand]

end

/-- The empty path leads nowhere, so an empty name before any other one but `.` is not found. -/
theorem expandFrom_loose (hhere : t.entry? t.here = some .directory)
    (hloose : (names.dropWhile (· = ".")).head? = some "") (directories : Bool)
    (rest : List Segment) : expandFrom t directories (names.map .name ++ rest) ⟨"."⟩ = [] := by
  have hcurrent := resolve_current hhere
  induction names with
  | nil => cases hloose
  | cons name names ih =>
    rw [List.map_cons, List.cons_append]
    by_cases hname : name = "."
    · subst hname
      rw [List.dropWhile_cons_of_pos (by simp)] at hloose
      rw [expandFrom_name hcurrent (step_current hhere) (by rwa [under_current_current]),
        under_current_current, ih hloose]
    · rw [List.dropWhile_cons_of_neg (by simpa using hname)] at hloose
      obtain rfl : name = "" := by simpa using hloose
      rfl

/-! ### Patterns that begin with a path -/

/-- Where a pattern begins that begins with a path. -/
def scope (dir : Path) : Path := ⟨if dir.isAbsolute then "/" else "."⟩

/-- The names at the beginning of such a pattern. -/
def steps (dir : Path) : List String := if dir.isAbsolute then dir.trail.tail else dir.trail

/-- How a path is spelled in what such a pattern leads to. -/
def spelling (dir : Path) : Path := along (scope dir) (steps dir)

/-- Whether a relative path is empty, or has an empty piece before any other one but `.`. -/
def startsLoose (dir : Path) : Bool :=
  !dir.isAbsolute && (dir.trail.dropWhile (· = ".")).head? = some ""

section

variable {dir : Path}

theorem spelling_of_isAbsolute (habs : dir.isAbsolute = true) (htrail : dir.trail = "" :: names) :
    spelling dir = along ⟨"/"⟩ names := by
  simp [spelling, scope, steps, habs, htrail]

theorem spelling_of_not_isAbsolute (habs : dir.isAbsolute = false) :
    spelling dir = along ⟨"."⟩ dir.trail := by
  simp [spelling, scope, steps, habs]

theorem head?_of_not_startsLoose (habs : dir.isAbsolute = false) (h : startsLoose dir = false) :
    (dir.trail.dropWhile (· = ".")).head? ≠ some "" := by
  simpa [startsLoose, habs] using h

theorem isEmpty_spelling (hloose : startsLoose dir = false) : (spelling dir).isEmpty = false := by
  have hsep := dir.sep_notMem_trail
  cases habs : dir.isAbsolute with
  | true =>
    obtain ⟨names, hnames⟩ := Path.exists_trail_of_isAbsolute habs
    rw [hnames, List.forall_mem_cons] at hsep
    rw [spelling_of_isAbsolute habs hnames]
    exact isEmpty_along hsep.2 (by decide) (by decide)
  | false =>
    rw [spelling_of_not_isAbsolute habs]
    exact isEmpty_along_current hsep (head?_of_not_startsLoose habs hloose)

/-- No character is spelled that the path does not have. -/
theorem sublist_spelling (hloose : startsLoose dir = false) :
    (spelling dir).text.toList.Sublist dir.text.toList := by
  have hsep := dir.sep_notMem_trail
  cases habs : dir.isAbsolute with
  | true =>
    obtain ⟨names, hnames⟩ := Path.exists_trail_of_isAbsolute habs
    rw [hnames, List.forall_mem_cons] at hsep
    rw [spelling_of_isAbsolute habs hnames]
    rcases names with - | ⟨first, rest⟩
    · obtain ⟨s, hs⟩ := List.head?_eq_some_iff.1 (of_decide_eq_true habs)
      simp [along, hs]
    · refine List.Sublist.trans ?_ dir.sublist_of_trail
      rw [hnames]
      exact sublist_along hsep.2 (by decide) (by decide) (List.cons_ne_nil first rest)
  | false =>
    rw [spelling_of_not_isAbsolute habs]
    exact (sublist_along_current hsep (head?_of_not_startsLoose habs hloose)
      dir.trail_ne_nil).trans dir.sublist_of_trail

/-- A pattern that begins with a path goes on where the path leads. -/
theorem expandFrom_steps (hhere : t.entry? t.here = some .directory)
    (h : t.resolve dir = .ok p) (hloose : startsLoose dir = false) :
    t.resolve (spelling dir) = .ok p ∧ ∀ directories rest,
      expandFrom t directories ((steps dir).map .name ++ rest) (scope dir) =
        expandFrom t directories rest (spelling dir) := by
  have hadmits : Admits (spelling dir) :=
    (admits_of_resolve h).of_sublist (isEmpty_spelling hloose) (sublist_spelling hloose)
  have hwalk := walk_trail h
  have hsep := dir.sep_notMem_trail
  cases habs : dir.isAbsolute with
  | true =>
    obtain ⟨names, hnames⟩ := Path.exists_trail_of_isAbsolute habs
    rw [hnames, List.forall_mem_cons] at hsep
    rw [origin, habs, hnames, if_pos rfl, walk_cons_eq_ok] at hwalk
    obtain ⟨q, hstep, hwalk⟩ := hwalk
    obtain rfl := eq_of_step_loose (by decide) hstep
    rw [spelling_of_isAbsolute habs hnames] at hadmits ⊢
    have hroot : t.resolve ⟨"/"⟩ = .ok [] := rfl
    simpa [scope, steps, habs, hnames] using
      expandFrom_names hsep.2 hroot (by decide) hwalk hadmits
  | false =>
    rw [origin, habs] at hwalk
    rw [spelling_of_not_isAbsolute habs] at hadmits ⊢
    simpa [scope, steps, habs] using
      expandFrom_current hsep (head?_of_not_startsLoose habs hloose) hhere hwalk hadmits

end

end LintRun.Glob
