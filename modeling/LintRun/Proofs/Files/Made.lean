import LintRun.Proofs.Files.Above
import Mathlib.Data.List.Nodup

/-! Directories that are made, and how a tree grows by them.

    An entry that is set changes what one place holds (`entry?_set`), and walks lead where they did
    if it was no directory (`Keeps`). A directory that is made gets a name in a directory, where
    nothing was before (`of_makeDirectory`). Making a directory with those above it therefore adds
    directories on the way to it and changes nothing else (`makeAll_grows`), whether or not it
    succeeds. -/

namespace LintRun.FileTree

variable {t t' t₁ t₂ : FileTree} {p q : Place} {e : Entry} {name last : String}
  {names init empties : List String} {path : Path}

/-! ### One entry -/

theorem lookup_map_replace (entries : List (Place × Entry)) (p q : Place) (e : Entry) :
    (entries.map fun (q, old) => if q = p then (q, e) else (q, old)).lookup q =
      if q = p then (entries.lookup p).map fun _ => e else entries.lookup q := by
  induction entries with
  | nil => simp
  | cons entry entries ih =>
    obtain ⟨r, old⟩ := entry
    rw [List.map_cons, List.lookup_cons, List.lookup_cons, List.lookup_cons, ih]
    by_cases hr : r = p
    · by_cases hq : q = p
      · simp [hr, hq]
      · simp [hr, hq, beq_false_of_ne hq]
    · by_cases hq : q = p
      · simp [hr, hq, beq_false_of_ne (Ne.symm hr)]
      · cases hqr : q == r <;> simp [hr, hq, hqr]

/-- Setting an entry changes what one place holds. -/
theorem entry?_set (hp : p ≠ []) (q : Place) :
    entry? (t.set p e) q = if q = p then some e else t.entry? q := by
  by_cases hq : q = []
  · subst hq
    rw [if_neg (Ne.symm hp)]
    rfl
  · rw [entry?_of_ne_nil hq, entry?_of_ne_nil hq, set]
    split
    · next hsome =>
      obtain ⟨old, hold⟩ := Option.isSome_iff_exists.1 hsome
      rw [lookup_map_replace, hold]
      rfl
    · next hnone =>
      rw [Option.not_isSome_iff_eq_none] at hnone
      rw [List.lookup_append, List.lookup_cons, List.lookup_nil]
      by_cases hqp : q = p
      · simp [hqp, hnone]
      · simp [hqp, beq_false_of_ne hqp]

theorem here_set (t : FileTree) (p : Place) (e : Entry) : (t.set p e).here = t.here := by
  rw [set]
  split <;> rfl

/-- A place that is set is listed, and no other one is added. -/
theorem places_set (t : FileTree) (p : Place) (e : Entry) :
    (t.set p e).entries.map (·.1) =
      if (t.entries.lookup p).isSome then t.entries.map (·.1) else t.entries.map (·.1) ++ [p] := by
  rw [set]
  split
  · rw [List.map_map]
    refine List.map_congr_left fun entry _ => ?_
    simp only [Function.comp_apply]
    split <;> rfl
  · simp

/-- All walks of a tree lead where they did in another one: directories are directories still, and
    what was there is there. -/
structure Keeps (t t' : FileTree) : Prop where
  here_eq : t'.here = t.here
  directory : ∀ p, t.entry? p = some .directory → t'.entry? p = some .directory
  isSome : ∀ p, (t.entry? p).isSome → (t'.entry? p).isSome

namespace Keeps

theorem step (h : Keeps t t') (hstep : t.step q name = .ok p) : t'.step q name = .ok p := by
  have hdir := (of_step_eq_ok hstep).1
  rw [FileTree.step, hdir] at hstep
  rw [FileTree.step, h.directory q hdir]
  simp only at hstep ⊢
  split at hstep
  · next hloose => rwa [if_pos hloose]
  split at hstep
  · next hloose hup => rwa [if_neg hloose, if_pos hup]
  split at hstep
  · cases hstep
  split at hstep
  · next hloose hup hsize hthere =>
    rwa [if_neg hloose, if_neg hup, if_neg hsize, if_pos (h.isSome _ hthere)]
  · cases hstep

theorem walk (h : Keeps t t') (hwalk : t.walk q names = .ok p) : t'.walk q names = .ok p := by
  induction names generalizing q with
  | nil => exact hwalk
  | cons name names ih =>
    obtain ⟨q', hstep, hrest⟩ := walk_cons_eq_ok.1 hwalk
    exact walk_cons_eq_ok.2 ⟨q', h.step hstep, ih hrest⟩

theorem origin_eq (h : Keeps t t') (path : Path) : t'.origin path = t.origin path := by
  rw [origin, origin, h.here_eq]

end Keeps

theorem keeps_set (hp : p ≠ []) (hold : t.entry? p ≠ some .directory) : Keeps t (t.set p e) := by
  refine ⟨here_set t p e, fun q hq => ?_, fun q hq => ?_⟩
  · rw [entry?_set hp, if_neg fun heq : q = p => hold (heq ▸ hq), hq]
  · rw [entry?_set hp]
    split
    · rfl
    · exact hq

/-- A tree stays one of a file system when something with a name is put into a directory, unless it
    takes the place of a directory. -/
theorem WellFormed.set (wf : t.WellFormed) (hp : t.entry? p = some .directory)
    (hname : isName name = true) (hold : t.entry? (p ++ [name]) ≠ some .directory) :
    (t.set (p ++ [name]) e).WellFormed := by
  have keeps : Keeps t (t.set (p ++ [name]) e) := keeps_set (by simp) hold
  refine ⟨?_, ?_, fun entry hentry => ?_⟩
  · rw [keeps.here_eq]
    exact keeps.directory _ wf.here_directory
  · rw [places_set]
    split
    · exact wf.places_nodup
    · next hnone =>
      rw [Option.not_isSome_iff_eq_none, List.lookup_eq_none_iff] at hnone
      rw [← List.concat_eq_append]
      refine List.Nodup.concat (fun hmem => ?_) wf.places_nodup
      obtain ⟨entry, hentry, heq⟩ := List.mem_map.1 hmem
      simpa [heq] using hnone entry hentry
  · have hplace : entry.1 ∈ (t.set (p ++ [name]) e).entries.map (·.1) := List.mem_map_of_mem hentry
    have hcases : entry.1 ∈ t.entries.map (·.1) ∨ entry.1 = p ++ [name] := by
      rw [places_set] at hplace
      split at hplace
      · exact Or.inl hplace
      · rwa [List.mem_append, List.mem_singleton] at hplace
    rcases hcases with hlisted | hnew
    · obtain ⟨listed, hmem, heq⟩ := List.mem_map.1 hlisted
      obtain ⟨hlast, hdir⟩ := wf.placed listed hmem
      rw [heq] at hlast hdir
      exact ⟨hlast, keeps.directory _ hdir⟩
    · rw [hnew, List.dropLast_concat, List.getLast?_concat]
      exact ⟨hname, keeps.directory p hp⟩

/-! ### Targets -/

/-- Some pieces are all empty, or have a last one that is not. -/
theorem exists_last_piece (pieces : List String) : (∀ s ∈ pieces, s = "") ∨
    ∃ init last empties, pieces = init ++ last :: empties ∧ last ≠ "" ∧ ∀ s ∈ empties, s = "" := by
  induction pieces using List.reverseRecOn with
  | nil => simp
  | append_singleton pieces s ih =>
    by_cases hs : s = ""
    · subst hs
      rcases ih with hempty | ⟨init, last, empties, rfl, hlast, hempties⟩
      · exact Or.inl (by simpa [or_imp, forall_and] using hempty)
      · refine Or.inr ⟨init, last, empties ++ [""], by simp, hlast, ?_⟩
        simpa [or_imp, forall_and] using hempties
    · exact Or.inr ⟨pieces, s, [], rfl, hs, by simp⟩

/-- Pieces that are all empty spell no name. -/
theorem Target.ofSegments_of_empty (h : ∀ s ∈ names, s = "") :
    Target.ofSegments names = ⟨[], "", true⟩ := by
  have hdrop : names.reverse.dropWhile (fun s => decide (s = "")) = [] := by
    simpa [List.dropWhile_eq_nil_iff] using h
  rw [Target.ofSegments, hdrop]

/-- The last piece that is not empty is the name of a target. -/
theorem Target.ofSegments_append (hlast : last ≠ "") (hempties : ∀ s ∈ empties, s = "") :
    Target.ofSegments (init ++ last :: empties) = ⟨init, last, !empties.isEmpty⟩ := by
  have hdrop : (init ++ last :: empties).reverse.dropWhile (fun s => decide (s = "")) =
      last :: init.reverse := by
    rw [List.reverse_append, List.reverse_cons, List.append_assoc,
      List.dropWhile_append_of_pos (by simpa using hempties)]
    simp [hlast]
  rw [Target.ofSegments, hdrop]
  induction empties using List.reverseRecOn with
  | nil => simp [hlast]
  | append_singleton before s _ =>
    obtain rfl : s = "" := hempties s (by simp)
    rw [← List.cons_append, ← List.append_assoc, List.getLast?_concat]
    simp

theorem Target.ofSegments_concat (hlast : last ≠ "") :
    Target.ofSegments (init ++ [last]) = ⟨init, last, false⟩ :=
  Target.ofSegments_append hlast (by simp)

theorem Target.isLoose_iff {target : Target} : target.isLoose = true ↔
    target.name = "" ∨ target.name = "." ∨ target.name = ".." := by
  simp [Target.isLoose, or_assoc]

theorem parentOf_of_walk (hadmits : Admits path)
    (hwalk : t.walk (t.origin path) (Target.ofSegments path.segments).parent = .ok p)
    (hp : t.entry? p = some .directory) :
    t.parentOf path = .ok (p, Target.ofSegments path.segments) := by
  simp only [parentOf, start_eq hadmits, bind, Except.bind, hwalk, hp]

theorem parentOf_of_error {cause : OsError} (hadmits : Admits path)
    (hwalk : t.walk (t.origin path) (Target.ofSegments path.segments).parent = .error cause) :
    t.parentOf path = .error cause := by
  simp only [parentOf, start_eq hadmits, bind, Except.bind, hwalk]

theorem of_parentOf {target : Target} (h : t.parentOf path = .ok (p, target)) :
    Admits path ∧ target = Target.ofSegments path.segments ∧
      t.walk (t.origin path) target.parent = .ok p ∧ t.entry? p = some .directory := by
  rw [parentOf] at h
  cases hstart : t.start path with
  | error cause => simp [hstart, bind, Except.bind] at h
  | ok origin =>
    have hadmits := admits_of_start hstart
    cases hwalk : t.walk (t.origin path) (Target.ofSegments path.segments).parent with
    | error cause => simp [start_eq hadmits, bind, Except.bind, hwalk] at h
    | ok q =>
      simp only [start_eq hadmits, bind, Except.bind, hwalk] at h
      split at h
      · next hdir =>
        cases h
        exact ⟨hadmits, rfl, hwalk, hdir⟩
      · cases h
      · cases h

/-- A piece of a path is a name unless it leads elsewhere or is too long. -/
theorem isName_of_mem_segments (hadmits : Admits path) (hname : name ∈ path.segments)
    (hloose : ¬ (name = "" ∨ name = "." ∨ name = "..")) (hsize : name.utf8ByteSize ≤ nameMax) :
    isName name = true := by
  rw [not_or, not_or] at hloose
  refine isName_iff.2 ⟨hloose.1, hloose.2.1, hloose.2.2, Path.sep_notMem_segments path name hname,
    fun hnul => hadmits.1 ?_, hsize⟩
  exact (Path.exists_mem_segments (by decide) path).1 ⟨name, hname, hnul⟩

/-- A parent directory with a name to be put into it is found where the pieces before this name
    lead. -/
theorem of_parentOf_name {target : Target} (h : t.parentOf path = .ok (p, target))
    (hloose : ¬ target.isLoose = true) (hsize : ¬ nameMax < target.name.utf8ByteSize) :
    ∃ init last empties, path.segments = init ++ last :: empties ∧ isName last = true ∧
      (∀ s ∈ empties, s = "") ∧ target = ⟨init, last, !empties.isEmpty⟩ ∧ Admits path ∧
      t.walk (t.origin path) init = .ok p ∧ t.entry? p = some .directory := by
  obtain ⟨hadmits, htarget, hwalk, hp⟩ := of_parentOf h
  rw [Target.isLoose_iff] at hloose
  rcases exists_last_piece path.segments with
    hempty | ⟨init, last, empties, hsegments, hlast, hempties⟩
  · rw [Target.ofSegments_of_empty hempty] at htarget
    exact absurd (Or.inl (by rw [htarget])) hloose
  · rw [hsegments, Target.ofSegments_append hlast hempties] at htarget
    subst htarget
    have hname : isName last = true :=
      isName_of_mem_segments hadmits (by simp [hsegments]) hloose (Nat.not_lt.1 hsize)
    exact ⟨init, last, empties, hsegments, hname, hempties, rfl, hadmits, hwalk, hp⟩

/-- A path whose last piece is a name denotes the place of this name below what comes before it. -/
theorem placeFrom_eq_concat (h : path.segments = init ++ last :: empties)
    (hlast : isName last = true) (hempties : ∀ s ∈ empties, s = "")
    (hwalk : t.walk (t.origin path) init = .ok p) : path.placeFrom t.here = p ++ [last] := by
  have hnone : empties.filterMap Path.bodyComponent = [] :=
    List.filterMap_eq_nil_iff.2 fun s hs => by rw [hempties s hs]; rfl
  rw [← foldl_move_segments, h, List.filterMap_append, List.filterMap_cons, hnone,
    Path.bodyComponent_of_isName hlast, List.foldl_append, ← eq_foldl_move_of_walk hwalk]
  rfl

/-- A directory that is made has a name in a directory, where nothing was before. -/
theorem of_makeDirectory (h : t.makeDirectory path = .ok t') :
    ∃ p name, t.entry? p = some .directory ∧ isName name = true ∧ t.entry? (p ++ [name]) = none ∧
      p ++ [name] = path.placeFrom t.here ∧ t' = t.set (p ++ [name]) .directory := by
  rw [makeDirectory] at h
  cases hparent : t.parentOf path with
  | error cause => simp [hparent, bind, Except.bind] at h
  | ok found =>
    obtain ⟨p, target⟩ := found
    simp only [hparent, bind, Except.bind] at h
    split at h
    · cases h
    split at h
    · cases h
    split at h
    · cases h
    next hloose hsize hfree =>
      obtain ⟨init, last, empties, hsegments, hname, hempties, rfl, -, hwalk, hp⟩ :=
        of_parentOf_name hparent hloose hsize
      exact ⟨p, last, hp, hname, Option.not_isSome_iff_eq_none.1 hfree,
        (placeFrom_eq_concat hsegments hname hempties hwalk).symm, (Except.ok.inj h).symm⟩

/-! ### Trees that grow -/

/-- A tree has more directories than another one, all of them at certain places, and is otherwise
    the same. -/
structure Grows (t t' : FileTree) (new : Place → Prop) : Prop where
  here_eq : t'.here = t.here
  entry?_eq_or : ∀ p, t'.entry? p = t.entry? p ∨
    t.entry? p = none ∧ t'.entry? p = some .directory ∧ new p
  wellFormed : t.WellFormed → t'.WellFormed

namespace Grows

variable {new new' : Place → Prop}

theorem refl (t : FileTree) (new : Place → Prop) : Grows t t new := ⟨rfl, fun _ => Or.inl rfl, id⟩

theorem trans (h₁ : Grows t t₁ new) (h₂ : Grows t₁ t₂ new) : Grows t t₂ new := by
  refine ⟨h₂.here_eq.trans h₁.here_eq, fun p => ?_, fun wf => h₂.wellFormed (h₁.wellFormed wf)⟩
  rcases h₂.entry?_eq_or p with heq | ⟨hnone, hdir, hnew⟩
  · rw [heq]
    exact h₁.entry?_eq_or p
  · rcases h₁.entry?_eq_or p with heq | ⟨-, hdir', -⟩
    · exact Or.inr ⟨heq ▸ hnone, hdir, hnew⟩
    · rw [hnone] at hdir'
      cases hdir'

theorem mono (h : Grows t t' new) (hnew : ∀ p, new p → new' p) : Grows t t' new' := by
  refine ⟨h.here_eq, fun p => (h.entry?_eq_or p).imp_right ?_, h.wellFormed⟩
  rintro ⟨hnone, hdir, hp⟩
  exact ⟨hnone, hdir, hnew p hp⟩

theorem keeps (h : Grows t t' new) : Keeps t t' := by
  refine ⟨h.here_eq, fun p hp => ?_, fun p hp => ?_⟩
  · rcases h.entry?_eq_or p with heq | ⟨-, hdir, -⟩
    · rw [heq, hp]
    · exact hdir
  · rcases h.entry?_eq_or p with heq | ⟨hnone, -, -⟩
    · rwa [heq]
    · simp [hnone] at hp

/-- The files are the same. -/
theorem entry?_eq_file_iff (h : Grows t t' new) {bytes : List UInt8} :
    t'.entry? p = some (.file bytes) ↔ t.entry? p = some (.file bytes) := by
  rcases h.entry?_eq_or p with heq | ⟨hnone, hdir, -⟩
  · rw [heq]
  · simp [hnone, hdir]

end Grows

theorem makeDirectory_grows (h : t.makeDirectory path = .ok t') :
    Grows t t' (· = path.placeFrom t.here) := by
  obtain ⟨p, name, hp, hname, hfree, hplace, rfl⟩ := of_makeDirectory h
  refine ⟨here_set .., fun q => ?_, fun wf => wf.set hp hname (by simp [hfree])⟩
  rw [entry?_set (by simp)]
  split
  · next hq => exact Or.inr ⟨hq ▸ hfree, rfl, hq.trans hplace⟩
  · exact Or.inl rfl

theorem settle_grows (t : FileTree) (path : Path) :
    Grows t (t.settle path).2 (· = path.placeFrom t.here) := by
  rw [settle]
  cases hmade : t.makeDirectory path with
  | ok t' => exact makeDirectory_grows hmade
  | error cause => cases t.isDirectory path <;> exact Grows.refl ..

/-- What is made does not depend on a bound for the number of directories. -/
theorem makeAll_eq (t : FileTree) (path : Path) : t.makeAll path =
    if path.components = [] then (.ok (), t)
    else match t.makeDirectory path with
      | .error .notFound =>
        match path.parent? with
        | none => (.error (.other "failed to create whole tree"), t)
        | some above =>
          match t.makeAll above with
          | (.error cause, t') => (.error cause, t')
          | (.ok _, t') => t'.settle path
      | _ => t.settle path := by
  rw [makeAll, makeAllWithin]
  cases hup : path.parent? with
  | none => rfl
  | some above =>
    rw [Path.length_components_parent? hup]
    rfl

/-- Making a directory with those above it makes directories on the way to it and its own, and
    changes nothing else, whether or not it succeeds. -/
theorem makeAll_grows (t : FileTree) (path : Path) :
    Grows t (t.makeAll path).2 fun p => p ∈ t.way path ∨ p = path.placeFrom t.here := by
  induction hn : path.components.length generalizing path with
  | zero =>
    rw [makeAll_eq, if_pos (List.length_eq_zero_iff.1 hn)]
    exact Grows.refl ..
  | succ n ih =>
    have hself (t' : FileTree) (hhere : t'.here = t.here) : Grows t' (t'.settle path).2
        fun p => p ∈ t.way path ∨ p = path.placeFrom t.here :=
      (settle_grows t' path).mono fun p hp => Or.inr (by rw [hp, hhere])
    rw [makeAll_eq]
    split
    · exact Grows.refl ..
    split
    · split
      · exact Grows.refl ..
      · next above hup =>
        have hlength := Path.length_components_parent? hup
        have habove : Grows t (t.makeAll above).2
            fun p => p ∈ t.way path ∨ p = path.placeFrom t.here :=
          (ih above (by omega)).mono fun p hp => Or.inl (mem_way_of_parent? hup hp)
        split
        · next heq => rwa [heq] at habove
        · next t' heq =>
          rw [heq] at habove
          exact habove.trans (hself t' habove.here_eq)
    · exact hself t rfl

end LintRun.FileTree
