import LintRun.Proofs.Files.Made
import LintRun.Proofs.Path.Trimmed

/-! Where nothing is in the way of a directory, it comes to be there with those above it.

    In the way is a file at a place that the path leads through, or a piece that is too long
    (`Clear`). Otherwise a walk can only come to a name that is missing (`WellFormed.walk_cases`), so
    the directories above are made first, and then the directory itself (`WellFormed.makeAll_leads`).
    The induction is on the components of the path, of which the path above has one less. -/

namespace LintRun.FileTree

open LintRun.Path (bodyComponent isLoose)

variable {t t' : FileTree} {p q : Place} {name last : String} {names init : List String}
  {path above : Path}

/-! ### Walks with nothing in the way -/

theorem WellFormed.directory_dropLast (wf : t.WellFormed) (hp : t.entry? p = some .directory) :
    t.entry? p.dropLast = some .directory := by
  rcases p.eq_nil_or_concat' with rfl | ⟨init, last, rfl⟩
  · exact hp
  · rw [List.dropLast_concat]
    exact (wf.above hp).2

theorem WellFormed.directory_origin (wf : t.WellFormed) (path : Path) :
    t.entry? (t.origin path) = some .directory := by
  rw [origin]
  split
  · rfl
  · exact wf.here_directory

theorem step_loose (hp : t.entry? p = some .directory) (hname : isLoose name = true) :
    t.step p name = .ok p := by
  rcases Path.bodyComponent_eq_none_iff.1 (Option.isNone_iff_eq_none.1 hname) with rfl | rfl
  · exact step_empty hp
  · exact step_current hp

theorem step_up (hp : t.entry? p = some .directory) : t.step p ".." = .ok p.dropLast := by
  rw [step, hp]
  rfl

theorem step_name (hp : t.entry? p = some .directory) (hname : isName name = true) :
    t.step p name =
      if (t.entry? (p ++ [name])).isSome then .ok (p ++ [name]) else .error .notFound := by
  obtain ⟨hempty, hcurrent, hparent, -, -, hsize⟩ := isName_iff.1 hname
  rw [step, hp]
  simp [hempty, hcurrent, hparent, Nat.not_lt.2 hsize]

theorem walk_loose (hp : t.entry? p = some .directory) (hnames : ∀ s ∈ names, isLoose s = true) :
    t.walk p names = .ok p := by
  induction names with
  | nil => rfl
  | cons name names ih =>
    obtain ⟨hname, hnames⟩ := List.forall_mem_cons.1 hnames
    exact walk_cons_eq_ok.2 ⟨p, step_loose hp hname, ih hnames⟩

/-- A piece of a path is no component, leads up, or is a name if it is not too long. -/
theorem piece_cases (hadmits : Admits path) (hname : name ∈ path.segments)
    (hsize : name.utf8ByteSize ≤ nameMax) :
    isLoose name = true ∨ name = ".." ∨ isName name = true := by
  by_cases hloose : name = "" ∨ name = "."
  · exact Or.inl (Option.isNone_iff_eq_none.2 (Path.bodyComponent_eq_none_iff.2 hloose))
  · by_cases hup : name = ".."
    · exact Or.inr (Or.inl hup)
    · refine Or.inr (Or.inr (isName_of_mem_segments hadmits hname ?_ hsize))
      rw [← or_assoc]
      exact not_or.2 ⟨hloose, hup⟩

/-- Where no file is in the way, a walk ends in a directory or at a name that is missing. -/
theorem WellFormed.walk_cases (wf : t.WellFormed) (hp : t.entry? p = some .directory)
    (hnames : ∀ s ∈ names, isLoose s = true ∨ s = ".." ∨ isName s = true)
    (hclear : ∀ before, before <+: names → ∀ bytes,
      t.entry? ((before.filterMap bodyComponent).foldl Component.move p) ≠ some (.file bytes)) :
    t.walk p names = .error .notFound ∨
      ∃ q, t.walk p names = .ok q ∧ t.entry? q = some .directory := by
  induction names generalizing p with
  | nil => exact Or.inr ⟨p, rfl, hp⟩
  | cons name names ih =>
    obtain ⟨hname, hnames⟩ := List.forall_mem_cons.1 hnames
    have hon {q : Place} (hstep : t.step p name = .ok q) (hq : t.entry? q = some .directory) :
        t.walk p (name :: names) = .error .notFound ∨
          ∃ q, t.walk p (name :: names) = .ok q ∧ t.entry? q = some .directory := by
      have hwalk : t.walk p (name :: names) = t.walk q names := by
        rw [walk, hstep]
        rfl
      rw [hwalk]
      refine ih hq hnames fun before hbefore => ?_
      have h := hclear (name :: before) (List.cons_prefix_cons.2 ⟨rfl, hbefore⟩)
      have hsplit : (name :: before).filterMap bodyComponent =
          (bodyComponent name).toList ++ before.filterMap bodyComponent := by
        cases hbody : bodyComponent name <;> simp [hbody]
      rwa [hsplit, List.foldl_append, ← eq_move_of_step hstep] at h
    rcases hname with hname | rfl | hname
    · exact hon (step_loose hp hname) hp
    · exact hon (step_up hp) (wf.directory_dropLast hp)
    · have hthere := hclear [name] (List.cons_prefix_cons.2 ⟨rfl, List.nil_prefix⟩)
      have hplace : ([name].filterMap bodyComponent).foldl Component.move p = p ++ [name] := by
        rw [List.filterMap_cons, Path.bodyComponent_of_isName hname]
        rfl
      have hstep := step_name hp hname
      cases hentry : t.entry? (p ++ [name]) with
      | none =>
        left
        rw [walk, hstep, hentry]
        rfl
      | some found =>
        cases found with
        | file bytes => exact absurd hentry (hplace ▸ hthere bytes)
        | directory => exact hon (by rw [hstep, hentry]; rfl) hentry

/-! ### Directories that come to be there -/

theorem size_of_step (h : t.step p name = .ok q) : name.utf8ByteSize ≤ nameMax := by
  rw [step, (of_step_eq_ok h).1] at h
  by_cases hloose : name = "" ∨ name = "." ∨ name = ".."
  · rcases hloose with rfl | rfl | rfl <;> decide
  · simp only [not_or] at hloose
    simp only [hloose, decide_false, Bool.or_self, Bool.false_eq_true, if_false] at h
    split at h
    · cases h
    · next hsize => exact Nat.not_lt.1 hsize

/-- A directory with a name is made unless something is there. -/
theorem makeDirectory_of_name {trailing : Bool}
    (hparent : t.parentOf path = .ok (p, Target.ofSegments path.segments))
    (htarget : Target.ofSegments path.segments = ⟨init, last, trailing⟩)
    (hname : isName last = true) : t.makeDirectory path =
      if (t.entry? (p ++ [last])).isSome then .error .fileExists
      else .ok (t.set (p ++ [last]) .directory) := by
  obtain ⟨hempty, hcurrent, hup, -, -, hsize⟩ := isName_iff.1 hname
  rw [makeDirectory, hparent, htarget]
  simp [bind, Except.bind, Target.isLoose, hempty, hcurrent, hup, Nat.not_lt.2 hsize]

/-- A directory that is there is not made. -/
theorem makeDirectory_of_isDirectory (h : t.isDirectory path = true) :
    t.makeDirectory path = .error .fileExists := by
  obtain ⟨place, hresolve, hplace⟩ := isDirectory_iff.1 h
  have hadmits := admits_of_resolve hresolve
  have hwalk := walk_of_resolve hresolve
  rcases exists_last_piece path.segments with
    hempty | ⟨init, last, empties, hsegments, hlast, hempties⟩
  · have htarget := Target.ofSegments_of_empty hempty
    have hparent := parentOf_of_walk hadmits (by rw [htarget]; rfl) (directory_of_walk hplace hwalk)
    rw [makeDirectory, hparent, htarget]
    rfl
  · have htarget : Target.ofSegments path.segments = ⟨init, last, !empties.isEmpty⟩ := by
      rw [hsegments, Target.ofSegments_append hlast hempties]
    rw [hsegments, walk_append_eq_ok] at hwalk
    obtain ⟨p, hinit, hrest⟩ := hwalk
    have hp := directory_of_walk hplace hrest
    obtain ⟨q, hstep, -⟩ := walk_cons_eq_ok.1 hrest
    have hparent := parentOf_of_walk hadmits (by rw [htarget]; exact hinit) hp
    rcases piece_cases hadmits (by simp [hsegments]) (size_of_step hstep) with
      hloose | rfl | hname
    · obtain rfl : last = "." :=
        (Path.bodyComponent_eq_none_iff.1 (Option.isNone_iff_eq_none.1 hloose)).resolve_left hlast
      rw [makeDirectory, hparent, htarget]
      rfl
    · rw [makeDirectory, hparent, htarget]
      rfl
    · have hthere : (t.entry? (p ++ [last])).isSome = true := by
        rw [step_name hp hname] at hstep
        by_contra hnone
        rw [if_neg hnone] at hstep
        cases hstep
      rw [makeDirectory_of_name hparent htarget hname, if_pos hthere]

theorem makeAll_of_isDirectory (h : t.isDirectory path = true) : t.makeAll path = (.ok (), t) := by
  rw [makeAll_eq, makeDirectory_of_isDirectory h]
  simp [settle, makeDirectory_of_isDirectory h, h]

/-- A path whose pieces but the last one lead to a directory leads on from there. -/
theorem resolve_concat (hadmits : Admits path) (hsegments : path.segments = init ++ [last])
    (hwalk : t.walk (t.origin path) init = .ok p) : t.resolve path = t.step p last := by
  rw [resolve_eq hadmits, hsegments, walk_append, hwalk]
  exact walk_singleton t p last

/-- Below a directory another one comes to be there, if it is not, unless a file has its place. -/
theorem WellFormed.settle_of_walk (wf : t.WellFormed) (hadmits : Admits path)
    (hsegments : path.segments = init ++ [last]) (hlast : isLoose last = false)
    (hsize : last.utf8ByteSize ≤ nameMax) (hwalk : t.walk (t.origin path) init = .ok p)
    (hp : t.entry? p = some .directory)
    (hfile : ∀ bytes, t.entry? (path.placeFrom t.here) ≠ some (.file bytes)) :
    t.makeDirectory path ≠ .error .notFound ∧
      ∃ t', t.settle path = (.ok (), t') ∧ t'.isDirectory path = true := by
  by_cases hdir : t.isDirectory path = true
  · have hmade := makeDirectory_of_isDirectory hdir
    exact ⟨by simp [hmade], t, by simp [settle, hmade, hdir], hdir⟩
  · have hresolve := resolve_concat hadmits hsegments hwalk
    rcases piece_cases hadmits (by simp [hsegments]) hsize with hloose | rfl | hname
    · simp [hlast] at hloose
    · rw [step_up hp] at hresolve
      exact absurd (isDirectory_iff.2 ⟨_, hresolve, wf.directory_dropLast hp⟩) hdir
    · have hempty : last ≠ "" := (isName_iff.1 hname).1
      have htarget : Target.ofSegments path.segments = ⟨init, last, false⟩ := by
        rw [hsegments, Target.ofSegments_concat hempty]
      have hparent := parentOf_of_walk hadmits (by rw [htarget]; exact hwalk) hp
      rw [placeFrom_eq_concat hsegments hname (by simp) hwalk] at hfile
      rw [step_name hp hname] at hresolve
      cases hentry : t.entry? (p ++ [last]) with
      | some found =>
        cases found with
        | file bytes => exact absurd hentry (hfile bytes)
        | directory =>
          rw [hentry] at hresolve
          exact absurd (isDirectory_iff.2 ⟨_, hresolve, hentry⟩) hdir
      | none =>
        have hmade : t.makeDirectory path = .ok (t.set (p ++ [last]) .directory) := by
          rw [makeDirectory_of_name hparent htarget hname, hentry]
          rfl
        refine ⟨by simp [hmade], _, by rw [settle, hmade], isDirectory_iff.2 ⟨p ++ [last], ?_, ?_⟩⟩
        · have keeps : Keeps t (t.set (p ++ [last]) .directory) := keeps_set (by simp) (by simp [hentry])
          rw [resolve_concat hadmits hsegments (by rw [keeps.origin_eq]; exact keeps.walk hwalk),
            step_name (keeps.directory p hp) hname, entry?_set (by simp), if_pos rfl]
          rfl
        · rw [entry?_set (by simp), if_pos rfl]

/-- Nothing is in the way of a path: no piece is too long, and no file is at a place that the path
    leads through. -/
structure Clear (t : FileTree) (path : Path) : Prop where
  admits : path.isEmpty = true ∨ Admits path
  size : ∀ s ∈ path.segments, s.utf8ByteSize ≤ nameMax
  way : ∀ p ∈ t.way path, ∀ bytes, t.entry? p ≠ some (.file bytes)

/-- Nothing is in the way of the path above either, and no file is at its place. -/
theorem Clear.parent? (h : t.Clear path) (hup : path.parent? = some above) :
    t.Clear above ∧ ∀ bytes, t.entry? (above.placeFrom t.here) ≠ some (.file bytes) := by
  refine ⟨⟨?_, fun s hs => ?_, fun p hp => h.way p (mem_way_of_parent? hup (Or.inl hp))⟩,
    h.way _ (mem_way_of_parent? hup (Or.inr rfl))⟩
  · cases hempty : above.isEmpty with
    | true => exact Or.inl rfl
    | false =>
      rcases h.admits with hpath | hadmits
      · exact absurd (components_of_isEmpty hpath) (Path.eq_of_parent? hup).1
      · exact Or.inr (hadmits.of_sublist hempty (Path.text_isPrefix_of_parent? hup).sublist)
  · obtain ⟨pieces, hpieces, hsegments⟩ := Path.exists_isPrefix_of_parent? hup
    have hcases : s ∈ path.segments ∨ s = "" := by
      rcases hsegments with heq | heq <;> rw [heq] at hs
      · exact Or.inl (hpieces.subset hs)
      · rw [List.mem_append, List.mem_singleton] at hs
        exact hs.imp_left fun hmem => hpieces.subset hmem
    rcases hcases with hmem | rfl
    · exact h.size s hmem
    · decide

/-- From where the path above leads, the pieces of a path but the last one lead nowhere else. -/
theorem Leads.walk_init (h : t.Leads above p) (hp : t.entry? p = some .directory)
    (hup : path.parent? = some above) (hsegments : path.segments = init ++ [last])
    (hlast : isLoose last = false) : t.walk (t.origin path) init = .ok p := by
  have horigin : t.origin path = t.origin above := by
    rw [origin, origin, Path.isAbsolute_parent? hup]
  have habove : t.walk (t.origin above) above.segments = .ok p := by
    rcases h with hresolve | ⟨hempty, rfl⟩
    · exact walk_of_resolve hresolve
    · have habs : above.isAbsolute = false := by
        rw [Path.isEmpty, String.isEmpty_iff] at hempty
        simp [Path.isAbsolute, hempty]
      rw [Path.segments_of_isEmpty hempty, origin, habs]
      exact walk_loose hp (by decide)
  obtain ⟨pieces, loose, rfl, hloose, hpieces⟩ := Path.exists_loose_of_parent? hup hsegments hlast
  have hwalk : t.walk (t.origin above) pieces = .ok p := by
    rcases hpieces with heq | heq <;> rw [heq] at habove
    · exact habove
    · obtain ⟨q, hq, hrest⟩ := walk_append_eq_ok.1 habove
      rwa [eq_of_walk_loose (by simp [bodyComponent]) hrest]
  rw [horigin, walk_append_eq_ok]
  exact ⟨p, hwalk, walk_loose hp hloose⟩

/-- If nothing is in the way, a path leads to a directory up to its last piece, or to a name that is
    missing. -/
theorem Clear.init_cases (h : t.Clear path) (wf : t.WellFormed) (hadmits : Admits path)
    (hsegments : path.segments = init ++ [last]) (hlast : isLoose last = false) :
    t.walk (t.origin path) init = .error .notFound ∨
      ∃ p, t.walk (t.origin path) init = .ok p ∧ t.entry? p = some .directory := by
  refine wf.walk_cases (wf.directory_origin path) (fun s hs => ?_) fun before hbefore => ?_
  · have hmem : s ∈ path.segments := by simp [hsegments, hs]
    exact piece_cases hadmits hmem (h.size s hmem)
  · obtain ⟨more, rfl⟩ := hbefore
    rw [List.append_assoc] at hsegments
    refine h.way _ (mem_way_of_pieces hsegments ?_)
    intro hnone
    have hall := List.filterMap_eq_nil_iff.1 hnone last (by simp)
    rw [isLoose, hall] at hlast
    cases hlast

theorem makeDirectory_of_missing (hadmits : Admits path) (hsegments : path.segments = init ++ [last])
    (hlast : isLoose last = false) (hwalk : t.walk (t.origin path) init = .error .notFound) :
    t.makeDirectory path = .error .notFound := by
  have hempty : last ≠ "" := by
    rintro rfl
    cases hlast
  have hparent : t.parentOf path = .error .notFound :=
    parentOf_of_error hadmits (by rw [hsegments, Target.ofSegments_concat hempty]; exact hwalk)
  rw [makeDirectory, hparent]
  rfl

theorem makeAll_of_made (hne : path.components ≠ [])
    (hmade : t.makeDirectory path ≠ .error .notFound) : t.makeAll path = t.settle path := by
  rw [makeAll_eq, if_neg hne]
  split
  · next hmissing => exact absurd hmissing hmade
  · rfl

theorem makeAll_of_missing {t₁ : FileTree} (hup : path.parent? = some above)
    (hmissing : t.makeDirectory path = .error .notFound)
    (habove : t.makeAll above = (.ok (), t₁)) : t.makeAll path = t₁.settle path := by
  rw [makeAll_eq, if_neg (Path.eq_of_parent? hup).1, hmissing, hup]
  simp only [habove]

/-- Where nothing is in the way, a directory and those above it come to be there. -/
theorem WellFormed.makeAll_leads (wf : t.WellFormed) (hclear : t.Clear path)
    (hfile : ∀ bytes, t.entry? (path.placeFrom t.here) ≠ some (.file bytes))
    (htrimmed : Path.Trimmed path.segments) :
    ∃ t', t.makeAll path = (.ok (), t') ∧
      ∃ p, t'.Leads path p ∧ t'.entry? p = some .directory := by
  induction hn : path.components.length using Nat.strong_induction_on generalizing path with
  | _ n ih =>
    rcases hclear.admits with hempty | hadmits
    · exact ⟨t, by rw [makeAll_eq, if_pos (components_of_isEmpty hempty)], t.here,
        Or.inr ⟨hempty, rfl⟩, wf.here_directory⟩
    suffices h : ∃ t', t.makeAll path = (.ok (), t') ∧ t'.isDirectory path = true by
      obtain ⟨t', hmade, hdir⟩ := h
      obtain ⟨p, hresolve, hp⟩ := isDirectory_iff.1 hdir
      exact ⟨t', hmade, p, Or.inl hresolve, hp⟩
    rcases htrimmed with hloose | ⟨init, last, hsegments, hlast⟩
    · -- the root, or a dot
      have hresolve := resolve_eq (t := t) hadmits
      rw [walk_loose (wf.directory_origin path) hloose] at hresolve
      have hdir := isDirectory_iff.2 ⟨_, hresolve, wf.directory_origin path⟩
      exact ⟨t, makeAll_of_isDirectory hdir, hdir⟩
    · obtain ⟨above, hup⟩ := Path.exists_parent? hsegments hlast
      have hsize := hclear.size last (by simp [hsegments])
      rcases hclear.init_cases wf hadmits hsegments hlast with hmissing | ⟨p, hwalk, hp⟩
      · have hlength := Path.length_components_parent? hup
        obtain ⟨hclear', hfile'⟩ := hclear.parent? hup
        obtain ⟨t₁, habove, p, hleads, hp⟩ :=
          ih above.components.length (by omega) hclear' hfile' (Path.trimmed_parent? hup) rfl
        have hgrows := makeAll_grows t above
        rw [habove] at hgrows
        have hfile₁ (bytes : List UInt8) :
            t₁.entry? (path.placeFrom t₁.here) ≠ some (.file bytes) := by
          rw [hgrows.here_eq, ne_eq, hgrows.entry?_eq_file_iff]
          exact hfile bytes
        obtain ⟨-, t', hsettled, hdir⟩ := (hgrows.wellFormed wf).settle_of_walk hadmits hsegments
          hlast hsize (hleads.walk_init hp hup hsegments hlast) hp hfile₁
        refine ⟨t', ?_, hdir⟩
        rw [makeAll_of_missing hup (makeDirectory_of_missing hadmits hsegments hlast hmissing) habove,
          hsettled]
      · obtain ⟨hmade, t', hsettled, hdir⟩ := wf.settle_of_walk hadmits hsegments hlast hsize hwalk hp
          hfile
        exact ⟨t', (makeAll_of_made (Path.eq_of_parent? hup).1 hmade).trans hsettled, hdir⟩

end LintRun.FileTree
