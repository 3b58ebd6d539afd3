import LintRun.Files.Tree
import LintRun.Proofs.Path.Segments
import Mathlib.Data.List.Induction

/-! How paths lead through a tree that a file system can hold.

    In such a tree every place has a name that a directory can hold and lies in a directory, so the
    names of a place lead to it (`WellFormed.walk_names`). A path is looked up if a system takes it
    at all (`Admits`), and a path below another one leads on from there (`resolve_join`). -/

namespace LintRun.FileTree

variable {t : FileTree} {p q : Place} {e : Entry} {name : String} {names : List String}
  {path : Path}

/-! ### Trees of a file system -/

/-- Whether a directory can hold something of this name. -/
def isName (s : String) : Bool :=
  s ≠ "" && s ≠ "." && s ≠ ".." && !s.toList.contains '/' && !s.toList.contains '\x00' &&
    s.utf8ByteSize ≤ nameMax

theorem isName_iff : isName name = true ↔ name ≠ "" ∧ name ≠ "." ∧ name ≠ ".." ∧
    '/' ∉ name.toList ∧ '\x00' ∉ name.toList ∧ name.utf8ByteSize ≤ nameMax := by
  simp [isName, and_assoc]

/-- Relative paths begin in a directory, no place is listed twice, and whatever is listed has a name
    and lies in a directory. -/
structure WellFormed (t : FileTree) : Prop where
  here_directory : t.entry? t.here = some .directory
  places_nodup : (t.entries.map (·.1)).Nodup
  placed : ∀ entry ∈ t.entries,
    entry.1.getLast?.any isName = true ∧ t.entry? entry.1.dropLast = some .directory

instance : Decidable t.WellFormed :=
  decidable_of_iff
    (t.entry? t.here = some .directory ∧ (t.entries.map (·.1)).Nodup ∧ ∀ entry ∈ t.entries,
      entry.1.getLast?.any isName = true ∧ t.entry? entry.1.dropLast = some .directory)
    ⟨fun h => ⟨h.1, h.2.1, h.2.2⟩, fun h => ⟨h.here_directory, h.places_nodup, h.placed⟩⟩

theorem entry?_of_ne_nil (hp : p ≠ []) : t.entry? p = t.entries.lookup p := if_neg hp

theorem mem_entries (hp : p ≠ []) (h : t.entry? p = some e) : (p, e) ∈ t.entries := by
  rw [entry?_of_ne_nil hp, List.lookup_eq_some_iff] at h
  obtain ⟨before, after, heq, -⟩ := h
  simp [heq]

namespace WellFormed

theorem ne_nil_of_mem (wf : t.WellFormed) (h : (p, e) ∈ t.entries) : p ≠ [] := by
  rintro rfl
  simpa using (wf.placed _ h).1

/-- A place holds what is listed for it. -/
theorem entry?_of_mem (wf : t.WellFormed) (h : (p, e) ∈ t.entries) : t.entry? p = some e := by
  rw [entry?_of_ne_nil (wf.ne_nil_of_mem h), List.lookup_eq_some_iff]
  obtain ⟨before, after, heq⟩ := List.append_of_mem h
  have hnodup := wf.places_nodup
  rw [heq, List.map_append, List.nodup_append] at hnodup
  refine ⟨before, after, heq, fun entry hentry => ?_⟩
  have hne := hnodup.2.2 _ (List.mem_map_of_mem hentry) p (by simp)
  simpa using Ne.symm hne

/-- Whatever lies in a place has a name there, and the place is a directory. -/
theorem above (wf : t.WellFormed) (h : t.entry? (p ++ [name]) = some e) :
    isName name = true ∧ t.entry? p = some .directory := by
  simpa using wf.placed _ (mem_entries (by simp) h)

theorem isName_of_eq_some (wf : t.WellFormed) (h : t.entry? (p ++ names) = some e) :
    ∀ name ∈ names, isName name = true := by
  induction names using List.reverseRecOn generalizing e with
  | nil => simp
  | append_singleton names last ih =>
    rw [← List.append_assoc] at h
    obtain ⟨hlast, hdir⟩ := wf.above h
    intro name hname
    rcases List.mem_append.1 hname with hname | hname
    · exact ih hdir name hname
    · rwa [List.mem_singleton.1 hname]

end WellFormed

/-! ### Walks -/

theorem walk_append (t : FileTree) (p : Place) (names more : List String) :
    t.walk p (names ++ more) = t.walk p names >>= fun q => t.walk q more := by
  induction names generalizing p with
  | nil => rfl
  | cons name names ih =>
    rw [List.cons_append, walk, walk]
    cases t.step p name with
    | error e => rfl
    | ok q => exact ih q

theorem walk_singleton (t : FileTree) (p : Place) (name : String) :
    t.walk p [name] = t.step p name := by
  rw [walk]
  cases t.step p name <;> rfl

theorem walk_cons_eq_ok : t.walk q (name :: names) = .ok p ↔
    ∃ q', t.step q name = .ok q' ∧ t.walk q' names = .ok p := by
  rw [walk]
  cases t.step q name <;> simp [bind, Except.bind]

theorem walk_append_eq_ok {more : List String} : t.walk q (names ++ more) = .ok p ↔
    ∃ q', t.walk q names = .ok q' ∧ t.walk q' more = .ok p := by
  rw [walk_append]
  cases t.walk q names <;> simp [bind, Except.bind]

theorem step_empty (h : t.entry? p = some .directory) : t.step p "" = .ok p := by
  rw [step, h]
  rfl

theorem step_current (h : t.entry? p = some .directory) : t.step p "." = .ok p := by
  rw [step, h]
  rfl

/-- A step begins in a directory. Unless it leads up, it ends where something is. -/
theorem of_step_eq_ok (h : t.step p name = .ok q) :
    t.entry? p = some .directory ∧ (name ≠ ".." → (t.entry? q).isSome) := by
  rw [step] at h
  cases hp : t.entry? p with
  | none => rw [hp] at h; cases h
  | some found =>
    cases found with
    | file bytes => rw [hp] at h; cases h
    | directory =>
      refine ⟨rfl, fun hname => ?_⟩
      simp only [hp, hname] at h
      grind

/-- A piece that is no component leads nowhere else. -/
theorem eq_of_step_loose (hloose : Path.bodyComponent name = none) (h : t.step q name = .ok p) :
    q = p := by
  have hq := (of_step_eq_ok h).1
  rcases Path.bodyComponent_eq_none_iff.1 hloose with rfl | rfl
  · rw [step_empty hq] at h
    exact Except.ok.inj h
  · rw [step_current hq] at h
    exact Except.ok.inj h

theorem eq_of_walk_loose (hloose : names.filterMap Path.bodyComponent = [])
    (h : t.walk q names = .ok p) : p = q := by
  induction names with
  | nil => exact (Except.ok.inj h).symm
  | cons name names ih =>
    rw [List.filterMap_eq_nil_iff, List.forall_mem_cons, ← List.filterMap_eq_nil_iff] at hloose
    obtain ⟨q', hstep, hwalk⟩ := walk_cons_eq_ok.1 h
    obtain rfl := eq_of_step_loose hloose.1 hstep
    exact ih hloose.2 hwalk

/-- The names of a place lead to it. -/
theorem WellFormed.walk_names (wf : t.WellFormed) (h : t.entry? (p ++ names) = some e) :
    t.walk p names = .ok (p ++ names) := by
  induction names using List.reverseRecOn generalizing e with
  | nil => simp [walk]
  | append_singleton names last ih =>
    rw [← List.append_assoc] at h
    obtain ⟨hlast, hdir⟩ := wf.above h
    obtain ⟨hempty, hcurrent, hparent, -, -, hsize⟩ := isName_iff.1 hlast
    rw [walk_append, ih hdir]
    change t.walk (p ++ names) [last] = _
    rw [walk_singleton, step, hdir, ← List.append_assoc]
    simp only [hempty, hcurrent, hparent, Nat.not_lt.2 hsize, h]
    simp

/-! ### Paths -/

/-- A path that a system looks up: it has text, no end mark in it, and is not too long. -/
def Admits (path : Path) : Prop :=
  '\x00' ∉ path.text.toList ∧ path.isEmpty = false ∧ path.text.utf8ByteSize < pathLimit

theorem size_utf8Encode_le_of_sublist {l m : List Char} (h : l.Sublist m) :
    l.utf8Encode.size ≤ m.utf8Encode.size := by
  induction h with
  | slnil => exact Nat.le_refl _
  | @cons l m c _ ih =>
    rw [@List.utf8Encode_cons c m, ByteArray.size_append]
    omega
  | @cons_cons l m c _ ih =>
    rw [@List.utf8Encode_cons c l, @List.utf8Encode_cons c m, ByteArray.size_append,
      ByteArray.size_append]
    omega

theorem utf8ByteSize_le_of_sublist {s s' : String} (h : s.toList.Sublist s'.toList) :
    s.utf8ByteSize ≤ s'.utf8ByteSize := by
  simpa [String.utf8Encode_toList, String.size_toByteArray] using size_utf8Encode_le_of_sublist h

/-- A path of some characters of one that is looked up is looked up too. -/
theorem Admits.of_sublist {short : Path} (h : Admits path) (hshort : short.isEmpty = false)
    (hsub : short.text.toList.Sublist path.text.toList) : Admits short :=
  ⟨fun hnul => h.1 (hsub.subset hnul), hshort,
    Nat.lt_of_le_of_lt (utf8ByteSize_le_of_sublist hsub) h.2.2⟩

/-- Where the walk along a path begins. -/
def origin (t : FileTree) (path : Path) : Place := if path.isAbsolute then [] else t.here

theorem start_eq (h : Admits path) : t.start path = .ok (t.origin path) := by
  obtain ⟨hnul, htext, hsize⟩ := h
  rw [start, if_neg (by simpa using hnul), if_neg (by simp [htext]), if_neg (Nat.not_le.2 hsize)]
  rfl

theorem admits_of_start (h : t.start path = .ok p) : Admits path := by
  rw [start] at h
  split at h
  · cases h
  split at h
  · cases h
  split at h
  · cases h
  next hnul htext hsize => exact ⟨by simpa using hnul, by simpa using htext, Nat.not_le.1 hsize⟩

theorem resolve_eq (h : Admits path) : t.resolve path = t.walk (t.origin path) path.segments := by
  rw [resolve, start_eq h]
  rfl

theorem admits_of_resolve (h : t.resolve path = .ok p) : Admits path := by
  rw [resolve] at h
  cases hstart : t.start path with
  | error cause => rw [hstart] at h; cases h
  | ok q => exact admits_of_start hstart

theorem walk_of_resolve (h : t.resolve path = .ok p) :
    t.walk (t.origin path) path.segments = .ok p := by
  rw [← resolve_eq (admits_of_resolve h), h]

/-- A separator at the end of a path leads nowhere else. -/
theorem walk_trail (h : t.resolve path = .ok p) :
    t.walk (t.origin path) path.trail = .ok p := by
  have hwalk := walk_of_resolve h
  rcases path.segments_eq_trail with heq | heq
  · rwa [heq] at hwalk
  · rw [heq] at hwalk
    obtain ⟨q, htrail, hrest⟩ := walk_append_eq_ok.1 hwalk
    rwa [eq_of_walk_loose (by simp [Path.bodyComponent]) hrest]

/-- A path below another one leads on from there. -/
theorem resolve_join {more : Path} (h : t.resolve path = .ok p)
    (hmore : more.isAbsolute = false) (hjoin : Admits (path.join more)) :
    t.resolve (path.join more) = t.walk p more.segments := by
  have hpath := (admits_of_resolve h).2.1
  rw [resolve_eq hjoin, Path.segments_join hpath hmore, walk_append, origin,
    Path.isAbsolute_join hpath hmore, ← origin, walk_trail h]
  rfl

theorem isDirectory_iff :
    t.isDirectory path = true ↔ ∃ p, t.resolve path = .ok p ∧ t.entry? p = some .directory := by
  rw [isDirectory, stat]
  cases t.resolve path with
  | error e => simp [bind, Except.bind]
  | ok p =>
    cases h : t.entry? p with
    | none => simp [bind, Except.bind, h]
    | some found => cases found <;> simp [bind, Except.bind, h]

theorem isFile_iff :
    t.isFile path = true ↔ ∃ p bytes, t.resolve path = .ok p ∧ t.entry? p = some (.file bytes) := by
  rw [isFile, stat]
  cases t.resolve path with
  | error e => simp [bind, Except.bind]
  | ok p =>
    cases h : t.entry? p with
    | none => simp [bind, Except.bind, h]
    | some found => cases found <;> simp [bind, Except.bind, h]

theorem holds_of_resolve (h : t.resolve path = .ok p) (hp : (t.entry? p).isSome) :
    t.holds path = true := by
  obtain ⟨found, hfound⟩ := Option.isSome_iff_exists.1 hp
  rw [holds, stat, h]
  simp [bind, Except.bind, hfound, Except.toOption]

end LintRun.FileTree
