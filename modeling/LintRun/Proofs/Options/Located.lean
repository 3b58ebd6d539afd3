import LintRun.Options.Locate
import LintRun.Proofs.Files.Above

/-! Where the search for an options file looks.

    A search examines a directory, then the path above it, until there is a file or no path above
    (`Search`). It is over since each path above has one component less (`exists_search`). All that
    it examines are directories on the way to the first one, but only as paths are spelled: without
    `..` they are that directory and those above it in the tree (`Search.exists_dropped`), while the
    path above `lib/src/..` is `lib/src`, which lies below. -/

namespace LintRun.Options

open FileTree

variable {t : FileTree} {dir above q : Path} {dirs : List Path} {file : Option Path} {p : Place}

/-- A search that begins with a directory: all that it examines, in this order, and the file that it
    comes to. -/
inductive Search (t : FileTree) : Path → List Path → Option Path → Prop where
  | found {dir : Path} (hfile : t.isFile (dir.join fileName) = true) :
      Search t dir [dir] (some (dir.join fileName))
  | up {dir above : Path} {dirs : List Path} {file : Option Path}
      (hfile : t.isFile (dir.join fileName) = false) (hup : dir.parent? = some above)
      (hrest : Search t above dirs file) : Search t dir (dir :: dirs) file
  | top {dir : Path} (hfile : t.isFile (dir.join fileName) = false) (htop : dir.parent? = none) :
      Search t dir [dir] none

/-! ### The search is over -/

theorem ancestors_of_parent? (h : dir.parent? = some above) :
    ancestors dir = dir :: ancestors above := by
  rw [ancestors, ancestorsWithin, h, Path.length_components_parent? h]
  rfl

theorem ancestors_of_top (h : dir.parent? = none) : ancestors dir = [dir] := by
  rw [ancestors, ancestorsWithin, h]

/-- What is found does not depend on a bound for the steps up. -/
theorem find_eq (t : FileTree) (dir : Path) : find t dir =
    if t.isFile (dir.join fileName) then some (dir.join fileName)
    else dir.parent?.bind (find t) := by
  cases hup : dir.parent? with
  | none =>
    rw [find, ancestors_of_top hup, List.map_singleton, List.find?_singleton]
    rfl
  | some above =>
    rw [find, ancestors_of_parent? hup, List.map_cons, List.find?_cons]
    cases t.isFile (dir.join fileName) <;> rfl

/-- Every search is over at some time, and comes to the file that is found. -/
theorem exists_search (t : FileTree) (dir : Path) : ∃ dirs, Search t dir dirs (find t dir) := by
  induction hn : dir.components.length generalizing dir with
  | zero =>
    have htop : dir.parent? = none := by
      rw [Option.eq_none_iff_forall_ne_some]
      intro above hup
      have hlength := Path.length_components_parent? hup
      omega
    rw [find_eq, htop]
    cases hfile : t.isFile (dir.join fileName) with
    | true => exact ⟨_, .found hfile⟩
    | false => exact ⟨_, .top hfile htop⟩
  | succ n ih =>
    rw [find_eq]
    cases hfile : t.isFile (dir.join fileName) with
    | true => exact ⟨_, .found hfile⟩
    | false =>
      cases hup : dir.parent? with
      | none => exact ⟨_, .top hfile hup⟩
      | some above =>
        have hlength := Path.length_components_parent? hup
        obtain ⟨dirs, hdirs⟩ := ih above (by omega)
        exact ⟨_, .up hfile hup hdirs⟩

namespace Search

theorem unique {dirs' : List Path} {file' : Option Path} (h : Search t dir dirs file)
    (h' : Search t dir dirs' file') : dirs = dirs' ∧ file = file' := by
  induction h generalizing dirs' file' with
  | found hfile => cases h' <;> simp_all
  | up hfile hup _ ih =>
    cases h' with
    | found hfile' => simp [hfile] at hfile'
    | up _ hup' hrest =>
      obtain rfl := Option.some.inj (hup.symm.trans hup')
      obtain ⟨rfl, rfl⟩ := ih hrest
      exact ⟨rfl, rfl⟩
    | top _ htop => rw [hup] at htop; cases htop
  | top hfile htop =>
    cases h' with
    | found hfile' => simp [hfile] at hfile'
    | up _ hup => rw [htop] at hup; cases hup
    | top => exact ⟨rfl, rfl⟩

/-! ### What is examined -/

/-- The directories are spelled by first components of the one that the search begins with. -/
theorem exists_dropped (h : Search t dir dirs file) :
    ∀ q ∈ dirs, q.isAbsolute = dir.isAbsolute ∧
      ∃ dropped, dir.components = q.components ++ dropped := by
  have hself (dir : Path) : dir.isAbsolute = dir.isAbsolute ∧
      ∃ dropped, dir.components = dir.components ++ dropped := ⟨rfl, [], by simp⟩
  induction h with
  | found => exact List.forall_mem_singleton.2 (hself _)
  | top => exact List.forall_mem_singleton.2 (hself _)
  | @up dir _ _ _ _ hup _ ih =>
    refine List.forall_mem_cons.2 ⟨hself dir, fun q hq => ?_⟩
    obtain ⟨habs, dropped, hdropped⟩ := ih q hq
    have hne := (Path.eq_of_parent? hup).1
    refine ⟨habs.trans (Path.isAbsolute_parent? hup),
      dropped ++ [dir.components.getLast hne], ?_⟩
    rw [← List.append_assoc, ← hdropped, Path.components_parent? hup,
      List.dropLast_concat_getLast hne]

/-- If the search begins with a directory, all that it examines are directories. -/
theorem leads (wf : t.WellFormed) (h : Search t dir dirs file) (hdir : t.Leads dir p)
    (hp : t.entry? p = some .directory) :
    ∀ q ∈ dirs, ∃ p', t.Leads q p' ∧ t.entry? p' = some .directory := by
  induction h generalizing p with
  | found => simpa using ⟨p, hdir, hp⟩
  | top => simpa using ⟨p, hdir, hp⟩
  | up _ hup _ ih =>
    obtain ⟨p', hdir', hp'⟩ := hdir.parent? wf hp hup
    exact List.forall_mem_cons.2 ⟨⟨p, hdir, hp⟩, ih hdir' hp'⟩

/-- Of all that is examined only the last directory may have the file. -/
theorem exists_last (h : Search t dir dirs file) :
    ∃ nearer q, dirs = nearer ++ [q] ∧ (∀ n ∈ nearer, t.isFile (n.join fileName) = false) ∧
      (t.isFile (q.join fileName) = true ∧ file = some (q.join fileName) ∨
        t.isFile (q.join fileName) = false ∧ file = none) := by
  induction h with
  | found hfile => exact ⟨[], _, rfl, by simp, Or.inl ⟨hfile, rfl⟩⟩
  | top hfile => exact ⟨[], _, rfl, by simp, Or.inr ⟨hfile, rfl⟩⟩
  | up hfile _ _ ih =>
    obtain ⟨nearer, q, rfl, hnearer, hq⟩ := ih
    exact ⟨_ :: nearer, q, rfl, List.forall_mem_cons.2 ⟨hfile, hnearer⟩, hq⟩

end Search

/-! ### Files in a directory -/

/-- There is an options file in the directory that a path leads to. -/
def Holds (t : FileTree) (dir : Path) : Prop :=
  ∃ p bytes, t.Leads dir p ∧ t.entry? (p ++ [fileName.text]) = some (.file bytes)

theorem isAbsolute_fileName : fileName.isAbsolute = false := by decide

theorem segments_fileName : fileName.segments = [fileName.text] := by decide

/-- A file that a search comes to lies in a directory that it has examined. -/
theorem of_isFile_join (h : t.isFile (dir.join fileName) = true) :
    ∃ p bytes, t.Leads dir p ∧ t.resolve (dir.join fileName) = .ok (p ++ [fileName.text]) ∧
      t.entry? (p ++ [fileName.text]) = some (.file bytes) := by
  obtain ⟨place, bytes, hplace, hbytes⟩ := isFile_iff.1 h
  obtain ⟨p, hdir, hwalk⟩ := exists_leads_of_resolve_join isAbsolute_fileName hplace
  rw [segments_fileName] at hwalk
  obtain rfl : place = p ++ [fileName.text] := eq_foldl_move_of_walk hwalk
  exact ⟨p, bytes, hdir, hplace, hbytes⟩

/-- An options file in a directory is one that a search comes to. -/
theorem isFile_join_of_holds (wf : t.WellFormed) (h : Holds t dir)
    (hsize : (dir.join fileName).text.utf8ByteSize < pathLimit) :
    t.isFile (dir.join fileName) = true := by
  obtain ⟨p, bytes, hdir, hbytes⟩ := h
  have hadmits := hdir.admits_join isAbsolute_fileName (by decide) (by decide) hsize
  refine isFile_iff.2 ⟨p ++ [fileName.text], bytes, ?_, hbytes⟩
  rw [hdir.resolve_join isAbsolute_fileName hadmits, segments_fileName]
  exact wf.walk_names hbytes

/-- Where the search for an options file looks, and what it finds. It is over for every path, and
    one thing only may come out of it. Each path that it examines is spelled by first components of
    the given one, and where no `..` has been taken away it denotes the same place or one above. If
    the given path leads to a directory, then so does each of them. The file that is found lies in
    the last one, and none of those before it has such a file. (The operating system opens no path
    of 4096 bytes or more: a file with such a path counts as missing.) -/
theorem find_searches (wf : t.WellFormed) (dir : Path) :
    ∃ dirs : List Path,
      (∀ examined file, Search t dir examined file ↔ examined = dirs ∧ file = find t dir) ∧
      (∀ q ∈ dirs, ∃ dropped, dir.components = q.components ++ dropped ∧
        (.parent ∉ dropped → q.placeFrom t.here <+: dir.placeFrom t.here)) ∧
      (∀ p, t.Leads dir p → t.entry? p = some .directory → ∀ q ∈ dirs,
        t.Leads q (q.placeFrom t.here) ∧ t.entry? (q.placeFrom t.here) = some .directory) ∧
      (∀ file, find t dir = some file → ∃ nearer q, dirs = nearer ++ [q] ∧
        file = q.join fileName ∧ t.Leads q (q.placeFrom t.here) ∧
        t.resolve file = .ok (q.placeFrom t.here ++ [fileName.text]) ∧
        (∃ bytes, t.entry? (q.placeFrom t.here ++ [fileName.text]) = some (.file bytes)) ∧
        ∀ n ∈ nearer, (n.join fileName).text.utf8ByteSize < pathLimit → ¬ Holds t n) ∧
      (find t dir = none →
        ∀ n ∈ dirs, (n.join fileName).text.utf8ByteSize < pathLimit → ¬ Holds t n) := by
  obtain ⟨dirs, hsearch⟩ := exists_search t dir
  have hnot {n : Path} (hn : t.isFile (n.join fileName) = false)
      (hsize : (n.join fileName).text.utf8ByteSize < pathLimit) : ¬ Holds t n := by
    intro hholds
    rw [isFile_join_of_holds wf hholds hsize] at hn
    cases hn
  obtain ⟨nearer, last, hdirs, hnearer, hlast⟩ := hsearch.exists_last
  refine ⟨dirs, fun examined file => ⟨fun h => h.unique hsearch, ?_⟩, ?_, ?_, ?_, ?_⟩
  · rintro ⟨rfl, rfl⟩
    exact hsearch
  · intro q hq
    obtain ⟨habs, dropped, hdropped⟩ := hsearch.exists_dropped q hq
    exact ⟨dropped, hdropped, fun hup => Path.placeFrom_isPrefix habs hdropped hup t.here⟩
  · intro p hdir hp q hq
    obtain ⟨p', hq', hp'⟩ := hsearch.leads wf hdir hp q hq
    obtain rfl := hq'.eq_placeFrom
    exact ⟨hq', hp'⟩
  · intro file hfile
    obtain ⟨hisFile, hfound⟩ := hlast.resolve_right (by simp [hfile])
    obtain rfl := Option.some.inj (hfile.symm.trans hfound)
    obtain ⟨p, bytes, hleads, hresolve, hbytes⟩ := of_isFile_join hisFile
    obtain rfl := hleads.eq_placeFrom
    exact ⟨nearer, last, hdirs, rfl, hleads, hresolve, ⟨bytes, hbytes⟩,
      fun n hn hsize => hnot (hnearer n hn) hsize⟩
  · intro hnone n hn hsize
    obtain ⟨hisFile, -⟩ := hlast.resolve_left (by simp [hnone])
    rw [hdirs, List.mem_append, List.mem_singleton] at hn
    rcases hn with hn | rfl
    · exact hnot (hnearer n hn) hsize
    · exact hnot hisFile hsize

/-- An options file at the top of a tree and one two directories below. -/
def nested : FileTree where
  entries := [([".jslint-task.toml"], .file []), (["lib"], .directory),
    (["lib", "src"], .directory), (["lib", "src", ".jslint-task.toml"], .file [])]

/-- A directory without an options file, in a spelling of more than its name. -/
theorem find_searches_nested :
    nested.WellFormed ∧ nested.resolve ⟨"./lib//"⟩ = .ok ["lib"] ∧
      ∃ dirs, Search nested ⟨"./lib//"⟩ dirs (some ⟨"./.jslint-task.toml"⟩) ∧
        ∀ q ∈ dirs, q.placeFrom nested.here <+: ["lib"] ∧
          nested.Leads q (q.placeFrom nested.here) ∧
          nested.entry? (q.placeFrom nested.here) = some .directory := by
  have wf : nested.WellFormed := by decide
  have hlib : nested.resolve ⟨"./lib//"⟩ = .ok ["lib"] := by decide
  have hfind : find nested ⟨"./lib//"⟩ = some ⟨"./.jslint-task.toml"⟩ := by decide
  obtain ⟨dirs, hsearch, hdropped, hleads, -, -⟩ := find_searches wf ⟨"./lib//"⟩
  refine ⟨wf, hlib, dirs, (hsearch _ _).2 ⟨rfl, hfind.symm⟩, fun q hq => ⟨?_, ?_⟩⟩
  · obtain ⟨dropped, hcomponents, hprefix⟩ := hdropped q hq
    have hparent : .parent ∉ (⟨"./lib//"⟩ : Path).components := by decide
    rw [hcomponents, List.mem_append, not_or] at hparent
    exact hprefix hparent.2
  · exact hleads ["lib"] (Or.inl hlib) (by decide) q hq

/-- The path above `lib/src/..` is `lib/src`: from the directory `lib` the search goes down to the
    file in a directory below, while from `lib` under its own name it comes to the file above. -/
theorem find_steps_down :
    nested.WellFormed ∧ nested.resolve ⟨"lib/src/.."⟩ = .ok ["lib"] ∧
      nested.resolve ⟨"lib/src"⟩ = .ok ["lib", "src"] ∧ ¬ ["lib", "src"] <+: ["lib"] ∧
      Search nested ⟨"lib/src/.."⟩ [⟨"lib/src/.."⟩, ⟨"lib/src"⟩]
        (some ⟨"lib/src/.jslint-task.toml"⟩) ∧
      find nested ⟨"lib/src/.."⟩ = some ⟨"lib/src/.jslint-task.toml"⟩ ∧
      find nested ⟨"lib"⟩ = some ⟨".jslint-task.toml"⟩ := by
  have hfound : Search nested ⟨"lib/src"⟩ [⟨"lib/src"⟩] (some ⟨"lib/src/.jslint-task.toml"⟩) :=
    .found (by decide)
  exact ⟨by decide, by decide, by decide, by decide, .up (by decide) (by decide) hfound,
    by decide, by decide⟩

end LintRun.Options
