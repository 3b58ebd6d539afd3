import LintRun.Proofs.Files.Cleared
import LintRun.Proofs.Text.Utf8

/-! What writing a text to a path does to a tree.

    Whether it succeeds can be told from the tree before (`Writable`): the path has to end with a
    name, nothing but directories may be on the way to it, and no directory at its place. Before the
    file is created the tree grows by directories on the way (`exists_grows_write`), and where the
    path is writable its file then has a place (`Writable.exists_filePlace`), so that the tree gains
    this file (`Gains`). Where it is not, the file can have no place, whatever was made
    (`writable_of_filePlace`). -/

namespace LintRun.FileTree

open LintRun.Path (isLoose)

variable {t t' t₁ : FileTree} {p q place : Place} {names : List String} {path above : Path}
  {bytes : List UInt8}

/-! ### The place of a file -/

/-- A file has a place if its path ends with a name in a directory, where no directory is. -/
theorem filePlace_eq_ok : t.filePlace path = .ok place ↔
    Admits path ∧ ∃ init last p, path.segments = init ++ [last] ∧ isName last = true ∧
      t.walk (t.origin path) init = .ok p ∧ t.entry? p = some .directory ∧
      t.entry? (p ++ [last]) ≠ some .directory ∧ place = p ++ [last] := by
  constructor
  · intro h
    rw [filePlace] at h
    cases hparent : t.parentOf path with
    | error cause => simp [hparent, bind, Except.bind] at h
    | ok found =>
      obtain ⟨p, target⟩ := found
      simp only [hparent, bind, Except.bind] at h
      split at h
      · cases h
      split at h
      · cases h
      next hspelled hsize =>
        rw [Bool.or_eq_true, not_or, Bool.not_eq_true target.trailing] at hspelled
        obtain ⟨hloose, htrailing⟩ := hspelled
        obtain ⟨init, last, empties, hsegments, hname, -, rfl, hadmits, hwalk, hp⟩ :=
          of_parentOf_name hparent hloose hsize
        obtain rfl : empties = [] := by simpa using htrailing
        refine ⟨hadmits, init, last, p, hsegments, hname, hwalk, hp, ?_⟩
        split at h
        · cases h
        · next hfree => exact ⟨hfree, (Except.ok.inj h).symm⟩
  · rintro ⟨hadmits, init, last, p, hsegments, hname, hwalk, hp, hfree, rfl⟩
    obtain ⟨hempty, hcurrent, hup, -, -, hsize⟩ := isName_iff.1 hname
    have htarget : Target.ofSegments path.segments = ⟨init, last, false⟩ := by
      rw [hsegments, Target.ofSegments_concat hempty]
    have hparent := parentOf_of_walk hadmits (by rw [htarget]; exact hwalk) hp
    rw [filePlace, hparent, htarget]
    simp only [bind, Except.bind, Target.isLoose, hempty, hcurrent, hup, decide_false, Bool.or_self,
      Bool.false_eq_true, if_false, if_neg (Nat.not_lt.2 hsize)]

/-! ### Writing -/

/-- Before the file itself there are only directories on the way to it, and a failure before that
    changes nothing else. -/
theorem exists_grows_write (t : FileTree) (path : Path) (bytes : List UInt8) :
    ∃ t₁, Grows t t₁ (· ∈ t.way path) ∧
      (t.write path bytes = t₁.create path bytes ∨ ∃ cause, t.write path bytes = (.error cause, t₁)) := by
  rw [write]
  split
  · next above hup =>
    split
    · exact ⟨t, Grows.refl .., Or.inl rfl⟩
    · have hgrows := (makeAll_grows t above).mono fun p hp => mem_way_of_parent? hup hp
      split
      · next cause t' heq =>
        rw [heq] at hgrows
        exact ⟨t', hgrows, Or.inr ⟨cause, rfl⟩⟩
      · next t' heq =>
        rw [heq] at hgrows
        exact ⟨t', hgrows, Or.inl rfl⟩
  · exact ⟨t, Grows.refl .., Or.inl rfl⟩

/-- On the way along a path that leads to a place there are directories. -/
theorem directory_of_mem_way (h : t.resolve path = .ok place) (hp : p ∈ t.way path) :
    t.entry? p = some .directory := by
  obtain ⟨names, rest, hsegments, hrest, rfl⟩ := exists_pieces_of_mem_way hp
  have hwalk := walk_of_resolve h
  rw [hsegments, walk_append_eq_ok] at hwalk
  obtain ⟨q, hnames, hwalk⟩ := hwalk
  obtain ⟨name, rest, rfl⟩ := List.exists_cons_of_ne_nil hrest
  obtain ⟨q', hstep, -⟩ := walk_cons_eq_ok.1 hwalk
  rw [← eq_foldl_move_of_walk hnames]
  exact (of_step_eq_ok hstep).1

theorem size_of_walk (h : t.walk q names = .ok p) : ∀ s ∈ names, s.utf8ByteSize ≤ nameMax := by
  induction names generalizing q with
  | nil => simp
  | cons name names ih =>
    obtain ⟨q', hstep, hwalk⟩ := walk_cons_eq_ok.1 h
    exact List.forall_mem_cons.2 ⟨size_of_step hstep, ih hwalk⟩

/-- A path to which a file can be written: it ends with a name, no piece is too long, the places that
    it leads through hold nothing else than directories and are not its own, and this holds no
    directory. -/
structure Writable (t : FileTree) (path : Path) : Prop where
  admits : Admits path
  name : path.segments.getLast?.any isName = true
  size : ∀ s ∈ path.segments, s.utf8ByteSize ≤ nameMax
  way : ∀ p ∈ t.way path, p ≠ path.placeFrom t.here ∧
    (t.entry? p = none ∨ t.entry? p = some .directory)
  free : t.entry? (path.placeFrom t.here) ≠ some .directory

instance : Decidable (Admits path) := inferInstanceAs (Decidable (_ ∧ _ ∧ _))

instance : Decidable (t.Writable path) :=
  decidable_of_iff (Admits path ∧ path.segments.getLast?.any isName = true ∧
      (∀ s ∈ path.segments, s.utf8ByteSize ≤ nameMax) ∧
      (∀ p ∈ t.way path, p ≠ path.placeFrom t.here ∧
        (t.entry? p = none ∨ t.entry? p = some .directory)) ∧
      t.entry? (path.placeFrom t.here) ≠ some .directory)
    ⟨fun h => ⟨h.1, h.2.1, h.2.2.1, h.2.2.2.1, h.2.2.2.2⟩,
      fun h => ⟨h.admits, h.name, h.size, h.way, h.free⟩⟩

/-- A tree has directories on the way along a path and the file of the path more than another one. -/
structure Gains (t t' : FileTree) (path : Path) (bytes : List UInt8) : Prop where
  here_eq : t'.here = t.here
  resolve : t'.resolve path = .ok (path.placeFrom t.here)
  entry?_place : t'.entry? (path.placeFrom t.here) = some (.file bytes)
  entry?_eq : ∀ p, p ≠ path.placeFrom t.here → t'.entry? p =
    if t.entry? p = none ∧ p ∈ t.way path then some .directory else t.entry? p
  wellFormed : t.WellFormed → t'.WellFormed

theorem way_congr (h : t'.here = t.here) (path : Path) : t'.way path = t.way path := by
  rw [way, way, origin, origin, h]

theorem eq_placeFrom_of_filePlace (h : t.filePlace path = .ok place) :
    place = path.placeFrom t.here := by
  obtain ⟨-, init, last, p, hsegments, hname, hwalk, -, -, rfl⟩ := filePlace_eq_ok.1 h
  exact (placeFrom_eq_concat hsegments hname (by simp) hwalk).symm

/-- The file of a path is put where it has its place. -/
theorem gains_of_filePlace (hgrows : Grows t t₁ (· ∈ t.way path))
    (hplace : t₁.filePlace path = .ok place) (bytes : List UInt8) :
    Gains t (t₁.set place (.file bytes)) path bytes := by
  have heq := eq_placeFrom_of_filePlace hplace
  rw [hgrows.here_eq] at heq
  obtain ⟨hadmits, init, last, p, hsegments, hname, hwalk, hp, hfree, rfl⟩ :=
    filePlace_eq_ok.1 hplace
  have keeps : Keeps t₁ (t₁.set (p ++ [last]) (.file bytes)) := keeps_set (by simp) hfree
  have hhere := keeps.here_eq.trans hgrows.here_eq
  have hset (q : Place) : entry? (t₁.set (p ++ [last]) (.file bytes)) q =
      if q = p ++ [last] then some (.file bytes) else t₁.entry? q := entry?_set (by simp) q
  have hresolve : (t₁.set (p ++ [last]) (.file bytes)).resolve path = .ok (p ++ [last]) := by
    rw [resolve_concat hadmits hsegments (by rw [keeps.origin_eq]; exact keeps.walk hwalk),
      step_name (keeps.directory p hp) hname, hset, if_pos rfl]
    rfl
  refine ⟨hhere, hresolve.trans (by rw [heq]), by rw [← heq, hset, if_pos rfl], fun q hq => ?_,
    fun wf => (hgrows.wellFormed wf).set hp hname hfree⟩
  rw [← heq] at hq
  split
  · next hnew =>
    exact directory_of_mem_way hresolve (way_congr hhere path ▸ hnew.2)
  · next hold =>
    rw [hset, if_neg hq]
    exact (hgrows.entry?_eq_or q).resolve_right fun hnew => hold ⟨hnew.1, hnew.2.2⟩

/-- Where a file has a place once directories on the way are there, its path is writable. -/
theorem writable_of_filePlace (hgrows : Grows t t₁ (· ∈ t.way path))
    (hplace : t₁.filePlace path = .ok place) : t.Writable path := by
  have hgains := gains_of_filePlace hgrows hplace []
  have heq := eq_placeFrom_of_filePlace hplace
  rw [hgrows.here_eq] at heq
  obtain ⟨hadmits, init, last, p, hsegments, hname, hwalk, hp, hfree, rfl⟩ :=
    filePlace_eq_ok.1 hplace
  refine ⟨hadmits, by simp [hsegments, hname], ?_, fun q hq => ?_, fun hdir => ?_⟩
  · rw [hsegments]
    refine List.forall_mem_append.2 ⟨size_of_walk hwalk, List.forall_mem_singleton.2 ?_⟩
    exact (isName_iff.1 hname).2.2.2.2.2
  · have hdir := directory_of_mem_way hgains.resolve (way_congr hgains.here_eq path ▸ hq)
    have hne : q ≠ path.placeFrom t.here := by
      rintro rfl
      rw [hgains.entry?_place] at hdir
      cases hdir
    rw [hgains.entry?_eq q hne] at hdir
    split at hdir
    · next hnew => exact ⟨hne, Or.inl hnew.1⟩
    · exact ⟨hne, Or.inr hdir⟩
  · rw [← heq] at hdir
    exact hfree (hgrows.keeps.directory _ hdir)

theorem write_of_makeAll (hup : path.parent? = some above)
    (hmade : t.makeAll above = (.ok (), t₁)) : t.write path bytes = t₁.create path bytes := by
  rw [write, hup]
  simp only [hmade]
  split
  · next hempty =>
    rw [makeAll_eq, if_pos (components_of_isEmpty hempty)] at hmade
    rw [(Prod.mk.inj hmade).2]
  · rfl

/-- Where a path is writable, directories on the way are made, and then its file has a place. -/
theorem Writable.exists_filePlace (h : t.Writable path) (wf : t.WellFormed) :
    ∃ t₁ place, Grows t t₁ (· ∈ t.way path) ∧ t₁.filePlace path = .ok place ∧
      ∀ bytes, t.write path bytes = t₁.create path bytes := by
  obtain ⟨last, hlast, hname⟩ := (Option.any_eq_true ..).1 h.name
  obtain ⟨init, hsegments⟩ := List.getLast?_eq_some_iff.1 hlast
  have hcomponent : isLoose last = false := by rw [isLoose, Path.bodyComponent_of_isName hname]; rfl
  obtain ⟨above, hup⟩ := Path.exists_parent? hsegments hcomponent
  have hclear : t.Clear path := by
    refine ⟨Or.inr h.admits, h.size, fun p hp bytes hfile => ?_⟩
    rcases (h.way p hp).2 with hnone | hdir <;> simp_all
  obtain ⟨hclear, hfile⟩ := hclear.parent? hup
  obtain ⟨t₁, hmade, p, hleads, hp⟩ := wf.makeAll_leads hclear hfile (Path.trimmed_parent? hup)
  have hgrows := (makeAll_grows t above).mono fun p hp => mem_way_of_parent? hup hp
  rw [hmade] at hgrows
  have hwalk := hleads.walk_init hp hup hsegments hcomponent
  have heq := placeFrom_eq_concat hsegments hname (by simp) hwalk
  rw [hgrows.here_eq] at heq
  refine ⟨t₁, p ++ [last], hgrows, filePlace_eq_ok.2 ⟨h.admits, init, last, p, hsegments, hname,
    hwalk, hp, fun hdir => ?_, rfl⟩, fun bytes => write_of_makeAll hup hmade⟩
  rw [← heq] at hdir
  rcases hgrows.entry?_eq_or (path.placeFrom t.here) with hsame | ⟨-, -, hway⟩
  · exact h.free (hsame ▸ hdir)
  · exact (h.way _ hway).1 rfl

/-- Writing succeeds exactly if the path is writable. Then the tree gains the file of the path, and
    otherwise at most directories on the way. -/
theorem WellFormed.write_cases (wf : t.WellFormed) (path : Path) (bytes : List UInt8) :
    (t.Writable path ∧ ∃ t', t.write path bytes = (.ok (), t') ∧ Gains t t' path bytes) ∨
      (¬ t.Writable path ∧ ∃ cause t', t.write path bytes = (.error cause, t') ∧
        Grows t t' (· ∈ t.way path)) := by
  by_cases hwritable : t.Writable path
  · obtain ⟨t₁, place, hgrows, hplace, hwrite⟩ := hwritable.exists_filePlace wf
    exact Or.inl ⟨hwritable, _, by rw [hwrite, create, hplace],
      gains_of_filePlace hgrows hplace bytes⟩
  · refine Or.inr ⟨hwritable, ?_⟩
    obtain ⟨t₁, hgrows, hwrite | ⟨cause, hwrite⟩⟩ := exists_grows_write t path bytes
    · cases hplace : t₁.filePlace path with
      | ok place => exact absurd (writable_of_filePlace hgrows hplace) hwritable
      | error cause => exact ⟨cause, t₁, by rw [hwrite, create, hplace], hgrows⟩
    · exact ⟨cause, t₁, hwrite, hgrows⟩

theorem readText_of_resolve (h : t.resolve path = .ok place)
    (hplace : t.entry? place = some (.file bytes)) :
    t.readText path = .ok (Text.Utf8.lossy (Text.Utf8.dropMark bytes)) := by
  simp [readText, readBytes, stat, h, hplace, bind, Except.bind, pure, Except.pure]

/-- What writing a text to a path does. It succeeds exactly if the path is writable. Then the path
    leads to a file, the text comes back from it without the byte order mark that it may begin with,
    and nothing else has changed, save that directories were made where they were missing on the
    way. If it fails, all that may have changed is that there are new directories on the way. -/
theorem writeText_effect (wf : t.WellFormed) (path : Path) (text : String) :
    let result := (t.writeText path text).1
    let t' := (t.writeText path text).2
    let place := path.placeFrom t.here
    t'.WellFormed ∧ t'.here = t.here ∧ (result = .ok () ↔ t.Writable path) ∧
      (result = .ok () →
        t'.isFile path = true ∧ t'.readText path = .ok (Text.Utf8.unmarked text) ∧
        t'.resolve path = .ok place ∧ t'.entry? place = some (.file (Text.Utf8.encode text)) ∧
        ∀ p ≠ place, t'.entry? p =
          if t.entry? p = none ∧ p ∈ t.way path then some .directory else t.entry? p) ∧
      ∀ cause, result = .error cause → ∀ p, t'.entry? p = t.entry? p ∨
        t.entry? p = none ∧ t'.entry? p = some .directory ∧ p ∈ t.way path := by
  intro result t' place
  rcases wf.write_cases path (Text.Utf8.encode text) with
    ⟨hwritable, t₁, hwrite, hgains⟩ | ⟨hwritable, cause, t₁, hwrite, hgrows⟩
  · have hresult : result = .ok () := congrArg Prod.fst hwrite
    obtain rfl : t' = t₁ := congrArg Prod.snd hwrite
    rw [hresult]
    refine ⟨hgains.wellFormed wf, hgains.here_eq, iff_of_true rfl hwritable, fun _ => ?_, nofun⟩
    refine ⟨isFile_iff.2 ⟨place, _, hgains.resolve, hgains.entry?_place⟩, ?_, hgains.resolve,
      hgains.entry?_place, hgains.entry?_eq⟩
    rw [readText_of_resolve hgains.resolve hgains.entry?_place, Text.Utf8.lossy_dropMark_encode]
  · have hresult : result = .error cause := congrArg Prod.fst hwrite
    obtain rfl : t' = t₁ := congrArg Prod.snd hwrite
    rw [hresult]
    exact ⟨hgrows.wellFormed wf, hgrows.here_eq, iff_of_false nofun hwritable, nofun,
      fun _ _ => hgrows.entry?_eq_or⟩

/-- A directory with a file, in which relative paths begin. -/
def desk : FileTree where
  entries := [(["desk"], .directory), (["desk", "old.js"], .file [120])]
  here := ["desk"]

/-- A text with two marks, written to a path that goes through directories that are not there and up
    again. -/
theorem writeText_effect_desk :
    let path : Path := ⟨"out/../new//./report.txt"⟩
    let result := (desk.writeText path "\uFEFF\uFEFFx").1
    let t' := (desk.writeText path "\uFEFF\uFEFFx").2
    desk.WellFormed ∧ result = .ok () ∧ t'.readText path = .ok "\uFEFFx" ∧
      t'.entry? ["desk", "new", "report.txt"] =
        some (.file [0xEF, 0xBB, 0xBF, 0xEF, 0xBB, 0xBF, 120]) ∧
      t'.entry? ["desk", "out"] = some .directory ∧ t'.entry? ["desk", "new"] = some .directory ∧
      t'.entry? ["desk", "old.js"] = some (.file [120]) ∧ t'.entry? ["report.txt"] = none := by
  have wf : desk.WellFormed := by decide
  obtain ⟨-, -, hwritable, hdone, -⟩ :=
    writeText_effect wf ⟨"out/../new//./report.txt"⟩ "\uFEFF\uFEFFx"
  have hok := hwritable.2 (by decide)
  obtain ⟨-, hread, -, hplace, hothers⟩ := hdone hok
  exact ⟨wf, hok, hread.trans (by decide), hplace.trans (by decide),
    (hothers ["desk", "out"] (by decide)).trans (by decide),
    (hothers ["desk", "new"] (by decide)).trans (by decide),
    (hothers ["desk", "old.js"] (by decide)).trans (by decide),
    (hothers ["report.txt"] (by decide)).trans (by decide)⟩

/-- A directory stays behind when a file further on is in the way. -/
example : (desk.writeText ⟨"new/../old.js/report.txt"⟩ "x").1 = .error .fileExists ∧
    entry? (desk.writeText ⟨"new/../old.js/report.txt"⟩ "x").2 ["desk", "new"] =
      some .directory := by
  decide +kernel

end LintRun.FileTree
