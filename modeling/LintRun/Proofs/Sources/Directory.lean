import LintRun.Proofs.Glob.Along
import LintRun.Proofs.Glob.Literal
import LintRun.Sources

/-! The files that a directory stands for.

    A directory is read as the beginning of a pattern. Where its path has no character that is
    special in patterns and no separator too many at its beginning, the pattern leads to all that
    lies below the directory, and to nothing else (`expand_everythingBelow`). -/

namespace LintRun.Sources

open FileTree Glob

variable {t : FileTree} {kinds : Include} {p : Place} {dir base : Path} {names : List String}

/-! ### The pattern of a directory -/

theorem isPattern_eq_false_iff {s : String} :
    isPattern s = false ↔ ∀ c ∈ s.toList, isPlain c = true := by
  simp [isPattern, isPlain, and_assoc]

theorem isPlain_opened (hplain : isPattern dir.text = false) :
    ∀ c ∈ dir.opened, isPlain c = true := by
  rw [isPattern_eq_false_iff] at hplain
  intro c hc
  rw [Path.opened] at hc
  split at hc
  · exact hplain c hc
  · rcases List.mem_append.1 hc with hc | hc
    · exact hplain c hc
    · rw [List.mem_singleton.1 hc]
      decide

theorem isPlain_steps (hplain : isPattern dir.text = false) :
    ∀ piece ∈ (steps dir).map String.toList, ∀ c ∈ piece, isPlain c = true := by
  intro piece hpiece c hc
  obtain ⟨name, hname, rfl⟩ := List.mem_map.1 hpiece
  have htrail : name ∈ dir.trail := by
    rw [steps] at hname
    split at hname
    · exact List.mem_of_mem_tail hname
    · exact hname
  have hsep : c ≠ '/' := fun h => dir.sep_notMem_trail name htrail (h ▸ hc)
  exact isPattern_eq_false_iff.1 hplain c
    ((Path.exists_mem_segments hsep dir).1 ⟨name, Path.mem_segments_of_mem_trail htrail, hc⟩)

section pattern

variable (hdir : dir.isEmpty = false)

include hdir

theorem toList_everythingBelow :
    (everythingBelow dir).text.toList = dir.opened ++ "**/*".toList := by
  have hjoin := Path.toList_join hdir (q := ⟨"**"⟩) (by decide)
  have hopened : (dir.join ⟨"**"⟩).opened = dir.opened ++ "**/".toList := by
    rw [Path.opened, hjoin, if_neg (by simp), List.append_assoc]
    rfl
  rw [everythingBelow, Path.toList_join (Path.isEmpty_join hdir (by decide)) (by decide), hopened,
    List.append_assoc]
  rfl

theorem isAbsolute_everythingBelow : (everythingBelow dir).isAbsolute = dir.isAbsolute := by
  rw [everythingBelow, Path.isAbsolute_join (Path.isEmpty_join hdir (by decide)) (by decide),
    Path.isAbsolute_join hdir (by decide)]

theorem segments_everythingBelow : (everythingBelow dir).segments = dir.trail ++ ["**", "*"] := by
  rw [Path.segments, toList_everythingBelow hdir, Path.segmentsOf_opened]
  rfl

theorem pieces_everythingBelow :
    pieces (if dir.isAbsolute then (everythingBelow dir).text.toList.drop 1
      else (everythingBelow dir).text.toList) =
      (steps dir).map String.toList ++ ["**".toList, "*".toList] := by
  have hsegments := Path.segmentsOf_relative (everythingBelow dir)
  obtain ⟨first, rest, htrail⟩ := List.exists_cons_of_ne_nil dir.trail_ne_nil
  have hsteps : (if dir.isAbsolute then (everythingBelow dir).segments.tail
      else (everythingBelow dir).segments) = steps dir ++ ["**", "*"] := by
    rw [segments_everythingBelow hdir, steps, htrail]
    cases dir.isAbsolute <;> simp
  rw [isAbsolute_everythingBelow hdir, hsteps] at hsegments
  rw [pieces, hsegments]
  simp

variable (hplain : isPattern dir.text = false)

include hplain

theorem tokens_everythingBelow : tokens (everythingBelow dir).text.toList =
    .ok (dir.opened.map .char ++ [.anyDepth, .anyText]) := by
  have hlast : dir.opened.getLast? = some '/' := by
    rw [Path.opened]
    split
    · assumption
    · simp
  -- The text ends with a separator, so `**` stands at the start of a component.
  have hread := readTokens_plain (isPlain_opened hplain) 5 true "**/*".toList
  rw [toList_everythingBelow hdir, tokens, List.length_append, Nat.add_assoc]
  refine hread.trans ?_
  rw [hlast]
  rfl

/-- A directory is read name by name, and `**` and `*` stand behind it. -/
theorem ofText_everythingBelow : Plan.ofText (everythingBelow dir).text = .ok
    { scope := scope dir
      segments := (steps dir).map .name ++ [.anyDepth, .pattern [.anyText]]
      directories := false } := by
  have hlast : (everythingBelow dir).text.toList.getLast? ≠ some '/' := by
    simp [toList_everythingBelow hdir]
  have habs : (everythingBelow dir).text.toList.head? = some '/' ↔
      (everythingBelow dir).isAbsolute = true := by simp [Path.isAbsolute]
  have hparts : ((steps dir).map String.toList ++ ["**".toList, "*".toList]).mapM tokens =
      .ok (((steps dir).map String.toList).map (fun piece => piece.map Token.char) ++
        [[Token.anyDepth], [Token.anyText]]) := by
    rw [List.mapM_append, mapM_tokens_plain (isPlain_steps hplain)]
    rfl
  have hsegments : (((steps dir).map String.toList).map (fun piece => piece.map Token.char) ++
      [[Token.anyDepth], [Token.anyText]]).map Segment.ofTokens =
      (steps dir).map .name ++ [.anyDepth, .pattern [.anyText]] := by
    rw [List.map_append, List.map_map, List.map_map]
    refine congrArg₂ _ (List.map_congr_left fun name _ => ?_) rfl
    simp [Segment.ofTokens_plain]
  rw [Plan.ofText, tokens_everythingBelow hdir hplain]
  simp only [habs, isAbsolute_everythingBelow hdir, pieces_everythingBelow hdir, hparts, bind,
    Except.bind, hsegments, collapse_names, hlast, decide_false]
  rfl

end pattern

/-! ### What the pattern leads to -/

theorem isMatch_anyText (name : List Char) : Glob.isMatch [.anyText] name = true := by
  have hnil : [] ∈ tails name := by induction name <;> simp [tails, *]
  rw [Glob.isMatch, List.any_eq_true]
  exact ⟨[], hnil, rfl⟩

theorem expandFrom_everything (wf : t.WellFormed) (h : t.resolve base = .ok p) :
    expandFrom t false [.anyDepth, .pattern [.anyText]] base =
      (t.below base).map (under base) := by
  have hall : ((t.below base).filter fun names =>
      names.getLast?.any (Segment.pattern [.anyText]).isMatch) = t.below base := by
    refine List.filter_eq_self.2 fun names hnames => ?_
    obtain ⟨above, name, rfl⟩ :=
      List.eq_nil_or_concat' names |>.resolve_left ((mem_below wf h).1 hnames).1
    simp [Segment.isMatch, isMatch_anyText]
  rw [expandFrom, hall]
  simp [expandFrom, List.map_eq_flatMap]

/-- The pattern of a directory leads to all that lies below it. -/
theorem expand_everythingBelow (wf : t.WellFormed) (h : t.resolve dir = .ok p)
    (hplain : isPattern dir.text = false) (hloose : startsLoose dir = false) :
    Glob.expand t (everythingBelow dir).text =
      .ok ((t.below (spelling dir)).map (under (spelling dir))) := by
  obtain ⟨hspelling, hexpand⟩ := expandFrom_steps wf.here_directory h hloose
  rw [Glob.expand, ofText_everythingBelow (admits_of_resolve h).2.1 hplain]
  change Except.ok (Plan.expand t _) = _
  rw [Plan.expand, if_neg (by simp), hexpand, expandFrom_everything wf hspelling]

/-! ### The files below a directory -/

/-- The files of the included kinds below a directory, in the order of paths. -/
def filesBelow (t : FileTree) (kinds : Include) (base : Path) : List Path :=
  (((t.below base).map (under base)).filter fun path =>
    t.isFile path && isIncluded kinds path).mergeSort Path.le

/-- A name at the end of a path tells the kind of a file. -/
theorem isIncluded_under (hbase : base.isEmpty = false) (hne : names ≠ [])
    (hnames : ∀ name ∈ names, isName name = true) :
    isIncluded kinds (under base names) =
      names.getLast?.any fun name => isIncluded kinds ⟨name⟩ := by
  obtain ⟨above, name, rfl⟩ := List.eq_nil_or_concat' names |>.resolve_left hne
  have hname : ∀ s ∈ [name], isName s = true := by simpa using hnames name (by simp)
  have hsame : (under base (above ++ [name])).fileName? = (⟨name⟩ : Path).fileName? := by
    rw [fileName?_under hne hnames hbase, ← under_current,
      fileName?_under (by simp) hname (by decide)]
    simp
  simp [isIncluded, SourceKind.ofPath, Path.extension?, hsame]

theorem resolve_under_of_isFile (wf : t.WellFormed) (h : t.resolve base = .ok p)
    (hmem : names ∈ t.below base) (hfile : t.isFile (under base names) = true) :
    t.resolve (under base names) = .ok (p ++ names) := by
  obtain ⟨hne, e, he⟩ := (mem_below wf h).1 hmem
  obtain ⟨q, bytes, hq, -⟩ := isFile_iff.1 hfile
  exact resolve_under wf h hne he (admits_of_resolve hq)

theorem isFile_under (wf : t.WellFormed) (h : t.resolve base = .ok p)
    (hmem : names ∈ t.below base) :
    t.isFile (under base names) = true ↔
      (under base names).text.utf8ByteSize < pathLimit ∧
        ∃ bytes, t.entry? (p ++ names) = some (.file bytes) := by
  obtain ⟨hne, e, he⟩ := (mem_below wf h).1 hmem
  rw [← admits_under hne (wf.isName_of_eq_some he) (admits_of_resolve h)]
  constructor
  · intro hfile
    obtain ⟨q, bytes, hq, hbytes⟩ := isFile_iff.1 hfile
    have hplace := resolve_under_of_isFile wf h hmem hfile
    rw [hplace, Except.ok.injEq] at hq
    exact ⟨admits_of_resolve hplace, bytes, hq ▸ hbytes⟩
  · rintro ⟨hadmits, bytes, hbytes⟩
    exact isFile_iff.2 ⟨_, bytes, resolve_under wf h hne he hadmits, hbytes⟩

/-- What holds between the paths of any two files below a directory holds between any two that are
    listed. -/
theorem pairwise_filesBelow (wf : t.WellFormed) (h : t.resolve base = .ok p)
    {R : Path → Path → Prop} (hsymm : ∀ {a b}, R a b → R b a)
    (hR : ∀ names ∈ t.below base, ∀ names' ∈ t.below base, names ≠ names' →
      t.isFile (under base names) = true → t.isFile (under base names') = true →
      R (under base names) (under base names')) :
    (filesBelow t kinds base).Pairwise R := by
  refine ((List.mergeSort_perm _ _).pairwise_iff hsymm).2 ?_
  rw [List.pairwise_filter, List.pairwise_map]
  refine (nodup_below wf h).imp_of_mem fun hnames hnames' hne hfile hfile' => ?_
  rw [Bool.and_eq_true] at hfile hfile'
  exact hR _ hnames _ hnames' hne hfile.1 hfile'.1

theorem distinct_of_pairwise {paths : List Path} (h : paths.Pairwise fun a b => ¬ a.Same b) :
    distinct paths = paths := by
  induction paths with
  | nil => rfl
  | cons path paths ih =>
    rw [List.pairwise_cons] at h
    rw [distinct, ih h.2, List.filter_eq_self.2 fun q hq => by simpa using h.1 q hq]

/-- No file below a directory is listed twice. -/
theorem distinct_filesBelow (wf : t.WellFormed) (h : t.resolve base = .ok p) :
    distinct (filesBelow t kinds base) = filesBelow t kinds base := by
  have hbase := (admits_of_resolve h).2.1
  refine distinct_of_pairwise (pairwise_filesBelow wf h (fun hab hba => hab hba.symm) ?_)
  intro names hmem names' hmem' hne _ _ hsame
  obtain ⟨hnil, e, he⟩ := (mem_below wf h).1 hmem
  obtain ⟨hnil', e', he'⟩ := (mem_below wf h).1 hmem'
  rw [Path.Same, components_under hnil (wf.isName_of_eq_some he) hbase,
    components_under hnil' (wf.isName_of_eq_some he') hbase, List.append_cancel_left_eq] at hsame
  exact hne (List.map_injective_iff.2 (fun _ _ => Component.name.inj) hsame)

/-- No two listed paths lead to one file. -/
theorem nodup_places_filesBelow (wf : t.WellFormed) (h : t.resolve base = .ok p) :
    ((filesBelow t kinds base).map t.resolve).Nodup := by
  rw [List.Nodup, List.pairwise_map]
  refine pairwise_filesBelow wf h Ne.symm ?_
  intro names hmem names' hmem' hne hfile hfile' hplaces
  rw [resolve_under_of_isFile wf h hmem hfile, resolve_under_of_isFile wf h hmem' hfile',
    Except.ok.injEq, List.append_cancel_left_eq] at hplaces
  exact hne hplaces

/-- The listed paths lead to the files below the directory that are of an included kind and whose
    path is not too long. -/
theorem mem_places_filesBelow (wf : t.WellFormed) (h : t.resolve base = .ok p)
    {place : Except OsError Place} :
    place ∈ (filesBelow t kinds base).map t.resolve ↔
      ∃ names bytes, place = .ok (p ++ names) ∧ t.entry? (p ++ names) = some (.file bytes) ∧
        names.getLast?.any (fun name => isIncluded kinds ⟨name⟩) = true ∧
        (under base names).text.utf8ByteSize < pathLimit := by
  have hbase := (admits_of_resolve h).2.1
  simp only [filesBelow, List.mem_map, List.mem_mergeSort, List.mem_filter, Bool.and_eq_true]
  constructor
  · rintro ⟨path, ⟨⟨names, hmem, rfl⟩, hfile, hkind⟩, rfl⟩
    obtain ⟨hne, e, he⟩ := (mem_below wf h).1 hmem
    obtain ⟨hsize, bytes, hbytes⟩ := (isFile_under wf h hmem).1 hfile
    rw [isIncluded_under hbase hne (wf.isName_of_eq_some he)] at hkind
    exact ⟨names, bytes, resolve_under_of_isFile wf h hmem hfile, hbytes, hkind, hsize⟩
  · rintro ⟨names, bytes, rfl, hbytes, hkind, hsize⟩
    have hne : names ≠ [] := by
      rintro rfl
      simp at hkind
    have hmem := (mem_below wf h).2 ⟨hne, _, hbytes⟩
    have hfile := (isFile_under wf h hmem).2 ⟨hsize, bytes, hbytes⟩
    rw [← isIncluded_under hbase hne (wf.isName_of_eq_some hbytes)] at hkind
    exact ⟨_, ⟨⟨names, hmem, rfl⟩, hfile, hkind⟩, resolve_under_of_isFile wf h hmem hfile⟩

/-! ### Listing a directory -/

section listing

variable (h : t.resolve dir = .ok p) (hp : t.entry? p = some .directory)

include h hp

theorem collect_directory_eq : collect t kinds [dir] =
    (ofPattern t kinds (everythingBelow dir).text).map distinct := by
  have hfile : t.isFile dir = false := by
    rw [Bool.eq_false_iff]
    intro hfile
    obtain ⟨q, bytes, hq, hbytes⟩ := isFile_iff.1 hfile
    rw [h, Except.ok.injEq] at hq
    rw [← hq, hp] at hbytes
    cases hbytes
  have hinput : ofInput t kinds dir = ofPattern t kinds (everythingBelow dir).text := by
    rw [ofInput, if_neg (by simp [hfile]), if_pos (isDirectory_iff.2 ⟨p, h, hp⟩)]
  rw [collect, List.mapM_cons, List.mapM_nil, hinput]
  cases ofPattern t kinds (everythingBelow dir).text with
  | error e => rfl
  | ok found => simp [bind, Except.bind, pure, Except.pure, Except.map]

variable (hplain : isPattern dir.text = false)

include hplain

theorem collect_eq_filesBelow (wf : t.WellFormed) (hloose : startsLoose dir = false) :
    collect t kinds [dir] = .ok (filesBelow t kinds (spelling dir)) := by
  have hspelling := (expandFrom_steps wf.here_directory h hloose).1
  rw [collect_directory_eq h hp, ofPattern, expand_everythingBelow wf h hplain hloose]
  exact congrArg Except.ok (distinct_filesBelow wf hspelling)

/-- With an empty piece before any other one but `.`, nothing is found. -/
theorem collect_of_startsLoose (wf : t.WellFormed) (hloose : startsLoose dir = true) :
    collect t kinds [dir] = .ok [] := by
  rw [startsLoose, Bool.and_eq_true, Bool.not_eq_true', decide_eq_true_eq] at hloose
  obtain ⟨habs, hempty⟩ := hloose
  have hnone : Glob.expand t (everythingBelow dir).text = .ok [] := by
    rw [Glob.expand, ofText_everythingBelow (admits_of_resolve h).2.1 hplain]
    change Except.ok (Plan.expand t _) = _
    rw [Plan.expand, if_neg (by simp), scope, steps, habs]
    exact congrArg Except.ok (expandFrom_loose wf.here_directory hempty ..)
  rw [collect_directory_eq h hp, ofPattern, hnone]
  simp [Except.map, distinct]

end listing

/-- For a directory whose path has no character that is special in patterns, and no empty piece
    before any other one but `.`, exactly the files of the included kinds below it are listed, each
    once. Only a file whose path is too long for the system is left out; the path in front of it is
    never longer than that of the directory. -/
theorem collect_directory (t : FileTree) (wf : t.WellFormed) (kinds : Include) (dir : Path)
    (p : Place) (hplace : t.resolve dir = .ok p) (hdirectory : t.entry? p = some .directory)
    (hplain : isPattern dir.text = false) (hloose : startsLoose dir = false) :
    ∃ base found, t.resolve base = .ok p ∧ base.text.utf8ByteSize ≤ dir.text.utf8ByteSize ∧
      collect t kinds [dir] = .ok found ∧ (found.map t.resolve).Nodup ∧
      ∀ place, place ∈ found.map t.resolve ↔
        ∃ names bytes, place = .ok (p ++ names) ∧ t.entry? (p ++ names) = some (.file bytes) ∧
          names.getLast?.any (fun name => isIncluded kinds ⟨name⟩) = true ∧
          (under base names).text.utf8ByteSize < pathLimit := by
  have hspelling := (expandFrom_steps wf.here_directory hplace hloose).1
  exact ⟨spelling dir, filesBelow t kinds (spelling dir), hspelling,
    utf8ByteSize_le_of_sublist (sublist_spelling hloose),
    collect_eq_filesBelow hplace hdirectory hplain wf hloose,
    nodup_places_filesBelow wf hspelling, fun place => mem_places_filesBelow wf hspelling⟩

/-- Two directories, one of which is named like a pattern that matches the other one. -/
def bracketed : FileTree where
  entries := [(["a1"], .directory), (["a1", "r.js"], .file [120]), (["a[1]"], .directory),
    (["a[1]", "q.js"], .file [120])]

/-- A directory that is spelled with a dot before it and a separator behind it. -/
theorem collect_directory_dotted :
    (bracketed.WellFormed ∧ bracketed.resolve ⟨"./a1/"⟩ = .ok ["a1"] ∧
      bracketed.entry? ["a1"] = some .directory ∧ isPattern "./a1/" = false ∧
      startsLoose ⟨"./a1/"⟩ = false) ∧
    ∃ base found, bracketed.resolve base = .ok ["a1"] ∧ base.text.utf8ByteSize ≤ 5 ∧
      collect bracketed default [⟨"./a1/"⟩] = .ok found ∧ (found.map bracketed.resolve).Nodup ∧
      ∀ place, place ∈ found.map bracketed.resolve ↔
        ∃ names bytes, place = .ok (["a1"] ++ names) ∧
          bracketed.entry? (["a1"] ++ names) = some (.file bytes) ∧
          names.getLast?.any (fun name => isIncluded default ⟨name⟩) = true ∧
          (under base names).text.utf8ByteSize < pathLimit := by
  have hyps : bracketed.WellFormed ∧ bracketed.resolve ⟨"./a1/"⟩ = .ok ["a1"] ∧
      bracketed.entry? ["a1"] = some .directory ∧ isPattern "./a1/" = false ∧
      startsLoose ⟨"./a1/"⟩ = false := by decide
  refine ⟨hyps, ?_⟩
  obtain ⟨wf, hplace, hdirectory, hplain, hloose⟩ := hyps
  exact collect_directory bracketed wf default ⟨"./a1/"⟩ ["a1"] hplace hdirectory hplain hloose

/-- The path of a directory is read as a pattern: for `a[1]` its own file is not found, and that of
    the directory that the pattern matches is. -/
theorem collect_directory_bracketed :
    bracketed.WellFormed ∧ bracketed.isDirectory ⟨"a[1]"⟩ = true ∧
      bracketed.isFile ⟨"a[1]/q.js"⟩ = true ∧ isIncluded default ⟨"a[1]/q.js"⟩ = true ∧
      collect bracketed default [⟨"a[1]"⟩] = .ok [⟨"a1/r.js"⟩] := by
  have wf : bracketed.WellFormed := by decide
  have hplan : Plan.ofText (everythingBelow ⟨"a[1]"⟩).text = .ok
      { scope := ⟨"."⟩
        segments := [.pattern [.char 'a', .within [.single '1']], .anyDepth, .pattern [.anyText]]
        directories := false } := by
    decide +kernel
  have hlist : bracketed.list ⟨"."⟩ = ["a1", "a[1]"] :=
    List.mergeSort_of_pairwise (by decide +kernel)
  have hbelow : bracketed.below ⟨"a1"⟩ = [["r.js"]] := List.mergeSort_singleton ..
  have hexpand : Glob.expand bracketed (everythingBelow ⟨"a[1]"⟩).text = .ok [⟨"a1/r.js"⟩] := by
    have hmatch : ((bracketed.list ⟨"."⟩).filter fun s =>
        Glob.isMatch [.char 'a', .within [.single '1']] s.toList) = ["a1"] := by
      rw [hlist]
      decide +kernel
    rw [Glob.expand, hplan]
    change Except.ok (Plan.expand _ _) = _
    rw [Plan.expand, if_neg (by simp), expandFrom, if_pos (by decide), hmatch,
      List.flatMap_singleton, under_current, expandFrom_everything wf (p := ["a1"]) rfl, hbelow]
    rfl
  refine ⟨wf, by decide, by decide, by decide, ?_⟩
  rw [collect_directory_eq (p := ["a[1]"]) rfl rfl, ofPattern, hexpand]
  exact congrArg Except.ok (congrArg distinct (List.mergeSort_singleton ..))

end LintRun.Sources
