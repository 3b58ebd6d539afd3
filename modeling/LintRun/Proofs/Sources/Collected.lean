import LintRun.Proofs.Files.Denoted
import LintRun.Proofs.Sources.Directory

/-! What holds of every list of sources, whatever the inputs.

    All that is listed is a file, and no two listed paths have the same components. A file can be
    reached under several spellings, though, and then it is listed under each of them: a pattern
    drops a `.` at its beginning, which a named file keeps (`collect_places_respelled`). Only paths
    that begin in the same way and do not go up behind a name are sure to be different files
    (`collect_places`). -/

namespace LintRun.Sources

open FileTree Glob

variable {t : FileTree} {kinds : Include} {input : Path} {inputs paths found : List Path}

/-- A path is listed once, under its first spelling. -/
theorem pairwise_distinct (paths : List Path) :
    (distinct paths).Pairwise fun p q => ¬ p.Same q := by
  induction paths with
  | nil => exact List.Pairwise.nil
  | cons p paths ih =>
    rw [distinct, List.pairwise_cons]
    refine ⟨fun q hq => ?_, ih.filter _⟩
    simpa using (List.mem_filter.1 hq).2

theorem mem_of_mem_distinct {p : Path} (h : p ∈ distinct paths) : p ∈ paths := by
  induction paths with
  | nil => exact h
  | cons q paths ih =>
    rw [distinct, List.mem_cons] at h
    rcases h with rfl | h
    · exact List.mem_cons_self
    · exact List.mem_cons_of_mem q (ih (List.mem_filter.1 h).1)

/-- Inputs that are accepted stand for a list of files each. -/
theorem collect_eq_ok (h : collect t kinds inputs = .ok found) :
    ∃ lists, inputs.mapM (ofInput t kinds) = .ok lists ∧ found = distinct lists.flatten := by
  rw [collect] at h
  cases hlists : inputs.mapM (ofInput t kinds) with
  | error cause => rw [hlists] at h; cases h
  | ok lists =>
    rw [hlists] at h
    exact ⟨lists, rfl, (Except.ok.inj h).symm⟩

theorem pairwise_collect (h : collect t kinds inputs = .ok found) :
    found.Pairwise fun p q => ¬ p.Same q := by
  obtain ⟨lists, -, rfl⟩ := collect_eq_ok h
  exact pairwise_distinct _

/-- An input stands for files. -/
theorem isFile_of_ofInput (h : ofInput t kinds input = .ok paths) :
    ∀ p ∈ paths, t.isFile p = true := by
  have hpattern {pattern : String} (hpaths : ofPattern t kinds pattern = .ok paths) :
      ∀ p ∈ paths, t.isFile p = true := by
    intro p hp
    rw [ofPattern] at hpaths
    split at hpaths
    · cases hpaths
    · obtain rfl := Except.ok.inj hpaths
      rw [List.mem_mergeSort, List.mem_filter, Bool.and_eq_true] at hp
      exact hp.2.1
  rw [ofInput] at h
  split at h
  · next hfile =>
    obtain rfl := Except.ok.inj h
    simpa using hfile
  split at h
  · exact hpattern h
  split at h
  · exact hpattern h
  · cases h

/-- Each list of files is that of an input. -/
theorem exists_input_of_mem {lists : List (List Path)}
    (h : inputs.mapM (ofInput t kinds) = .ok lists) (hmem : paths ∈ lists) :
    ∃ input ∈ inputs, ofInput t kinds input = .ok paths := by
  induction inputs generalizing lists with
  | nil =>
    obtain rfl := Except.ok.inj h
    cases hmem
  | cons input inputs ih =>
    rw [List.mapM_cons] at h
    cases hfirst : ofInput t kinds input with
    | error cause => rw [hfirst] at h; cases h
    | ok first =>
      cases hrest : inputs.mapM (ofInput t kinds) with
      | error cause => rw [hfirst, hrest] at h; cases h
      | ok rest =>
        rw [hfirst, hrest] at h
        obtain rfl := Except.ok.inj h
        rcases List.mem_cons.1 hmem with rfl | hmem
        · exact ⟨input, List.mem_cons_self, hfirst⟩
        · obtain ⟨input', hinput, hpaths⟩ := ih hrest hmem
          exact ⟨input', List.mem_cons_of_mem input hinput, hpaths⟩

/-- Every listed path denotes a file. -/
theorem denotes_file_of_collect (h : collect t kinds inputs = .ok found) {p : Path}
    (hp : p ∈ found) : ∃ bytes, t.resolve p = .ok (p.placeFrom t.here) ∧
      t.entry? (p.placeFrom t.here) = some (.file bytes) := by
  obtain ⟨lists, hlists, rfl⟩ := collect_eq_ok h
  obtain ⟨paths, hpaths, hp⟩ := List.mem_flatten.1 (mem_of_mem_distinct hp)
  obtain ⟨input, -, hinput⟩ := exists_input_of_mem hlists hpaths
  obtain ⟨place, bytes, hplace, hbytes⟩ := isFile_iff.1 (isFile_of_ofInput hinput p hp)
  obtain rfl := eq_placeFrom_of_resolve hplace
  exact ⟨bytes, hplace, hbytes⟩

/-- All that is listed is a file, and no path is listed twice, however often its separators and lone
    dots repeat. Two listed paths that denote one file begin in different ways, or one of them goes
    up behind a name. -/
theorem collect_places (t : FileTree) (kinds : Include) (inputs found : List Path)
    (h : collect t kinds inputs = .ok found) :
    (∀ p ∈ found, ∃ bytes, t.resolve p = .ok (p.placeFrom t.here) ∧
      t.entry? (p.placeFrom t.here) = some (.file bytes)) ∧
    found.Pairwise fun p q => ¬ p.Same q ∧
      (p.placeFrom t.here = q.placeFrom t.here →
        p.lead ≠ q.lead ∨ ¬ p.Descends ∨ ¬ q.Descends) := by
  refine ⟨fun p hp => denotes_file_of_collect h hp, (pairwise_collect h).imp ?_⟩
  intro p q hdiffers
  refine ⟨hdiffers, fun hplace => ?_⟩
  by_contra hcon
  rw [not_or, not_or, not_not, not_not, not_not] at hcon
  exact hdiffers (Path.same_of_placeFrom_eq hcon.1 hcon.2.1 hcon.2.2 hplace)

/-- A directory with one file. -/
def single : FileTree where
  entries := [(["lib"], .directory), (["lib", "a.js"], .file [120])]

theorem collect_single : collect single default [⟨"./lib/a.js"⟩, ⟨"./lib"⟩] =
    .ok [⟨"./lib/a.js"⟩, ⟨"lib/a.js"⟩] := by
  have hbelow : single.below ⟨"lib"⟩ = [["a.js"]] := List.mergeSort_singleton ..
  have hspelling : spelling ⟨"./lib"⟩ = ⟨"lib"⟩ := by decide
  have hunder : under ⟨"lib"⟩ ["a.js"] = ⟨"lib/a.js"⟩ := by decide
  have hdir : ofInput single default ⟨"./lib"⟩ = .ok [⟨"lib/a.js"⟩] := by
    rw [ofInput, if_neg (by decide), if_pos (by decide), ofPattern,
      expand_everythingBelow (p := ["lib"]) (by decide) rfl (by decide) (by decide), hspelling,
      hbelow, List.map_singleton, hunder]
    exact congrArg Except.ok (List.mergeSort_singleton ..)
  have hfile : ofInput single default ⟨"./lib/a.js"⟩ = .ok [⟨"./lib/a.js"⟩] := rfl
  rw [collect, List.mapM_cons, List.mapM_cons, List.mapM_nil, hfile, hdir]
  decide

/-- A list with one path for each of two spellings, which begin in different ways. -/
theorem collect_places_single :
    collect single default [⟨"./lib/a.js"⟩, ⟨"./lib"⟩] =
      .ok [⟨"./lib/a.js"⟩, ⟨"lib/a.js"⟩] ∧
    (∀ p ∈ [⟨"./lib/a.js"⟩, ⟨"lib/a.js"⟩], ∃ bytes,
      single.resolve p = .ok (p.placeFrom single.here) ∧
        single.entry? (p.placeFrom single.here) = some (.file bytes)) ∧
    [⟨"./lib/a.js"⟩, ⟨"lib/a.js"⟩].Pairwise fun p q : Path => ¬ p.Same q ∧
      (p.placeFrom single.here = q.placeFrom single.here →
        p.lead ≠ q.lead ∨ ¬ p.Descends ∨ ¬ q.Descends) :=
  ⟨collect_single, collect_places single default _ _ collect_single⟩

/-- A file that is named with a dot before it, and the directory that it is in: the same file is
    listed twice. So it is where a file is named from the root, or by a way that goes up again. -/
theorem collect_places_respelled :
    (single.WellFormed ∧ single.resolve ⟨"./lib/a.js"⟩ = .ok ["lib", "a.js"] ∧
      single.resolve ⟨"lib/a.js"⟩ = .ok ["lib", "a.js"] ∧
      collect single default [⟨"./lib/a.js"⟩, ⟨"./lib"⟩] =
        .ok [⟨"./lib/a.js"⟩, ⟨"lib/a.js"⟩]) ∧
    collect single default [⟨"lib/a.js"⟩, ⟨"lib/../lib/a.js"⟩, ⟨"/lib/a.js"⟩] =
      .ok [⟨"lib/a.js"⟩, ⟨"lib/../lib/a.js"⟩, ⟨"/lib/a.js"⟩] ∧
    single.resolve ⟨"lib/../lib/a.js"⟩ = .ok ["lib", "a.js"] ∧
      single.resolve ⟨"/lib/a.js"⟩ = .ok ["lib", "a.js"] :=
  ⟨⟨by decide, by decide, by decide, collect_single⟩, by decide, by decide, by decide⟩

end LintRun.Sources
