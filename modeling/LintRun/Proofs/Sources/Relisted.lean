import LintRun.Proofs.Sources.Expanded

/-! Sources that are given as inputs again.

    A file that is named is taken as it is, before its name is read as a directory or as a pattern
    and whatever its kind. So a list stands for itself exactly if all its paths are files and no two
    of them are the same (`collect_eq_self_iff`), which says nothing of the kinds that are included.
    Every list of sources is of this form, hence it is what comes of it under any of them
    (`collect_relisted`). -/

namespace LintRun.Sources

variable {t : FileTree} {kinds : Include} {paths found : List Path}

/-- Each file stands for itself. -/
theorem standsFor_singletons (h : ∀ p ∈ paths, t.isFile p = true) :
    List.Forall₂ (StandsFor t kinds) paths (paths.map fun p => [p]) := by
  induction paths with
  | nil => exact .nil
  | cons p paths ih =>
    obtain ⟨hp, hpaths⟩ := List.forall_mem_cons.1 h
    exact .cons (.named hp) (ih hpaths)

/-- Nothing is left out of paths that are all different. -/
theorem firsts_of_pairwise (h : paths.Pairwise fun p q => ¬ p.Same q) : firsts paths = paths := by
  rw [← distinct_eq_firsts, distinct_of_pairwise h]

/-- What is listed are files that are all different. -/
theorem files_of_collect {inputs : List Path} (h : collect t kinds inputs = .ok found) :
    (∀ p ∈ found, t.isFile p = true) ∧ found.Pairwise fun p q => ¬ p.Same q := by
  obtain ⟨lists, hlists, rfl⟩ := collect_eq_ok_iff.1 h
  have hlisted := listed_firsts hlists
  exact ⟨fun p hp => (hlisted.kind p hp).1, hlisted.apart⟩

/-- The lists that stand for themselves are those of files that are all different. -/
theorem collect_eq_self_iff : collect t kinds paths = .ok paths ↔
    (∀ p ∈ paths, t.isFile p = true) ∧ paths.Pairwise fun p q => ¬ p.Same q := by
  refine ⟨files_of_collect, fun ⟨hfiles, hapart⟩ => ?_⟩
  refine collect_eq_ok_iff.2 ⟨_, standsFor_singletons hfiles, ?_⟩
  rw [← List.flatMap_def, List.flatMap_singleton', firsts_of_pairwise hapart]

/-- Sources that are given as inputs again, in the same tree, stand for themselves. The kinds that
    are included have no say in it, nor have characters that are special in patterns. -/
theorem collect_relisted (t : FileTree) (kinds : Include) (inputs found : List Path)
    (h : collect t kinds inputs = .ok found) (kinds' : Include) :
    collect t kinds' found = .ok found :=
  collect_eq_self_iff.2 (files_of_collect h)

/-- Files with names that are patterns: for all scripts, and for another style sheet. -/
def starred : FileTree where
  entries := [(["*.js"], .file [120]), (["a[1].css"], .file [120]), (["b.js"], .file [120])]

theorem collect_starred : collect starred default [⟨"[*].js"⟩, ⟨"a[1].css"⟩] =
    .ok [⟨"*.js"⟩, ⟨"a[1].css"⟩] := by
  have hplan : Glob.Plan.ofText "[*].js" = .ok
      { scope := ⟨"."⟩
        segments := [.pattern [.within [.single '*'], .char '.', .char 'j', .char 's']]
        directories := false } := by
    decide +kernel
  have hlist : starred.list ⟨"."⟩ = ["*.js", "a[1].css", "b.js"] :=
    List.mergeSort_of_pairwise (by decide +kernel)
  have hexpand : Glob.expand starred "[*].js" = .ok [⟨"*.js"⟩] := by
    have hmatch : (["*.js", "a[1].css", "b.js"].filter fun s =>
        Glob.isMatch [.within [.single '*'], .char '.', .char 'j', .char 's'] s.toList) =
          ["*.js"] := by
      decide +kernel
    rw [Glob.expand, hplan]
    change Except.ok (Glob.Plan.expand _ _) = _
    rw [Glob.Plan.expand, if_neg (by simp), Glob.expandFrom, if_pos (by decide), hlist, hmatch,
      List.flatMap_singleton, Glob.under_current]
    rfl
  have hpattern : ofInput starred default ⟨"[*].js"⟩ = .ok [⟨"*.js"⟩] := by
    rw [ofInput, if_neg (by decide), if_neg (by decide), if_pos (by decide), ofPattern, hexpand]
    exact congrArg Except.ok (List.mergeSort_singleton ..)
  have hfile : ofInput starred default ⟨"a[1].css"⟩ = .ok [⟨"a[1].css"⟩] := rfl
  rw [collect, List.mapM_cons, List.mapM_cons, List.mapM_nil, hpattern, hfile]
  decide

/-- A script that a pattern has led to and a style sheet that was named, in the order of inputs:
    listed again, the script is no pattern for the other one, and no kind need be included. -/
theorem collect_relisted_starred :
    collect starred default [⟨"[*].js"⟩, ⟨"a[1].css"⟩] = .ok [⟨"*.js"⟩, ⟨"a[1].css"⟩] ∧
    collect starred ⟨false, false, false⟩ [⟨"*.js"⟩, ⟨"a[1].css"⟩] =
      .ok [⟨"*.js"⟩, ⟨"a[1].css"⟩] :=
  ⟨collect_starred, collect_relisted starred default _ _ collect_starred ⟨false, false, false⟩⟩

end LintRun.Sources
