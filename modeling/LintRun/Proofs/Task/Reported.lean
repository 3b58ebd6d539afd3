import LintRun.Proofs.Report.Layout
import LintRun.Proofs.Task.Ends

/-! What a run says of itself in three places: its log, its outcome, and its report.

    The log is made while the files are linted, the report afterwards from the findings, in which a
    file that was linted twice has one record. `execute_reported` says that the two agree: a report
    is the log, grouped by file in the order of the sources. -/

namespace LintRun.Task

open Findings (mentioned under)
open PathLike (display)

variable {σ π : Type} [PathLike π]

section Grouped

variable (markers : Markers) (checked : List (Checked π))

/-- Further notes on paths that were mentioned mention nothing new. -/
theorem mentioned_append_of_mem {notes more : List Note}
    (h : ∀ n ∈ more, n.path ∈ mentioned notes) : mentioned (notes ++ more) = mentioned notes := by
  induction more using List.reverseRecOn with
  | nil => rw [List.append_nil]
  | append_singleton more n ih =>
    have hn : n.path ∈ mentioned notes := h n (by simp)
    have hmore := ih fun m hm => h m (List.mem_append_left _ hm)
    rw [← List.append_assoc, Findings.mentioned_concat, hmore, if_pos hn]

/-- The notes on some files mention each file where it first comes. -/
theorem mentioned_flatMap_notes :
    mentioned (checked.flatMap (·.notes markers)) = (checked.map (display ·.path)).eraseDups := by
  induction checked using List.reverseRecOn with
  | nil => rfl
  | append_singleton checked c ih =>
    have hadds : ∀ n ∈ (c.kept markers).map (Note.add (display c.path)), n.path ∈
        mentioned (checked.flatMap (·.notes markers) ++ [.mention (display c.path)]) := by
      intro n hn
      obtain ⟨v, -, rfl⟩ := List.mem_map.1 hn
      exact Findings.mem_mentioned.2 ⟨.mention (display c.path), by simp, rfl⟩
    rw [List.flatMap_append, List.flatMap_singleton, Checked.notes, ← List.singleton_append,
      ← List.append_assoc, mentioned_append_of_mem hadds, Findings.mentioned_concat, ih,
      List.map_append, List.map_singleton, Findings.eraseDups_concat]
    simp only [Note.path, List.mem_eraseDups]

/-- What is noted under a path is what is logged of it. -/
theorem map_entryOf_under (p : String) :
    (under (checked.flatMap (·.notes markers)) p).map (entryOf ⟨p⟩) =
      (checked.flatMap (·.entries markers)).filter (·.file = p) := by
  simp only [under, List.filterMap_flatMap, List.map_flatMap, List.filter_flatMap]
  refine List.flatMap_congr fun c _ => ?_
  by_cases hc : display c.path = p
  · have hfile : ∀ e ∈ c.entries markers, decide (e.file = p) = true := by
      intro e he
      obtain ⟨v, -, rfl⟩ := List.mem_map.1 he
      simpa using hc
    rw [List.filter_eq_self.2 hfile]
    simp only [Checked.notes, Checked.entries, Note.addedTo, hc, List.filterMap_cons_none,
      List.filterMap_map, Function.comp_def, if_true, List.filterMap_some]
    rfl
  · simp [Checked.notes, Checked.entries, Note.addedTo, hc]

/-- The records with violations are the log entries, grouped by file in the order of the files. -/
theorem violating_findingsOf :
    let entries := checked.flatMap (·.entries markers)
    (findingsOf markers checked).violating.map
        (fun r => (r.path, r.violations.map (entryOf ⟨r.path⟩))) =
      ((checked.map (display ·.path)).eraseDups.filter fun p => entries.any (·.file = p)).map
        fun p => (p, entries.filter (·.file = p)) := by
  intro entries
  set notes := checked.flatMap (·.notes markers) with hnotes
  have hunder : ∀ p, (under notes p).map (entryOf ⟨p⟩) = entries.filter (·.file = p) :=
    map_entryOf_under markers checked
  have hlisted : ∀ p, (!(under notes p).isEmpty) = entries.any (·.file = p) := by
    intro p
    rw [← List.isEmpty_map, hunder, Bool.eq_iff_iff]
    simp
  rw [Findings.violating, findingsOf, (Findings.reflects_ofHistory notes).files, hnotes,
    mentioned_flatMap_notes, List.filter_map, List.map_map]
  refine (List.map_congr_left fun p _ => congrArg (Prod.mk p) (hunder p)).trans ?_
  exact congrArg _ (List.filter_congr fun p _ => hlisted p)

/-- A record has as many violations as the log has entries of its file. -/
theorem length_violations_of_mem {r : FileFindings}
    (hr : r ∈ (findingsOf markers checked).violating) :
    r.violations.length =
      ((checked.flatMap (·.entries markers)).filter (·.file = r.path)).length := by
  have hgroup := List.mem_map_of_mem (f := fun r : FileFindings =>
    (r.path, r.violations.map (entryOf ⟨r.path⟩))) hr
  rw [violating_findingsOf] at hgroup
  obtain ⟨p, -, hp⟩ := List.mem_map.1 hgroup
  obtain ⟨rfl, hentries⟩ := Prod.mk.inj hp
  rw [hentries, List.length_map]

end Grouped

variable {task : Task π} {host : Host σ π} {now : Timestamp} {s : σ} {path : π} {report : String}

/-- The destination of a report decides its format. -/
theorem ofDestination_of_target {options : Options} {target : Report.Target π}
    (h : task.target options = some target) :
    Report.Format.ofDestination target.destination = some target.format := by
  simp only [Task.target, Report.Target.ofDestination, Option.bind_eq_bind,
    Option.bind_eq_some_iff] at h
  obtain ⟨destination, -, format, hformat, hpure⟩ := h
  cases hpure
  exact hformat

/-- What a run has done that comes to its report: the files it has linted, and what it then makes
    of their findings. -/
theorem exists_checked_of_reported
    (h : (path, report) ∈ reportsOf (task.execute host now s).events) :
    ∃ (options : Options) (target : Report.Target π) (checked : List (Checked π)),
      task.target options = some target ∧ target.destination = path ∧
      report = target.render (findingsOf options.markers checked) now ∧
      checked.map (·.path) = task.sources ∧
      logOf (task.execute host now s).events = task.logFor options checked ∧
      ((task.execute host now s).result = .ok (task.outcomeFor options checked) ∨
        ∃ cause, (task.execute host now s).result =
          .error (.reportWrite path cause (task.outcomeFor options checked))) := by
  obtain ⟨shown, hends⟩ := exists_ends task host now s
  replace h : (path, report) ∈ shown.reports := by rwa [hends.eq_shown]
  rw [hends.log_eq, hends.result_eq]
  cases hends with
  | idle | unloaded | uncreated | refused | unreported => simp at h
  | @reported options target checked _ _ _ _ hlinted htarget _ =>
    obtain ⟨rfl, rfl⟩ := Prod.mk.inj (List.mem_singleton.1 h)
    exact ⟨options, target, checked, htarget, rfl, rfl, hlinted.map_path, rfl, Or.inl rfl⟩
  | @unwritten options target checked cause _ _ _ _ hlinted htarget _ =>
    obtain ⟨rfl, rfl⟩ := Prod.mk.inj (List.mem_singleton.1 h)
    exact ⟨options, target, checked, htarget, rfl, rfl, hlinted.map_path, rfl,
      Or.inr ⟨cause, rfl⟩⟩

/-- A report agrees with the log and with the outcome of its run, which it does not change when it
    cannot be written. Its blocks are the log entries grouped by file, in the order in which the
    files first come among the sources; each states the size of its group. -/
theorem execute_reported (task : Task π) (host : Host σ π) (now : Timestamp) (s : σ) {path : π}
    {report : String} (h : (path, report) ∈ reportsOf (task.execute host now s).events) :
    let done := task.execute host now s
    let entries := (logOf done.events).map (·.2)
    let listed := (task.sources.map display).eraseDups.filter fun p => entries.any (·.file = p)
    let count := fun p => (entries.filter (·.file = p)).length
    ∃ (format : Report.Format) (f : Findings) (outcome : Outcome),
      Report.Format.ofDestination path = some format ∧
      report = format.render f now ∧
      f.violating.map (fun r => (r.path, r.violations.map (entryOf ⟨r.path⟩))) =
        listed.map (fun p => (p, entries.filter (·.file = p))) ∧
      report = format.page now outcome.totals (f.violating.map fun r =>
        format.block r.path (count r.path) (r.violations.map format.item)) ∧
      (done.result = .ok outcome ∨
        ∃ cause, done.result = .error (.reportWrite path cause outcome)) ∧
      (listed.map count).sum = outcome.totals.violations ∧
      listed.length = outcome.totals.violating := by
  intro done entries listed count
  obtain ⟨options, target, checked, htarget, rfl, rfl, hpaths, hlog, hresult⟩ :=
    exists_checked_of_reported h
  set f := findingsOf options.markers checked with hf
  have htotals : f.totals = (task.outcomeFor options checked).totals := totals_findingsOf _ _
  have hentries : entries = checked.flatMap (·.entries options.markers) := by
    simp [entries, done, hlog, logFor, logged, List.map_flatMap, Function.comp_def]
  have hgroups : f.violating.map (fun r => (r.path, r.violations.map (entryOf ⟨r.path⟩))) =
      listed.map (fun p => (p, entries.filter (·.file = p))) := by
    have hfiles : task.sources.map display = checked.map (display ·.path) := by
      rw [← hpaths, List.map_map]
      rfl
    simp only [listed, hentries, hfiles]
    exact violating_findingsOf options.markers checked
  have hcounts : f.violating.map (·.violations.length) = listed.map count := by
    simpa [Function.comp_def, count] using
      congrArg (List.map fun g : String × List LogEntry => g.2.length) hgroups
  refine ⟨target.format, f, task.outcomeFor options checked, ofDestination_of_target htarget, rfl,
    hgroups, ?_, hresult, ?_, ?_⟩
  · rw [Report.Target.render, Report.Format.render_eq_page, htotals]
    refine congrArg _ (List.map_congr_left fun r hr => ?_)
    rw [length_violations_of_mem options.markers checked hr, ← hentries]
  · rw [← hcounts, ← Findings.violationCount_eq_sum, ← htotals]
    rfl
  · rw [← htotals, ← List.length_map (f := count), ← hcounts, List.length_map]
    rfl

/-- A linter that finds nothing at its first call, something in line 1 at its second, and so on. No
    report can be written. -/
def warming : Host Nat where
  isFile _ _ := true
  read calls _ := (.ok "x", calls)
  create calls := (.ok (), calls)
  lint calls _ _ _ := (.ok (if calls = 0 then [] else [⟨calls, 1, "no", none⟩]), calls + 1)
  write calls _ _ := (.error .permissionDenied, calls)

/-- A file that is clean at first and not when it comes again stands first in the report, though
    its entry is the last of the log. -/
theorem execute_reported_warming :
    let task : Task :=
      { sources := [⟨"a.js"⟩, ⟨"b.js"⟩, ⟨"a.js"⟩], reportFile := some ⟨"r.txt"⟩ }
    let done := task.execute warming default 0
    let report := "JSLint Report\nGenerated 0000-00-00T00:00:00\n\n2 processed files\n" ++
      "2 violating files\n2 total violations\n\n" ++
      "a.js (1 violations)\n    no (line 2 character 1)\n\n" ++
      "b.js (1 violations)\n    no (line 1 character 1)\n\n"
    (⟨"r.txt"⟩, report) ∈ reportsOf done.events ∧
      (logOf done.events).map (·.2) =
        [{ file := "b.js", line := 1, column := 1, message := "no" },
          { file := "a.js", line := 2, column := 1, message := "no" }] ∧
      ∃ (format : Report.Format) (f : Findings) (outcome : Outcome),
        report = format.render f default ∧ f.violating.map (·.path) = ["a.js", "b.js"] ∧
        outcome.totals.violating = 2 ∧ outcome.totals.violations = 2 ∧
        (done.result = .ok outcome ∨
          ∃ cause, done.result = .error (.reportWrite ⟨"r.txt"⟩ cause outcome)) := by
  intro task done report
  have hreports : reportsOf done.events = [(⟨"r.txt"⟩, report)] := by decide +kernel
  have hlog : (logOf done.events).map (·.2) =
      [{ file := "b.js", line := 1, column := 1, message := "no" },
        { file := "a.js", line := 2, column := 1, message := "no" }] := by decide +kernel
  have h : (⟨"r.txt"⟩, report) ∈ reportsOf done.events := by simp [hreports]
  obtain ⟨format, f, outcome, -, hrender, hgroups, -, hresult, hsum, hlength⟩ :=
    execute_reported task warming default 0 h
  simp only [done] at hlog
  rw [hlog] at hgroups hsum hlength
  refine ⟨h, hlog, format, f, outcome, hrender, ?_, ?_, ?_, hresult⟩
  · have hpaths := congrArg (List.map Prod.fst) hgroups
    simp only [List.map_map, Function.comp_def, List.map_id'] at hpaths
    rw [hpaths]
    decide +kernel
  · rw [← hlength]
    decide +kernel
  · rw [← hsum]
    decide +kernel

end LintRun.Task
