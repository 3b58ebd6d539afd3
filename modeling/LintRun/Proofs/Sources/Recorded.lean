import LintRun.Proofs.Sources.Collected
import LintRun.Proofs.Task.Reordered
import LintRun.Proofs.Task.Reported

/-! The records of a task whose sources were collected from the inputs of a command line.

    Sources are told apart by the components of their paths, records by the texts of the paths.
    Paths of one text have the same components, so no text comes twice among collected sources, and
    each source has a record of its own (`collect_recorded`). -/

namespace LintRun

namespace Task

open PathLike (display)

variable {σ π : Type}

/-- Only one member of a list has the key of a member, if no key comes twice. -/
theorem filter_key_eq_singleton {α : Type} {key : α → String} {l : List α} {a : α}
    (h : (l.map key).Nodup) (ha : a ∈ l) : l.filter (key · = key a) = [a] := by
  induction l with
  | nil => cases ha
  | cons b l ih =>
    obtain ⟨hb, hl⟩ := List.nodup_cons.1 h
    rcases List.mem_cons.1 ha with rfl | ha
    · have hrest : l.filter (key · = key a) = [] := by
        refine List.filter_eq_nil_iff.2 fun c hc hkey => hb ?_
        rw [← of_decide_eq_true hkey]
        exact List.mem_map_of_mem hc
      rw [List.filter_cons_of_pos (by simp), hrest]
    · have hne : key b ≠ key a := fun hkey => hb (hkey ▸ List.mem_map_of_mem ha)
      rw [List.filter_cons_of_neg (by simpa using hne), ih hl ha]

/-- Files whose paths have different texts have a record each, in their order. -/
theorem files_findingsOf [PathLike π] (markers : Markers) {checked : List (Checked π)}
    (h : (checked.map (display ·.path)).Nodup) : (findingsOf markers checked).files =
      checked.map fun c => ⟨display c.path, c.kept markers⟩ := by
  rw [findingsOf, (Findings.reflects_ofHistory _).files, mentioned_flatMap_notes,
    Findings.eraseDups_of_nodup h, List.map_map]
  refine List.map_congr_left fun c hc => ?_
  rw [Function.comp_apply, Findings.recordOf, under_notes, filter_key_eq_singleton h hc,
    List.flatMap_singleton]

/-- Only what was found is reported. -/
theorem exists_format_of_mem_reportsOf {host : Host σ π} {target : Option (Report.Target π)}
    {now : Timestamp} {f : Findings} {outcome : Outcome} {s : σ} {path : π} {report : String}
    (h : (path, report) ∈ reportsOf (writeReport host target now f outcome s).events) :
    ∃ format : Report.Format, report = format.render f now := by
  rcases target with - | target
  · cases h
  · obtain ⟨-, rfl⟩ := Prod.mk.inj (List.mem_singleton.1 h)
    exact ⟨target.format, rfl⟩

end Task

namespace Sources

variable {σ : Type} {t : FileTree} {kinds : Include} {inputs found : List Path}

/-- No two collected paths have the same text. -/
theorem nodup_text_of_collect (h : collect t kinds inputs = .ok found) :
    (found.map (·.text)).Nodup := by
  refine List.Pairwise.map _ (fun p q hdiffers htext => hdiffers ?_) (pairwise_collect h)
  obtain rfl : p = q := congrArg Path.mk htext
  rfl

/-- A task that lints collected sources to the end merges no records. No two sources have the same
    text, as many files as there are sources count as processed, and what is found, and reported,
    has for each source in its order a record with the violations that count in it. -/
theorem collect_recorded (task : Task) (host : Task.Host σ) (now : Timestamp) (s : σ)
    (t : FileTree) (kinds : Include) (inputs : List Path) (outcome : Task.Outcome)
    (hcollect : collect t kinds inputs = .ok task.sources)
    (houtcome : Task.outcome? (task.execute host now s).result = some outcome) :
    (task.sources.map (·.text)).Nodup ∧ outcome.totals.processed = task.sources.length ∧
      (task.sources ≠ [] → ∃ options checked s₂ s₃ f,
        Task.Begun task host s options s₂ ∧
        Task.Linted host options.lintOptions task.sources s₂ checked s₃ ∧
        (task.examine host s).result = .ok (options, f) ∧ f.totals = outcome.totals ∧
        (∀ path report, (path, report) ∈ Task.reportsOf (task.execute host now s).events →
          ∃ format : Report.Format, report = format.render f now) ∧
        f.files.map (·.path) = task.sources.map (·.text) ∧
        f.files = checked.map fun c => ⟨c.path.text, c.kept options.markers⟩) := by
  have hnodup := nodup_text_of_collect hcollect
  refine ⟨hnodup, ?_⟩
  rcases Task.exists_checked_of_outcome houtcome with
    ⟨hidle, rfl⟩ | ⟨options, checked, s₂, s₃, hbegun, hlinted, rfl⟩
  · exact ⟨by rw [hidle]; rfl, fun hsources => absurd hidle hsources⟩
  · have hpaths : checked.map (·.path.text) = task.sources.map (·.text) := by
      rw [← hlinted.map_path, List.map_map]
      rfl
    have hfiles := Task.files_findingsOf options.markers (hpaths ▸ hnodup)
    have htotals := Task.totals_findingsOf options.markers checked
    refine ⟨?_, fun _ => ⟨options, checked, s₂, s₃, Task.findingsOf options.markers checked, hbegun,
      hlinted, Task.examine_of_linted hbegun hlinted, htotals, fun path report hreport => ?_, ?_,
      hfiles⟩⟩
    · rw [← List.length_map (f := (·.text)), ← hpaths, List.length_map, ← List.length_map, ← hfiles]
      exact (congrArg Totals.processed htotals).symm
    · rw [Task.reportsOf_execute_of_checked hbegun hlinted] at hreport
      exact Task.exists_format_of_mem_reportsOf hreport
    · rw [hfiles, List.map_map, ← hpaths]
      rfl

/-- A file that is listed under two spellings has a record under each of them. -/
theorem collect_recorded_twice :
    let task : Task := { sources := [⟨"./lib/a.js"⟩, ⟨"lib/a.js"⟩] }
    let outcome : Task.Outcome := ⟨false, ⟨2, 1, 1⟩⟩
    (collect single default [⟨"./lib/a.js"⟩, ⟨"./lib"⟩] = .ok task.sources ∧
      Task.outcome? (task.execute Task.counting default 0).result = some outcome) ∧
    outcome.totals.processed = task.sources.length ∧
    ∃ options f, (task.examine Task.counting 0).result = .ok (options, f) ∧
      f.totals = outcome.totals ∧ f.files.map (·.path) = ["./lib/a.js", "lib/a.js"] := by
  intro task outcome
  have houtcome : Task.outcome? (task.execute Task.counting default 0).result = some outcome := by
    decide +kernel
  obtain ⟨-, hprocessed, hrecords⟩ := collect_recorded task Task.counting default 0 single default _
    outcome collect_single houtcome
  obtain ⟨options, checked, s₂, s₃, f, -, -, hexamine, htotals, -, hpaths, -⟩ :=
    hrecords (List.cons_ne_nil _ _)
  exact ⟨⟨collect_single, houtcome⟩, hprocessed, options, f, hexamine, htotals, hpaths⟩

end Sources

end LintRun
