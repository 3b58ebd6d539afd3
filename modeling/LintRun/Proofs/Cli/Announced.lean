import LintRun.Proofs.Cli.Exit

/-! The report that a verbose run announces, and the one that its task has written.

    The task decides on a report by the options that it loads for itself, and it has files or not.
    The command line tells of a report afterwards by its own options and by the number of files that
    were processed. Both come to the same: of a task that succeeds, a report is announced exactly if
    one was written, and then it is the only one and went where it is said to be
    (`lint_announces`). -/

namespace LintRun

namespace Task

variable {σ π : Type} [PathLike π] {task : Task π} {host : Host σ π} {now : Timestamp} {s : σ}
  {options : Options} {outcome : Outcome}

/-- A run that tells an outcome has processed files if it was given some. -/
theorem processed_pos_iff (h : outcome? (task.execute host now s).result = some outcome) :
    0 < outcome.totals.processed ↔ task.sources ≠ [] := by
  rcases exists_checked_of_outcome h with
    ⟨hidle, rfl⟩ | ⟨options, checked, s₂, s₃, hbegun, hlinted, rfl⟩
  · simp [hidle]
  · have hchecked : checked ≠ [] := by
      rintro rfl
      exact hbegun.sources hlinted.map_path.symm
    have hprocessed : (task.outcomeFor options checked).totals.processed =
        (checked.map (PathLike.display ·.path)).toFinset.card := rfl
    rw [hprocessed, Finset.card_pos, List.toFinset_nonempty_iff, ne_eq, List.map_eq_nil_iff]
    exact iff_of_true hchecked hbegun.sources

/-- Where a task with files that succeeds has written its report. -/
theorem map_fst_reportsOf (hloaded : (loadOptions host task.optionsFile s).result = .ok options)
    (h : (task.execute host now s).result = .ok outcome) (hsources : task.sources ≠ []) :
    (reportsOf (task.execute host now s).events).map (·.1) = (task.wanted options).toList := by
  obtain ⟨shown, hends⟩ := exists_ends task host now s
  have hreports : reportsOf (task.execute host now s).events = shown.reports :=
    (congrArg Shown.reports hends.eq_shown).symm
  have hshown : shown.result = .ok outcome := hends.result_eq.symm.trans h
  rw [hreports, ← map_destination_target]
  cases hends with
  | idle hidle => exact absurd hidle hsources
  | unreported hbegun _ htarget =>
    rw [← hbegun.options_eq hloaded, htarget]
    rfl
  | reported hbegun _ htarget =>
    rw [← hbegun.options_eq hloaded, htarget]
    rfl
  | unloaded | uncreated | refused | unwritten => cases hshown

/-- A task that succeeds has written every report that it tried to write. -/
theorem wrote_of_mem_reportsOf (h : (task.execute host now s).result = .ok outcome) {path : π}
    {report : String} (hreport : (path, report) ∈ reportsOf (task.execute host now s).events) :
    .wrote path report (.ok ()) ∈ (task.execute host now s).events := by
  obtain ⟨event, hevent, htried⟩ := List.mem_filterMap.1 hreport
  cases event with
  | wrote path' report' answer =>
    obtain ⟨rfl, rfl⟩ := Prod.mk.inj (Option.some.inj htried)
    rcases answer with cause | done
    · obtain ⟨outcome', herror⟩ := result_of_unwritten hevent
      rw [herror] at h
      cases h
    · exact hevent
  | _ => cases htried

end Task

namespace Cli.LintRequest

variable {σ : Type} {r : LintRequest} {host : List String → Task.Host σ} {now : Timestamp}
  {t : FileTree} {s : σ} {o : Options} {sources : List Path}
  {done : Task.Done σ (Except Task.Failure Task.Outcome)} {outcome : Task.Outcome}

/-- The line that announces a report. -/
def announcement (path : Path) : String := line s!"Report written to {path.text}"

theorem toList_announcement (path : Path) : (announcement path).toList =
    "Report written to ".toList ++ (path.text.toList ++ ['\n']) := by
  simp [announcement, line, toString]

theorem announcement_injective : Function.Injective announcement := by
  intro p q h
  have hlist := congrArg String.toList h
  rw [toList_announcement, toList_announcement, List.append_cancel_left_eq,
    List.append_cancel_right_eq, String.toList_inj] at hlist
  exact congrArg Path.mk hlist

theorem announcement_ne_empty (path : Path) : announcement path ≠ "" := by
  intro h
  have hlist := congrArg String.toList h
  simp [toList_announcement] at hlist

/-- Where the report of a run with some sources goes: without sources there is none. -/
def destination (r : LintRequest) (o : Options) (sources : List Path) : Option Path :=
  if sources = [] then none else r.reportPath o

theorem destination_eq_some_iff {path : Path} : r.destination o sources = some path ↔
    sources ≠ [] ∧ r.reportFile.or o.output.reportFile = some path ∧ path.text ≠ "" := by
  simp [destination, reportPath, Path.isEmpty, and_comm]

/-- What a verbose run tells of a report that goes somewhere, and of none. -/
def told (destination : Option Path) : String := (destination.map announcement).getD ""

theorem told_eq_announcement_iff {dest : Option Path} {path : Path} :
    told dest = announcement path ↔ dest = some path := by
  cases dest with
  | none => simpa [told] using (announcement_ne_empty path).symm
  | some p => simpa [told] using announcement_injective.eq_iff

theorem told_eq_empty_iff {dest : Option Path} : told dest = "" ↔ dest = none := by
  cases dest with
  | none => simp [told]
  | some p => simpa [told] using announcement_ne_empty p

/-- What a verbose run tells of its report if its task succeeds. -/
theorem Reaches.reportNote_eq (h : r.Reaches host now t s o sources done)
    (hverbose : r.verbose = true) (hok : done.result = .ok outcome) :
    r.reportNote o outcome.totals = told (r.destination o sources) := by
  have houtcome : Task.outcome? ((r.task t sources).execute (host o.linterCommand) now s).result =
      some outcome := by
    rw [h.executes, hok]
    rfl
  have hprocessed : 0 < outcome.totals.processed ↔ sources ≠ [] := Task.processed_pos_iff houtcome
  rw [reportNote, destination]
  by_cases hsources : sources = []
  · cases r.reportPath o <;> simp [hverbose, hprocessed, hsources, told]
  · cases r.reportPath o <;> simp [hverbose, hprocessed, hsources, told, announcement]

/-- What a run has written whose task succeeds. -/
theorem Reaches.map_fst_reportsOf (h : r.Reaches host now t s o sources done)
    (hshows : ∀ path ∈ r.optionsPath t, (host o.linterCommand).Shows s t path)
    (hok : done.result = .ok outcome) :
    (Task.reportsOf done.events).map (·.1) = (r.destination o sources).toList := by
  rw [destination]
  by_cases hsources : sources = []
  · have hidle := h.executes.symm.trans (Task.execute_of_idle (r.task t sources) hsources _ now s)
    simp [hidle, hsources, Task.reportsOf]
  · have hloaded := r.loadOptions_task_of_shows sources h.loads hshows
    rw [← h.executes] at hok ⊢
    rw [if_neg hsources]
    simpa [Task.wanted, reportPath, task] using Task.map_fst_reportsOf hloaded hok hsources

/-- The report of a run whose task succeeds is written once, to where it goes, and so that it does
    not fail. -/
theorem Reaches.destination_eq_some_iff (h : r.Reaches host now t s o sources done)
    (hshows : ∀ path ∈ r.optionsPath t, (host o.linterCommand).Shows s t path)
    (hok : done.result = .ok outcome) {path : Path} :
    r.destination o sources = some path ↔ ∃ report, Task.reportsOf done.events = [(path, report)] ∧
      .wrote path report (.ok ()) ∈ done.events := by
  have hpaths := h.map_fst_reportsOf hshows hok
  constructor
  · intro hdest
    rw [hdest, Option.toList_some, List.map_eq_singleton_iff] at hpaths
    obtain ⟨⟨path', report⟩, hreports, rfl⟩ := hpaths
    refine ⟨report, hreports, ?_⟩
    have hreport : (path', report) ∈ Task.reportsOf done.events := by simp [hreports]
    rw [← h.executes] at hok hreport ⊢
    exact Task.wrote_of_mem_reportsOf hok hreport
  · rintro ⟨report, hreports, -⟩
    rw [hreports] at hpaths
    simpa using hpaths.symm

theorem Reaches.destination_eq_none_iff (h : r.Reaches host now t s o sources done)
    (hshows : ∀ path ∈ r.optionsPath t, (host o.linterCommand).Shows s t path)
    (hok : done.result = .ok outcome) :
    r.destination o sources = none ↔ Task.reportsOf done.events = [] := by
  rw [← List.map_eq_nil_iff (f := Prod.fst), h.map_fst_reportsOf hshows hok,
    Option.toList_eq_nil_iff]

end Cli.LintRequest

open Cli Cli.LintRequest in
/-- What a verbose run tells of its report behind its totals, whatever its linter does, as long as
    the task succeeds and the options file is not changed between the two times that it is read. It
    announces a report at a path exactly if the task has written one report, and this one to that
    path; and it announces none exactly if the task has tried to write none. The path is that of the
    command line, or else that of the options, if that has any text and there are files to lint. The
    diagnostics of a verbose run, none of which is an announcement, are left out of what is told. -/
theorem lint_announces (r : LintRequest) (hverbose : r.verbose = true) (hinputs : r.inputs ≠ [])
    (now : Timestamp) (t : FileTree) :
    (∀ start : Linter.Starter, r.run start now t = r.runOn (Task.workspace start) now t t ∧
      ∀ words path, (Task.workspace start words).Shows t t path) ∧
    ∀ (σ : Type) (host : List String → Task.Host σ) (s : σ),
      (∀ words, ∀ path ∈ r.optionsPath t, (host words).Shows s t path) →
      ∀ o sources done outcome, r.Reaches host now t s o sources done →
        done.result = .ok outcome →
        ∃ more, (r.runOn host now t s).1.err =
            r.optionsNote t ++ r.sourcesNote sources ++
              line (Console.summary (r.colored o) outcome.totals) ++ more ∧
          (∀ path, more = line s!"Report written to {path.text}" ↔
            ∃ report, Task.reportsOf done.events = [(path, report)] ∧
              .wrote path report (.ok ()) ∈ done.events) ∧
          (more = "" ↔ Task.reportsOf done.events = []) ∧
          (more = "" ∨ ∃ path : Path, more = line s!"Report written to {path.text}") ∧
          ∀ path, more = line s!"Report written to {path.text}" ↔ sources ≠ [] ∧
            r.reportFile.or o.output.reportFile = some path ∧ path.text ≠ "" := by
  refine ⟨fun start => ⟨run_eq_runOn start r now t, fun words path =>
    Options.shows_workspace rfl start words⟩, ?_⟩
  intro σ host s hshows o sources done outcome h hok
  have htold := h.reportNote_eq hverbose hok
  have hannounced (path : Path) : r.reportNote o outcome.totals = announcement path ↔
      r.destination o sources = some path := by
    rw [htold, told_eq_announcement_iff]
  refine ⟨r.reportNote o outcome.totals, ?_, fun path => ?_, ?_, ?_, fun path => ?_⟩
  · rw [h.runOn_eq hinputs, hok]
    rfl
  · exact (hannounced path).trans (h.destination_eq_some_iff (hshows _) hok)
  · rw [htold, told_eq_empty_iff, h.destination_eq_none_iff (hshows _) hok]
  · rcases hdest : r.destination o sources with - | path
    · exact Or.inl (by rw [htold, hdest]; rfl)
    · exact Or.inr ⟨path, (hannounced path).2 hdest⟩
  · exact (hannounced path).trans destination_eq_some_iff

open Cli in
/-- A report that the command line asks for, on a run that takes what it finds for warnings. -/
theorem lint_announces_asked :
    let r : LintRequest :=
      { inputs := [⟨"a.js"⟩], optionsFile := some ⟨"o.toml"⟩, reportFile := some ⟨"r.txt"⟩
        warnings := true, verbose := true }
    (r.verbose = true ∧ r.inputs ≠ [] ∧ ∀ words, ∀ path ∈ r.optionsPath marked,
      (complaining words).Shows marked marked path) ∧
    ∃ o done outcome report shown, r.Reaches complaining default marked marked o [⟨"a.js"⟩] done ∧
      done.result = .ok outcome ∧ Task.reportsOf done.events = [(⟨"r.txt"⟩, report)] ∧
      (r.runOn complaining default marked marked).1.err =
        shown ++ line "Report written to r.txt" := by
  intro r
  have hinputs : r.inputs ≠ [] := List.cons_ne_nil _ _
  have hshows : ∀ words, ∀ path ∈ r.optionsPath marked,
      (complaining words).Shows marked marked path := fun words path _ => ⟨rfl, rfl⟩
  let o : Options := { color := .never }
  let host := complaining o.linterCommand
  let task := r.task marked [⟨"a.js"⟩]
  have hloads : r.options marked = .ok o := by
    have hstat : marked.stat ⟨"o.toml"⟩ = .ok (.file (Text.Utf8.encode markedText)) := by rfl
    exact (Options.load_of_stat hstat).trans (parse_markedText _)
  obtain ⟨done, hdone⟩ : ∃ done, task.execute host default marked = done := ⟨_, rfl⟩
  have hreaches : r.Reaches complaining default marked marked o [⟨"a.js"⟩] done :=
    ⟨hloads, rfl, hdone⟩
  -- the task reads the options again, lints the file, and writes its report
  have hbegun : Task.Begun task host marked o marked := by
    obtain ⟨parsed, hparsed⟩ := Options.exists_parsed (⟨"o.toml"⟩ : Path)
      (Text.Utf8.lossy (Text.Utf8.dropMark (Text.Utf8.encode markedText)))
    have hsame := hparsed.parse_eq
    rw [Options.parse_lossy (Text.Utf8.strict_encode _) (parse_markedText _)] at hsame
    exact ⟨List.cons_ne_nil _ _, marked, .file rfl rfl (hsame ▸ hparsed), rfl⟩
  let checked : List Task.Checked := [⟨⟨"a.js"⟩, "x", [⟨1, 1, "no", none⟩]⟩]
  have hlinted : Task.Linted host o.lintOptions task.sources marked checked marked :=
    .cons rfl rfl .nil
  have htarget : task.target o = some ⟨.text, ⟨"r.txt"⟩⟩ := by decide
  have hends : Task.Ends task host default marked ⟨.ok _, _, _⟩ :=
    .reported hbegun hlinted htarget rfl
  have hok : done.result = .ok (task.outcomeFor o checked) := by rw [← hdone, hends.result_eq]
  obtain ⟨-, htold⟩ := lint_announces r rfl hinputs default marked
  obtain ⟨more, herr, hwritten, -, -, hasked⟩ :=
    htold FileTree complaining marked hshows o _ done _ hreaches hok
  have hmore : more = line "Report written to r.txt" :=
    (hasked ⟨"r.txt"⟩).2 ⟨List.cons_ne_nil _ _, rfl, by decide⟩
  obtain ⟨report, hreports, -⟩ := (hwritten ⟨"r.txt"⟩).1 hmore
  exact ⟨⟨rfl, hinputs, hshows⟩, o, done, _, report, _, hreaches, hok, hreports,
    herr.trans (congrArg _ hmore)⟩

end LintRun
