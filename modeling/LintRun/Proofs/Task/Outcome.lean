import LintRun.Proofs.Task.Loaded

/-! The log and the outcome of a run that no collaborator breaks off.

    A run threads its findings through a loop over the files, in which a path may come again, a
    clean file skips the scan, and the linter changes from call to call. `execute_of_linted` says
    what is left of that: log, totals and success are direct functions of the linter's answers. -/

namespace LintRun.Task

open PathLike (display)

variable {σ π : Type} [PathLike π]

/-- The counts over some files. Files with the same path count once. -/
def tally (markers : Markers) (checked : List (Checked π)) : Totals where
  processed := (checked.map (display ·.path)).toFinset.card
  violating := ((checked.filter fun c => c.kept markers ≠ []).map (display ·.path)).toFinset.card
  violations := (checked.flatMap (·.kept markers)).length

/-- The outcome of a task whose files were all linted. -/
def outcomeFor (task : Task π) (options : Options) (checked : List (Checked π)) : Outcome where
  success := task.asWarnings options || (tally options.markers checked).violations == 0
  totals := tally options.markers checked

theorem adds_notes (markers : Markers) (checked : List (Checked π)) :
    (checked.flatMap (·.notes markers)).filter Note.adds =
      checked.flatMap fun c => (c.kept markers).map (.add (display c.path)) := by
  rw [List.filter_flatMap]
  refine List.flatMap_congr fun c _ => ?_
  rw [Checked.notes, List.filter_cons_of_neg (by simp [Note.adds])]
  exact List.filter_eq_self.2 (by simp [Note.adds])

theorem totals_findingsOf (markers : Markers) (checked : List (Checked π)) :
    (findingsOf markers checked).totals = tally markers checked := by
  have hreflects := Findings.reflects_ofHistory (checked.flatMap (·.notes markers))
  have hprocessed : ((checked.flatMap (·.notes markers)).map (·.path)).toFinset =
      (checked.map (display ·.path)).toFinset := by
    ext p
    simp only [List.mem_toFinset, List.mem_map, List.mem_flatMap, Checked.notes, List.mem_cons]
    grind [Note.path]
  have hviolating : (((checked.flatMap (·.notes markers)).filter Note.adds).map (·.path)).toFinset =
      ((checked.filter fun c => c.kept markers ≠ []).map (display ·.path)).toFinset := by
    ext p
    rw [adds_notes]
    simp [Note.path, List.eq_nil_iff_forall_not_mem]
  have hviolations : (checked.flatMap (·.notes markers)).countP Note.adds =
      (checked.flatMap (·.kept markers)).length := by
    rw [List.countP_eq_length_filter, adds_notes]
    simp [List.length_flatMap]
  rw [Findings.totals, findingsOf, hreflects.processedCount_eq, hreflects.violatingCount_eq,
    hreflects.violationCount_eq, hprocessed, hviolating, hviolations, tally]

theorem outcomeOf_findingsOf (task : Task π) (options : Options) (checked : List (Checked π)) :
    outcomeOf (task.asWarnings options) (findingsOf options.markers checked) =
      outcomeFor task options checked := by
  have htotals := totals_findingsOf options.markers checked
  rw [outcomeOf, htotals, outcomeFor, ← htotals]
  rfl

/-- A task has its options and its linter. -/
structure Begun (task : Task π) (host : Host σ π) (s : σ) (options : Options) (s₂ : σ) : Prop where
  sources : task.sources ≠ []
  ready : ∃ s₁, Loads host task.optionsFile s (.ok options) s₁ ∧ host.create s₁ = (.ok (), s₂)

variable {task : Task π} {host : Host σ π} {options : Options} {s s₁ s₂ : σ}

omit [PathLike π] in
theorem Begun.loadOptions_eq (h : Begun task host s options s₂) :
    (loadOptions host task.optionsFile s).result = .ok options := by
  obtain ⟨s₁, hloads, -⟩ := h.ready
  obtain ⟨asked, -, hloaded⟩ := hloads.loadOptions_eq
  rw [hloaded]

theorem execute_of_loads {result : Except (Failure π) Options} (hsources : task.sources ≠ [])
    (hloads : Loads host task.optionsFile s result s₁) (now : Timestamp) :
    ∃ asked, Silent asked ∧ task.execute host now s =
      Done.andThen ⟨result, asked, s₁⟩ fun options s =>
        (lintAll host options (.ofRun (task.asWarnings options)) task.sources s).andThen fun f s =>
          writeReport host (task.target options) now f (outcomeOf (task.asWarnings options) f) s := by
  obtain ⟨asked, hasked, hload⟩ := hloads.loadOptions_eq
  refine ⟨asked, hasked, ?_⟩
  rw [execute_eq_andThen hsources, hload]

/-- What a run does once its linter is there: it lints, releases the linter, and reports. -/
theorem execute_of_begun (h : Begun task host s options s₂) (now : Timestamp) :
    ∃ asked, Silent asked ∧
      let linted := lintFiles host options (.ofRun (task.asWarnings options)) task.sources .empty s₂
      task.execute host now s =
        Done.andThen ⟨linted.result, asked ++ linted.events ++ [.released], linted.state⟩ fun f s =>
          writeReport host (task.target options) now f (outcomeOf (task.asWarnings options) f) s := by
  obtain ⟨s₁, hloads, hcreate⟩ := h.ready
  obtain ⟨asked, hasked, hexecute⟩ := execute_of_loads h.sources hloads now
  have hcreated : Silent ([.created (.ok ())] : List (Event π)) := silent_single.2 ⟨rfl, rfl⟩
  refine ⟨asked ++ [.created (.ok ())], silent_append.2 ⟨hasked, hcreated⟩, ?_⟩
  intro linted
  rw [hexecute, Done.andThen]
  simp only [lintAll, hcreate]
  rcases hlinted : linted with ⟨cause | f, events, s'⟩ <;>
    simp [Done.andThen, Done.followedBy, linted, hlinted]

/-- A run whose files are all read and linted does for each file what its answer asks for, then
    releases the linter, and reports what it found. -/
theorem execute_of_checked {checked : List (Checked π)} {s₃ : σ}
    (h : Begun task host s options s₂)
    (hlinted : Linted host options.lintOptions task.sources s₂ checked s₃) (now : Timestamp) :
    ∃ asked, Silent asked ∧
      let written := writeReport host (task.target options) now
        (findingsOf options.markers checked) (outcomeFor task options checked) s₃
      task.execute host now s =
        ⟨written.result, asked ++ checked.flatMap (·.events options
          (.ofRun (task.asWarnings options))) ++ [.released] ++ written.events, written.state⟩ := by
  obtain ⟨asked, hasked, hexecute⟩ := execute_of_begun h now
  rw [lintFiles_of_linted hlinted] at hexecute
  refine ⟨asked, hasked, ?_⟩
  rw [hexecute, Done.andThen, ← outcomeOf_findingsOf]
  rfl

omit [PathLike π] in
/-- Writing a report logs nothing, and fails only with the outcome that it would have left. -/
theorem writeReport_outcome (host : Host σ π) (target : Option (Report.Target π)) (now : Timestamp)
    (f : Findings) (outcome : Outcome) (s : σ) :
    let done := writeReport host target now f outcome s
    logOf done.events = [] ∧ (done.result = .ok outcome ∨ ∃ path report cause,
      .wrote path report (.error cause) ∈ done.events ∧
        done.result = .error (.reportWrite path cause outcome)) := by
  rcases target with - | target
  · exact ⟨rfl, Or.inl rfl⟩
  · rcases hwrite : host.write s target.destination (target.render f now) with ⟨cause | done, s₁⟩
    · simp [writeReport, hwrite, logOf, Event.entry?]
    · simp [writeReport, hwrite, logOf, Event.entry?]

/-- The run of a task whose files are all read and linted. -/
theorem execute_of_linted (task : Task π) (host : Host σ π) (now : Timestamp) {s s₁ s₂ s₃ : σ}
    {options : Options} {checked : List (Checked π)} (hsources : task.sources ≠ [])
    (hloads : Loads host task.optionsFile s (.ok options) s₁)
    (hcreate : host.create s₁ = (.ok (), s₂))
    (hlinted : Linted host options.lintOptions task.sources s₂ checked s₃) :
    let warnings := task.warnings || options.output.warnings
    let done := task.execute host now s
    logOf done.events = (checked.flatMap fun c => (c.kept options.markers).map fun v =>
        (if warnings then .warning else .error,
          { file := display c.path, line := v.line, column := v.column, message := v.message })) ∧
      ∃ outcome : Outcome,
        (done.result = .ok outcome ∨ ∃ path report cause,
          .wrote path report (.error cause) ∈ done.events ∧
            done.result = .error (.reportWrite path cause outcome)) ∧
        outcome.totals.processed = (task.sources.map display).toFinset.card ∧
        outcome.totals.violating =
          ((checked.filter fun c => c.kept options.markers ≠ []).map (display ·.path)).toFinset.card ∧
        outcome.totals.violations = (checked.flatMap (·.kept options.markers)).length ∧
        (outcome.success = true ↔ warnings = true ∨ outcome.totals.violations = 0) := by
  intro warnings done
  have hbegun : Begun task host s options s₂ := ⟨hsources, s₁, hloads, hcreate⟩
  obtain ⟨asked, hasked, hexecute⟩ := execute_of_checked hbegun hlinted now
  obtain ⟨hlog, hresult⟩ := writeReport_outcome host (task.target options) now
    (findingsOf options.markers checked) (outcomeFor task options checked) s₃
  have hpaths : checked.map (display ·.path) = task.sources.map display := by
    rw [← hlinted.map_path, List.map_map]
    rfl
  refine ⟨?_, outcomeFor task options checked, ?_, ?_, rfl, rfl, ?_⟩
  · have hentries := logOf_events options (.ofRun (task.asWarnings options)) checked
    simp only [done, hexecute, logOf_append, hasked.logOf_eq, hlog, hentries]
    simp [logged, Checked.entries, logOf, Event.entry?, Severity.ofRun, asWarnings, warnings,
      Function.comp_def]
  · rcases hresult with hok | ⟨path, report, cause, hmem, herror⟩
    · exact Or.inl (by simp only [done, hexecute, hok])
    · refine Or.inr ⟨path, report, cause, ?_, ?_⟩
      · simp only [done, hexecute, List.mem_append]
        exact Or.inr hmem
      · simp only [done, hexecute, herror]
  · rw [← hpaths]
    rfl
  · simp [outcomeFor, asWarnings, warnings]

/-- A linter that complains about the first line at its first call, about the second at its second
    call, and so on. All files have the same text, the second line of which is ignored. -/
def counting : Host Nat where
  isFile _ _ := true
  read calls _ := (.ok "x\n/*ignore jslint start*//*ignore jslint end*/\ny", calls)
  create calls := (.ok (), calls)
  lint calls _ _ _ := (.ok [⟨calls + 1, 1, "no", none⟩], calls + 1)
  write calls _ _ := (.ok (), calls)

/-- Of three files the second is clean, and the third is the first again. -/
theorem execute_of_linted_counting :
    let task : Task := { sources := [⟨"a.js"⟩, ⟨"b.js"⟩, ⟨"a.js"⟩] }
    let checked : List Checked := [⟨"a.js"⟩, ⟨"b.js"⟩, ⟨"a.js"⟩].zipIdx.map fun (path, calls) =>
      ⟨path, "x\n/*ignore jslint start*//*ignore jslint end*/\ny", [⟨calls + 1, 1, "no", none⟩]⟩
    (task.sources ≠ [] ∧ Loads counting task.optionsFile 0 (.ok {}) 0 ∧
      counting.create 0 = (.ok (), 0) ∧ Linted counting {} task.sources 0 checked 3) ∧
    logOf (task.execute counting default 0).events =
      [(.error, { file := "a.js", line := 1, column := 1, message := "no" }),
        (.error, { file := "a.js", line := 3, column := 1, message := "no" })] ∧
    (task.execute counting default 0).result = .ok ⟨false, ⟨2, 1, 2⟩⟩ := by
  intro task checked
  have hsources : task.sources ≠ [] := List.cons_ne_nil _ _
  have hlinted : Linted counting {} task.sources 0 checked 3 :=
    .cons rfl rfl (.cons rfl rfl (.cons rfl rfl .nil))
  obtain ⟨hlog, outcome, hresult, hprocessed, hviolating, hviolations, hsuccess⟩ :=
    execute_of_linted task counting default hsources .defaults rfl hlinted
  refine ⟨⟨hsources, .defaults, rfl, hlinted⟩, ?_, ?_⟩
  · rw [hlog]
    decide +kernel
  · have hok : (task.execute counting default 0).result.isOk = true := by decide +kernel
    rcases hresult with hresult | ⟨path, report, cause, -, herror⟩
    · have htotals : outcome.totals = ⟨2, 1, 2⟩ := by
        rw [Totals.mk.injEq, hprocessed, hviolating, hviolations]
        decide +kernel
      have hfailed : outcome.success = false := by
        rw [← Bool.not_eq_true, hsuccess, htotals]
        decide
      rw [hresult, ← htotals, ← hfailed]
    · rw [herror] at hok
      cases hok

end LintRun.Task
