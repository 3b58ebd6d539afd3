import LintRun.Proofs.Task.Examined

/-! A run that takes violations for warnings, beside the same run that does not.

    The flag has a say in two places, the severity of the entries and the success of the outcome.
    Each action of a run is followed once with a severity left open: what it does with warnings is
    what it does anyway, with its entries as warnings (`Done.lenient`). -/

namespace LintRun.Task

variable {σ π : Type}

/-- An event, with its entry as a warning if it logs one. -/
def Event.lenient : Event π → Event π
  | .logged _ entry => .logged .warning entry
  | event => event

/-- An action with its entries as warnings. -/
def Done.lenient {α : Type} (d : Done σ α π) : Done σ α π :=
  { d with events := d.events.map Event.lenient }

/-- A result whose outcome, if it tells one, is a success. -/
def lenientResult : Except (Failure π) Outcome → Except (Failure π) Outcome
  | .ok outcome => .ok { outcome with success := true }
  | .error (.reportWrite path cause outcome) =>
    .error (.reportWrite path cause { outcome with success := true })
  | .error cause => .error cause

/-- A failure that tells no outcome stays as it is. -/
theorem lenientResult_of_untold {cause : Failure π} (h : outcome? (.error cause) = none) :
    lenientResult (.error cause) = .error cause := by
  cases cause with
  | reportWrite => cases h
  | _ => rfl

theorem lenient_andThen {ε α β : Type} (d : Done σ (Except ε α) π)
    (next : α → σ → Done σ (Except ε β) π) :
    (d.andThen next).lenient = d.lenient.andThen fun a s => (next a s).lenient := by
  rcases d with ⟨e | a, events, s⟩
  · rfl
  · simp [Done.andThen, Done.lenient]

theorem outcome?_lenientResult (result : Except (Failure π) Outcome) :
    outcome? (lenientResult result) =
      (outcome? result).map fun outcome => { outcome with success := true } := by
  rcases result with cause | outcome
  · cases cause <;> rfl
  · rfl

theorem lenient_loadOptions (host : Host σ π) (file : Option π) (s : σ) :
    (loadOptions host file s).lenient = loadOptions host file s := by
  rcases file with - | path
  · rfl
  · cases hfound : host.isFile s path <;> simp [loadOptions, hfound, Done.lenient, Event.lenient]

/-- A report does not tell the success of the outcome. -/
theorem lenient_writeReport (host : Host σ π) (target : Option (Report.Target π))
    (now : Timestamp) (f : Findings) (outcome : Outcome) (s : σ) :
    let done := writeReport host target now f outcome s
    writeReport host target now f { outcome with success := true } s =
      ⟨lenientResult done.result, done.events.map Event.lenient, done.state⟩ := by
  rcases target with - | target
  · rfl
  · rcases hwrite : host.write s target.destination (target.render f now) with ⟨cause | done, s₁⟩
    · simp [writeReport, hwrite, lenientResult, Event.lenient]
    · simp [writeReport, hwrite, lenientResult, Event.lenient]

section Lenient

variable [PathLike π] (task : Task π) (host : Host σ π) (options : Options) (severity : Severity)

theorem lenient_lintFile (path : π) (f : Findings) (s : σ) :
    (lintFile host options severity path f s).lenient =
      lintFile host options .warning path f s := by
  rcases hread : host.read s path with ⟨cause | text, s₁⟩
  · simp [lintFile, hread, Done.lenient, Event.lenient]
  rcases hlint : host.lint s₁ text options.lintOptions
    (SourceKind.isScript (SourceKind.ofPath path)) with ⟨cause | answer, s₂⟩
  · simp [lintFile, hread, hlint, Done.lenient, Event.lenient]
  · simp [lintFile, hread, hlint, Done.lenient, Event.lenient]

theorem lenient_lintFiles (files : List π) (f : Findings) (s : σ) :
    (lintFiles host options severity files f s).lenient =
      lintFiles host options .warning files f s := by
  induction files generalizing f s with
  | nil => rfl
  | cons path rest ih =>
    rw [lintFiles, lintFiles, lenient_andThen, lenient_lintFile]
    simp only [ih]

theorem lenient_lintAll (files : List π) (s : σ) :
    (lintAll host options severity files s).lenient =
      lintAll host options .warning files s := by
  rcases hcreate : host.create s with ⟨cause | done, s₁⟩
  · simp [lintAll, hcreate, Done.lenient, Event.lenient]
  · have hloop := lenient_lintFiles host options severity files .empty s₁
    simp [lintAll, hcreate, ← hloop, Done.followedBy, Done.lenient, Event.lenient]

/-- With warnings an examination does the same, but for the severity of its entries. -/
theorem lenient_examine (s : σ) :
    (task.examine host s).lenient = examine { task with warnings := true } host s := by
  rw [examine, lenient_andThen, lenient_loadOptions]
  simp only [lenient_andThen, lenient_lintAll]
  rfl

/-- With warnings a run does the same, but for the severity of its entries and the success of its
    outcome. -/
theorem execute_with_warnings (now : Timestamp) (s : σ) :
    let done := task.execute host now s
    execute { task with warnings := true } host now s =
      ⟨lenientResult done.result, done.events.map Event.lenient, done.state⟩ := by
  by_cases hsources : task.sources = []
  · rw [execute_of_idle task hsources, execute_of_idle { task with warnings := true } hsources]
    rfl
  rw [execute_eq_examine task hsources,
    execute_eq_examine { task with warnings := true } hsources, ← lenient_examine]
  obtain ⟨-, hfails⟩ := examine_unwritten hsources host s
  rcases hexamine : task.examine host s with ⟨cause | ⟨options, f⟩, events, s'⟩
  · have hkept := lenientResult_of_untold (hfails cause (by rw [hexamine]))
    simp [Done.andThen, Done.lenient, hkept]
  · -- the flag is set, so the outcome is a success, and the destination does not depend on it
    have hwrite := lenient_writeReport host (task.target options) now f
      (outcomeOf (task.asWarnings options) f) s'
    have hother : writeReport host (Task.target { task with warnings := true } options) now f
      (outcomeOf (asWarnings { task with warnings := true } options) f) s' = _ := hwrite
    simp only [Done.andThen, Done.lenient, List.map_append, hother]

end Lenient

variable [PathLike π] {task : Task π} {host : Host σ π} {now : Timestamp} {s : σ}

/-- A run logs with the severity that the task and its options ask for. -/
theorem exists_options_of_mem_log {entry : Severity × LogEntry}
    (h : entry ∈ logOf (task.execute host now s).events) :
    ∃ options, (loadOptions host task.optionsFile s).result = .ok options ∧
      entry.1 = .ofRun (task.asWarnings options) := by
  obtain ⟨shown, hends⟩ := exists_ends task host now s
  rw [hends.log_eq] at h
  cases hends with
  | idle | unloaded | uncreated => simp at h
  | refused hbegun | unreported hbegun | reported hbegun | unwritten hbegun =>
    obtain ⟨c, -, hc⟩ := List.mem_flatMap.1 h
    obtain ⟨e, -, rfl⟩ := List.mem_map.1 hc
    exact ⟨_, hbegun.loadOptions_eq, rfl⟩

/-- A run is a success if it may be, or if it has found nothing. -/
theorem success_of_outcome {outcome : Outcome}
    (h : outcome? (task.execute host now s).result = some outcome) :
    outcome.success = true ↔
      (∃ options, (loadOptions host task.optionsFile s).result = .ok options ∧
        task.asWarnings options = true) ∨ outcome.totals.violations = 0 := by
  rcases exists_checked_of_outcome h with
    ⟨-, rfl⟩ | ⟨options, checked, s₂, s₃, hbegun, -, rfl⟩
  · simp
  · simp [outcomeFor, hbegun.loadOptions_eq]

/-- Whether a task takes violations for warnings or not, its run does the same, to the last event and
    state: it asks the same, logs the same entries, writes the same report, and fails with the same
    cause or tells the same totals. Only the severity of the entries differs and the success. -/
theorem execute_lenient (task : Task π) (host : Host σ π) (now : Timestamp) (s : σ) :
    let strict := execute { task with warnings := false } host now s
    let lenient := execute { task with warnings := true } host now s
    let asked := ∃ options, (loadOptions host task.optionsFile s).result = .ok options ∧
      options.output.warnings = true
    lenient.events = strict.events.map Event.lenient ∧
      lenient.result = lenientResult strict.result ∧ lenient.state = strict.state ∧
      (∀ entry ∈ logOf lenient.events, entry.1 = .warning) ∧
      (∀ entry ∈ logOf strict.events, entry.1 = .warning ↔ asked) ∧
      (∀ outcome, outcome? lenient.result = some outcome → outcome.success = true) ∧
      ∀ outcome, outcome? strict.result = some outcome →
        (outcome.success = true ↔ asked ∨ outcome.totals.violations = 0) := by
  intro strict lenient asked
  have hsame : lenient = _ := execute_with_warnings { task with warnings := false } host now s
  refine ⟨by rw [hsame], by rw [hsame], by rw [hsame], ?_, ?_, ?_, ?_⟩
  · intro entry hentry
    obtain ⟨options, -, hseverity⟩ := exists_options_of_mem_log hentry
    exact hseverity
  · intro entry hentry
    obtain ⟨options, hloaded, hseverity⟩ := exists_options_of_mem_log hentry
    have hasked : asked ↔ options.output.warnings = true := by
      refine ⟨?_, fun h => ⟨options, hloaded, h⟩⟩
      rintro ⟨options', hloaded', h⟩
      obtain rfl := Except.ok.inj (hloaded.symm.trans hloaded')
      exact h
    rw [hseverity, hasked]
    cases hwarnings : options.output.warnings <;> simp [asWarnings, Severity.ofRun, hwarnings]
  · intro outcome houtcome
    rw [hsame, outcome?_lenientResult, Option.map_eq_some_iff] at houtcome
    obtain ⟨outcome', -, rfl⟩ := houtcome
    rfl
  · intro outcome houtcome
    exact success_of_outcome houtcome

end LintRun.Task
