import LintRun.Proofs.Task.Outcome

/-! How a run ends, told by the first step that fails.

    `Ends` has a rule for each way to end, with the steps that have succeeded before it, and gives
    what shows of the run then: its result, its log, and the reports it tried to write.
    `execute_ends` says that the rules are those of a run: one of them fits every behaviour of the
    collaborators, and none of them gives another end than the run has. -/

namespace LintRun.Task

variable {σ π : Type}

/-- What shows of an action: its result, its log, and the reports it tried to write. -/
structure Shown (α : Type) (π : Type := Path) where
  result : α
  log : Log
  reports : List (π × String)

/-- What of an action shows. -/
def Done.shown {α : Type} (d : Done σ α π) : Shown α π :=
  ⟨d.result, logOf d.events, reportsOf d.events⟩

variable [PathLike π]

/-- The log of a task after some of its files. -/
def logFor (task : Task π) (options : Options) (checked : List (Checked π)) : Log :=
  logged options.markers (.ofRun (task.asWarnings options)) checked

/-- What shows of a run, by the first step that fails. -/
inductive Ends (task : Task π) (host : Host σ π) (now : Timestamp) (s : σ) :
    Shown (Except (Failure π) Outcome) π → Prop where
  /-- There is nothing to lint. -/
  | idle (hsources : task.sources = []) : Ends task host now s ⟨.ok ⟨true, ⟨0, 0, 0⟩⟩, [], []⟩
  /-- The options cannot be loaded. -/
  | unloaded {cause : Failure π} {s₁ : σ} (hsources : task.sources ≠ [])
      (hloads : Loads host task.optionsFile s (.error cause) s₁) :
      Ends task host now s ⟨.error cause, [], []⟩
  /-- There is no linter. -/
  | uncreated {options : Options} {cause : LinterError} {s₁ s₂ : σ} (hsources : task.sources ≠ [])
      (hloads : Loads host task.optionsFile s (.ok options) s₁)
      (hcreate : host.create s₁ = (.error cause, s₂)) :
      Ends task host now s ⟨.error (.createLinter cause), [], []⟩
  /-- All files before a place are read and linted, and the one at that place is not. -/
  | refused {options : Options} {k : Nat} {path : π} {checked : List (Checked π)}
      {cause : Failure π} {s₂ s₃ : σ} (hbegun : Begun task host s options s₂)
      (hlinted : Linted host options.lintOptions (task.sources.take k) s₂ checked s₃)
      (hpath : task.sources[k]? = some path)
      (hrefused : Refused host options.lintOptions path s₃ cause) :
      Ends task host now s ⟨.error cause, task.logFor options checked, []⟩
  /-- All files are linted, and no report is wanted. -/
  | unreported {options : Options} {checked : List (Checked π)} {s₂ s₃ : σ}
      (hbegun : Begun task host s options s₂)
      (hlinted : Linted host options.lintOptions task.sources s₂ checked s₃)
      (htarget : task.target options = none) :
      Ends task host now s
        ⟨.ok (task.outcomeFor options checked), task.logFor options checked, []⟩
  /-- All files are linted, and the report is written. -/
  | reported {options : Options} {target : Report.Target π} {checked : List (Checked π)}
      {s₂ s₃ s₄ : σ} (hbegun : Begun task host s options s₂)
      (hlinted : Linted host options.lintOptions task.sources s₂ checked s₃)
      (htarget : task.target options = some target)
      (hwrite : host.write s₃ target.destination
        (target.render (findingsOf options.markers checked) now) = (.ok (), s₄)) :
      Ends task host now s
        ⟨.ok (task.outcomeFor options checked), task.logFor options checked,
          [(target.destination, target.render (findingsOf options.markers checked) now)]⟩
  /-- All files are linted, and the report cannot be written. -/
  | unwritten {options : Options} {target : Report.Target π} {checked : List (Checked π)}
      {cause : OsError} {s₂ s₃ s₄ : σ} (hbegun : Begun task host s options s₂)
      (hlinted : Linted host options.lintOptions task.sources s₂ checked s₃)
      (htarget : task.target options = some target)
      (hwrite : host.write s₃ target.destination
        (target.render (findingsOf options.markers checked) now) = (.error cause, s₄)) :
      Ends task host now s
        ⟨.error (.reportWrite target.destination cause (task.outcomeFor options checked)),
          task.logFor options checked,
          [(target.destination, target.render (findingsOf options.markers checked) now)]⟩

variable {task : Task π} {host : Host σ π} {now : Timestamp} {options : Options} {s s₁ s₂ s₃ : σ}
  {checked : List (Checked π)}

/-- What shows of a run that comes to its report. -/
theorem shown_of_checked (h : Begun task host s options s₂)
    (hlinted : Linted host options.lintOptions task.sources s₂ checked s₃) :
    let written := writeReport host (task.target options) now
      (findingsOf options.markers checked) (task.outcomeFor options checked) s₃
    (task.execute host now s).shown =
      ⟨written.result, task.logFor options checked, reportsOf written.events⟩ := by
  obtain ⟨asked, hasked, hexecute⟩ := execute_of_checked h hlinted now
  obtain ⟨hlog, -⟩ := writeReport_outcome host (task.target options) now
    (findingsOf options.markers checked) (task.outcomeFor options checked) s₃
  have hentries := logOf_events options (.ofRun (task.asWarnings options)) checked
  have hreports := reportsOf_events options (.ofRun (task.asWarnings options)) checked
  simp only [hexecute, Done.shown, logOf_append, reportsOf_append, hasked.logOf_eq,
    hasked.reportsOf_eq, hlog, hentries, hreports]
  simp [logFor, logOf, reportsOf, Event.entry?, Event.report?]

theorem logOf_execute_of_checked (h : Begun task host s options s₂)
    (hlinted : Linted host options.lintOptions task.sources s₂ checked s₃) :
    logOf (task.execute host now s).events = task.logFor options checked :=
  congrArg Shown.log (shown_of_checked h hlinted)

/-- A run that has linted all of its files writes no report but the last. -/
theorem reportsOf_execute_of_checked (h : Begun task host s options s₂)
    (hlinted : Linted host options.lintOptions task.sources s₂ checked s₃) :
    reportsOf (task.execute host now s).events =
      reportsOf (writeReport host (task.target options) now (findingsOf options.markers checked)
        (task.outcomeFor options checked) s₃).events :=
  congrArg Shown.reports (shown_of_checked h hlinted)

/-- Every rule gives the end that the run has. -/
theorem Ends.eq_shown {shown : Shown (Except (Failure π) Outcome) π}
    (h : Ends task host now s shown) : shown = (task.execute host now s).shown := by
  cases h with
  | idle hsources =>
    rw [execute, if_pos (by simp [hsources])]
    rfl
  | unloaded hsources hloads =>
    obtain ⟨asked, hasked, hexecute⟩ := execute_of_loads hsources hloads now
    simp only [hexecute, Done.andThen, Done.shown, hasked.logOf_eq, hasked.reportsOf_eq]
  | @uncreated _ cause _ _ hsources hloads hcreate =>
    obtain ⟨asked, hasked, hexecute⟩ := execute_of_loads hsources hloads now
    have htried : Silent ([.created (.error cause)] : List (Event π)) :=
      silent_single.2 ⟨rfl, rfl⟩
    simp only [hexecute, Done.andThen, lintAll, hcreate, Done.shown, logOf_append,
      reportsOf_append, hasked.logOf_eq, hasked.reportsOf_eq, htried.logOf_eq,
      htried.reportsOf_eq, List.append_nil]
  | @refused options _ _ _ _ _ _ hbegun hlinted hpath hrefused =>
    obtain ⟨asked, hasked, hexecute⟩ := execute_of_begun hbegun now
    obtain ⟨tried, s', htried, hloop⟩ := lintFiles_of_refused hlinted hpath hrefused
      (.ofRun (task.asWarnings options)) .empty
    have hreleased : Silent ([.released] : List (Event π)) := silent_single.2 ⟨rfl, rfl⟩
    simp only [hexecute, hloop, Done.andThen, Done.shown, logOf_append, reportsOf_append,
      hasked.logOf_eq, hasked.reportsOf_eq, htried.logOf_eq, htried.reportsOf_eq,
      hreleased.logOf_eq, hreleased.reportsOf_eq, logOf_events, reportsOf_events,
      List.append_nil, List.nil_append, logFor]
  | unreported hbegun hlinted htarget =>
    rw [shown_of_checked hbegun hlinted, htarget]
    rfl
  | reported hbegun hlinted htarget hwrite =>
    rw [shown_of_checked hbegun hlinted, htarget]
    simp [writeReport, hwrite, reportsOf, Event.report?]
  | unwritten hbegun hlinted htarget hwrite =>
    rw [shown_of_checked hbegun hlinted, htarget]
    simp [writeReport, hwrite, reportsOf, Event.report?]

theorem Ends.result_eq {shown : Shown (Except (Failure π) Outcome) π}
    (h : Ends task host now s shown) :
    (task.execute host now s).result = shown.result := (congrArg Shown.result h.eq_shown).symm

theorem Ends.log_eq {shown : Shown (Except (Failure π) Outcome) π}
    (h : Ends task host now s shown) :
    logOf (task.execute host now s).events = shown.log := (congrArg Shown.log h.eq_shown).symm

/-- Whatever the collaborators do, one of the rules fits. -/
theorem exists_ends (task : Task π) (host : Host σ π) (now : Timestamp) (s : σ) :
    ∃ shown, Ends task host now s shown := by
  by_cases hsources : task.sources = []
  · exact ⟨_, .idle hsources⟩
  obtain ⟨cause | options, s₁, hloads⟩ := exists_loads host task.optionsFile s
  · exact ⟨_, .unloaded hsources hloads⟩
  rcases hcreate : host.create s₁ with ⟨cause | done, s₂⟩
  · exact ⟨_, .uncreated hsources hloads hcreate⟩
  have hbegun : Begun task host s options s₂ := ⟨hsources, s₁, hloads, hcreate⟩
  rcases linted_or_refused host options.lintOptions task.sources s₂ with
    ⟨checked, s₃, hlinted⟩ | ⟨k, path, checked, s₃, cause, hlinted, hpath, hrefused⟩
  · rcases htarget : task.target options with - | target
    · exact ⟨_, .unreported hbegun hlinted htarget⟩
    rcases hwrite : host.write s₃ target.destination
      (target.render (findingsOf options.markers checked) now) with ⟨cause | done, s₄⟩
    · exact ⟨_, .unwritten hbegun hlinted htarget hwrite⟩
    · exact ⟨_, .reported hbegun hlinted htarget hwrite⟩
  · exact ⟨_, .refused hbegun hlinted hpath hrefused⟩

/-- The same task without a report. -/
def unreported (task : Task π) : Task π :=
  { task with reportFile := some (PathLike.ofPath ⟨""⟩) }

@[simp] theorem target_unreported (task : Task π) (options : Options) :
    task.unreported.target options = none := by
  simp [target, unreported, Report.Target.ofDestination, Report.Format.ofDestination,
    PathLike.isEmpty_ofPath]

/-- A run ends as its first failing step says. -/
theorem execute_ends (task : Task π) (host : Host σ π) (now : Timestamp) (s : σ) :
    (∀ shown, Ends task host now s shown ↔ shown = (task.execute host now s).shown) ∧
      (task.sources = [] → (task.execute host now s).events = []) ∧
      ∀ path cause outcome, (task.execute host now s).result =
          .error (.reportWrite path cause outcome) →
        (task.unreported.execute host now s).result = .ok outcome := by
  refine ⟨fun shown => ⟨Ends.eq_shown, ?_⟩, ?_, ?_⟩
  · rintro rfl
    obtain ⟨shown, h⟩ := exists_ends task host now s
    rwa [← h.eq_shown]
  · intro hsources
    rw [execute, if_pos (by simp [hsources])]
  · intro path cause outcome hresult
    obtain ⟨shown, hends⟩ := exists_ends task host now s
    have hshown : shown.result = .error (.reportWrite path cause outcome) := by
      rw [hends.eq_shown, ← hresult]
      rfl
    cases hends with
    | unloaded _ hloads =>
      cases hshown
      generalize task.optionsFile = file at hloads
      cases hloads
    | refused _ _ _ hrefused =>
      cases hshown
      cases hrefused
    | idle | uncreated | unreported | reported => cases hshown
    | unwritten hbegun hlinted _ _ =>
      cases hshown
      have hquiet : Begun task.unreported host s _ _ := ⟨hbegun.sources, hbegun.ready⟩
      have hends : Ends task.unreported host now s _ :=
        .unreported hquiet hlinted (target_unreported ..)
      exact (congrArg Shown.result hends.eq_shown).symm

end LintRun.Task
