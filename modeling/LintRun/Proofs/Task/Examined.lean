import LintRun.Proofs.Task.Ends
import LintRun.Proofs.Task.Protocol

/-! What a run does before its report, and that the report has no say in it.

    `examine` is a run up to the release of its linter. It reads neither the destination of a report
    nor the answer of a write, so `execute_side_channel` may change both and leave the trace, the log
    and the outcome as they are. -/

namespace LintRun.Task

variable {σ π : Type}

/-- The outcome that a result tells, also if it says that there is no report. -/
def outcome? : Except (Failure π) Outcome → Option Outcome
  | .ok outcome => some outcome
  | .error (.reportWrite _ _ outcome) => some outcome
  | .error _ => none

/-- A trace that is another one, or that one and then the report, which follows the release. -/
inductive Continues (shared : List (Event π)) : List (Event π) → Prop where
  | unreported : Continues shared shared
  | reported {front : List (Event π)} {path : π} {report : String} {answer : Except OsError Unit}
      (hreleased : shared = front ++ [.released]) :
      Continues shared (shared ++ [.wrote path report answer])

theorem Continues.logOf_eq {shared events : List (Event π)} (h : Continues shared events) :
    logOf events = logOf shared := by
  cases h with
  | unreported => rfl
  | reported => rw [logOf_append]; exact List.append_nil _

/-- What a report adds to a run that is otherwise done. -/
theorem writeReport_adds (host : Host σ π) (target : Option (Report.Target π)) (now : Timestamp)
    (f : Findings) (outcome : Outcome) (s : σ) :
    let done := writeReport host target now f outcome s
    outcome? done.result = some outcome ∧
      ∀ front, Continues (front ++ [.released]) (front ++ [.released] ++ done.events) := by
  rcases target with - | target
  · exact ⟨rfl, fun front => by simpa [writeReport] using Continues.unreported⟩
  · refine ⟨?_, fun front => .reported rfl⟩
    rcases hwrite : host.write s target.destination (target.render f now) with ⟨cause | done, s'⟩
    · simp [writeReport, hwrite, outcome?]
    · simp [writeReport, hwrite, outcome?]

theorem reportsOf_writeReport (host : Host σ π) (target : Option (Report.Target π))
    (now : Timestamp) (f : Findings) (outcome : Outcome) (s : σ) :
    reportsOf (writeReport host target now f outcome s).events =
      (target.map fun target => (target.destination, target.render f now)).toList := by
  cases target <;> rfl

variable [PathLike π] {task : Task π} {host : Host σ π} {now : Timestamp} {s : σ}

/-- A run without files does nothing. -/
theorem execute_of_idle (task : Task π) (hsources : task.sources = []) (host : Host σ π)
    (now : Timestamp) (s : σ) :
    task.execute host now s = ⟨.ok ⟨true, {}⟩, [], s⟩ := by
  rw [execute, if_pos (by simp [hsources])]

/-- A run is its examination and the report on it. -/
theorem execute_eq_examine (task : Task π) (hsources : task.sources ≠ []) (host : Host σ π)
    (now : Timestamp) (s : σ) :
    task.execute host now s = (task.examine host s).andThen fun found s =>
      writeReport host (task.target found.1) now found.2
        (outcomeOf (task.asWarnings found.1) found.2) s := by
  rw [execute, if_neg (by simpa using hsources)]

section Blind

variable (task : Task π) (host : Host σ π)
  (write : σ → π → String → Except OsError Unit × σ)

/-- Files are linted without a write. -/
theorem lintFiles_blind (options : Options) (severity : Severity) (files : List π)
    (f : Findings) (s : σ) :
    lintFiles { host with write } options severity files f s =
      lintFiles host options severity files f s := by
  induction files generalizing f s with
  | nil => rfl
  | cons path rest ih =>
    have hfile : lintFile { host with write } options severity path f s =
        lintFile host options severity path f s := rfl
    rw [lintFiles, lintFiles, hfile]
    simp only [ih]

/-- An examination depends neither on where the report goes nor on what comes of writing it. -/
theorem examine_blind (reportFile : Option π) (s : σ) :
    examine { task with reportFile } { host with write } s = task.examine host s := by
  have hload : loadOptions { host with write } task.optionsFile s =
      loadOptions host task.optionsFile s := rfl
  simp only [examine, hload, lintAll, lintFiles_blind]
  rfl

end Blind

/-- An examination that succeeds ends with the release of the linter. -/
theorem exists_released {options : Options} {f : Findings}
    (h : (task.examine host s).result = .ok (options, f)) (hsources : task.sources ≠ []) :
    ∃ front, (task.examine host s).events = front ++ [.released] := by
  have hleads : (task.examine host s).Leads task (.start task)
      (fun found => .reporting found.1) .over :=
    (leads_loadOptions task host hsources s).andThen fun options s =>
      (leads_lintAll task host options s).andThen fun _ _ => .nil
  rw [Done.Leads, h] at hleads
  have hover : (Phase.reporting options : Phase π) ≠ .over := by
    rintro ⟨⟩
  obtain ⟨front, event, p, hevents, hlast⟩ := hleads.exists_last (Phase.start_ne trivial hover)
  cases hlast
  exact ⟨front, hevents⟩

/-- A run that wants no report writes none, and does not fail for want of one. -/
theorem Ends.unwritten_of_target {shown : Shown (Except (Failure π) Outcome) π}
    (h : Ends task host now s shown) (htarget : ∀ options, task.target options = none) :
    shown.reports = [] ∧ ∀ cause, shown.result = .error cause → outcome? (.error cause) = none := by
  cases h with
  | idle => exact ⟨rfl, nofun⟩
  | unreported => exact ⟨rfl, nofun⟩
  | reported _ _ hsome => rw [htarget] at hsome; cases hsome
  | unwritten _ _ hsome => rw [htarget] at hsome; cases hsome
  | unloaded _ hloads =>
    refine ⟨rfl, ?_⟩
    rintro cause ⟨⟩
    generalize task.optionsFile = file at hloads
    cases hloads <;> rfl
  | uncreated =>
    refine ⟨rfl, ?_⟩
    rintro cause ⟨⟩
    rfl
  | refused _ _ _ hrefused =>
    refine ⟨rfl, ?_⟩
    rintro cause ⟨⟩
    cases hrefused <;> rfl

/-- An examination writes no report, and does not fail for want of one. -/
theorem examine_unwritten (hsources : task.sources ≠ []) (host : Host σ π) (s : σ) :
    reportsOf (task.examine host s).events = [] ∧
      ∀ cause, (task.examine host s).result = .error cause → outcome? (.error cause) = none := by
  -- what an examination does is what the run does that wants no report
  have hexecute := execute_eq_examine task.unreported hsources host default s
  have hblind : task.unreported.examine host s = task.examine host s :=
    examine_blind task host host.write (some (PathLike.ofPath ⟨""⟩)) s
  obtain ⟨shown, hends⟩ := exists_ends task.unreported host default s
  have hquiet := hends.unwritten_of_target (target_unreported task)
  rw [hends.eq_shown, hexecute, hblind] at hquiet
  rw [Done.shown, Done.andThen] at hquiet
  rcases hexamine : task.examine host s with ⟨cause | found, events, s'⟩
  · simpa [hexamine] using hquiet
  · simpa [hexamine, writeReport] using hquiet

/-- A run that tells an outcome had nothing to lint, or has linted all of its files. -/
theorem exists_checked_of_outcome {outcome : Outcome}
    (h : outcome? (task.execute host now s).result = some outcome) :
    (task.sources = [] ∧ outcome = ⟨true, ⟨0, 0, 0⟩⟩) ∨
      ∃ options checked s₂ s₃, Begun task host s options s₂ ∧
        Linted host options.lintOptions task.sources s₂ checked s₃ ∧
        outcome = task.outcomeFor options checked := by
  obtain ⟨shown, hends⟩ := exists_ends task host now s
  rw [hends.result_eq] at h
  cases hends with
  | idle hsources => exact Or.inl ⟨hsources, (Option.some.inj h).symm⟩
  | unloaded _ hloads =>
    generalize task.optionsFile = file at hloads
    cases hloads <;> cases h
  | uncreated => cases h
  | refused _ _ _ hrefused => cases hrefused <;> cases h
  | unreported hbegun hlinted | reported hbegun hlinted | unwritten hbegun hlinted =>
    exact Or.inr ⟨_, _, _, _, hbegun, hlinted, (Option.some.inj h).symm⟩

/-- What a run has found that has linted all of its files. -/
theorem examine_of_linted {options : Options} {checked : List (Checked π)} {s₂ s₃ : σ}
    (hbegun : Begun task host s options s₂)
    (hlinted : Linted host options.lintOptions task.sources s₂ checked s₃) :
    (task.examine host s).result = .ok (options, findingsOf options.markers checked) := by
  obtain ⟨s₁, hloads, hcreate⟩ := hbegun.ready
  obtain ⟨asked, -, hloaded⟩ := hloads.loadOptions_eq
  rw [examine, hloaded]
  simp only [Done.andThen, lintAll, hcreate, lintFiles_of_linted hlinted, Done.followedBy]
  rfl

/-- A run that has linted all of its files tells their outcome. -/
theorem outcome?_of_linted {options : Options} {checked : List (Checked π)} {s₂ s₃ : σ}
    (hbegun : Begun task host s options s₂)
    (hlinted : Linted host options.lintOptions task.sources s₂ checked s₃) (now : Timestamp) :
    outcome? (task.execute host now s).result = some (task.outcomeFor options checked) := by
  obtain ⟨asked, -, hexecute⟩ := execute_of_checked hbegun hlinted now
  rw [hexecute]
  exact (writeReport_adds host (task.target options) now (findingsOf options.markers checked)
    (task.outcomeFor options checked) s₃).1

/-- What a run reports: the findings that its outcome counts, and that its report is on if it has a
    target. -/
structure Finds (task : Task π) (host : Host σ π) (now : Timestamp) (s : σ) (options : Options)
    (f : Findings) : Prop where
  examined : (task.examine host s).result = .ok (options, f)
  told : outcome? (task.execute host now s).result = some (outcomeOf (task.asWarnings options) f)
  reported : reportsOf (task.execute host now s).events =
    ((task.target options).map fun target => (target.destination, target.render f now)).toList

/-- Two runs of a task that differ in where the report goes, in when it is made, and in what comes of
    writing it, do the same up to the release of the linter. They log the same, and both fail before
    their reports in the same way or both come to the same outcome. -/
theorem execute_side_channel (task : Task π) (host : Host σ π) (now now' : Timestamp) (s : σ)
    (reportFile : Option π) (write : σ → π → String → Except OsError Unit × σ) :
    let done := task.execute host now s
    let other := execute { task with reportFile } { host with write } now' s
    ∃ shared, reportsOf shared = [] ∧ Continues shared done.events ∧
      Continues shared other.events ∧ logOf done.events = logOf other.events ∧
      ((∃ cause, outcome? (.error cause) = none ∧
          done.result = .error cause ∧ other.result = .error cause ∧
          done.events = shared ∧ other.events = shared) ∨
        ∃ outcome, outcome? done.result = some outcome ∧ outcome? other.result = some outcome) := by
  intro done other
  by_cases hsources : task.sources = []
  · have hdone : done = _ := execute_of_idle task hsources host now s
    have hother : other = _ := execute_of_idle { task with reportFile } hsources _ now' s
    rw [hdone, hother]
    exact ⟨[], rfl, .unreported, .unreported, rfl, Or.inr ⟨_, rfl, rfl⟩⟩
  have hother : other = _ := execute_eq_examine { task with reportFile } hsources _ now' s
  rw [examine_blind] at hother
  have hdone : done = _ := execute_eq_examine task hsources host now s
  obtain ⟨hreports, hfails⟩ := examine_unwritten hsources host s
  rw [hdone, hother]
  refine ⟨(task.examine host s).events, hreports, ?_⟩
  rcases hexamine : task.examine host s with ⟨cause | ⟨options, f⟩, events, s'⟩
  · exact ⟨.unreported, .unreported, rfl,
      Or.inl ⟨cause, hfails cause (by rw [hexamine]), rfl, rfl, rfl, rfl⟩⟩
  · obtain ⟨front, hfront⟩ := exists_released (by rw [hexamine]) hsources
    obtain rfl : events = front ++ [.released] := by rw [← hfront, hexamine]
    obtain ⟨houtcome, hadds⟩ := writeReport_adds host (task.target options) now f
      (outcomeOf (task.asWarnings options) f) s'
    obtain ⟨houtcome', hadds'⟩ := writeReport_adds { host with write }
      (Task.target { task with reportFile } options) now' f
      (outcomeOf (task.asWarnings options) f) s'
    exact ⟨hadds front, hadds' front, (hadds front).logOf_eq.trans (hadds' front).logOf_eq.symm,
      Or.inr ⟨_, houtcome, houtcome'⟩⟩

end LintRun.Task
