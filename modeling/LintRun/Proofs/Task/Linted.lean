import LintRun.Task.Execute
import LintRun.Proofs.Findings

/-! Files that are read and linted one after the other: which calls the host answers, from state to
    state, and what comes of the answers.

    `Linted` is the bare sequence of successful calls. `lintFiles_of_linted` says that the loop over
    the files adds nothing to it: its events, its log and its findings are those of the answers. -/

namespace LintRun.Task

open PathLike (display)

variable {σ π : Type}

/-- The report that an event tries to write, and where to. -/
def Event.report? : Event π → Option (π × String)
  | .wrote path report _ => some (path, report)
  | _ => none

/-- The reports that a trace tries to write, in order. -/
def reportsOf (events : List (Event π)) : List (π × String) := events.filterMap Event.report?

@[simp] theorem reportsOf_append (first rest : List (Event π)) :
    reportsOf (first ++ rest) = reportsOf first ++ reportsOf rest := List.filterMap_append

theorem logOf_map_logged (severity : Severity) (entries : List LogEntry) :
    logOf (entries.map (.logged severity : LogEntry → Event π)) =
      entries.map fun entry => (severity, entry) := by
  rw [logOf, List.filterMap_map]
  exact congrFun List.filterMap_eq_map entries

/-- Events that neither log anything nor write a report. -/
def Silent (events : List (Event π)) : Prop :=
  ∀ event ∈ events, event.entry? = none ∧ event.report? = none

@[simp] theorem silent_append {first rest : List (Event π)} :
    Silent (first ++ rest) ↔ Silent first ∧ Silent rest := List.forall_mem_append

theorem silent_single {event : Event π} :
    Silent [event] ↔ event.entry? = none ∧ event.report? = none := List.forall_mem_singleton

theorem Silent.logOf_eq {events : List (Event π)} (h : Silent events) : logOf events = [] :=
  List.filterMap_eq_nil_iff.2 fun event he => (h event he).1

theorem Silent.reportsOf_eq {events : List (Event π)} (h : Silent events) : reportsOf events = [] :=
  List.filterMap_eq_nil_iff.2 fun event he => (h event he).2

/-- A file that was read and linted: its text, and the answer of the linter. -/
structure Checked (π : Type := Path) where
  path : π
  text : String
  answer : List Violation

namespace Checked

/-- The violations of a file that lie in no ignore section, in the order of the answer. -/
def kept (markers : Markers) (c : Checked π) : List Violation :=
  c.answer.filter fun v => !isIgnored (Section.scan markers c.text) ⟨v.line, v.column⟩

theorem surviving_eq_kept (markers : Markers) (c : Checked π) :
    surviving markers c.text c.answer = c.kept markers := by
  rw [surviving]
  split
  · next hempty => rw [Checked.kept, List.isEmpty_iff.1 hempty, List.filter_nil]
  · rfl

variable [PathLike π]

/-- The log entries of a file. -/
def entries (markers : Markers) (c : Checked π) : List LogEntry :=
  (c.kept markers).map fun v =>
    { file := display c.path, line := v.line, column := v.column, message := v.message }

/-- What is noted of a file in the findings. -/
def notes (markers : Markers) (c : Checked π) : List Note :=
  .mention (display c.path) :: (c.kept markers).map (.add (display c.path))

/-- What happens while a file is read and linted. -/
def events (options : Options) (severity : Severity) (c : Checked π) : List (Event π) :=
  .read c.path (.ok c.text) ::
    .linted c.text options.lintOptions (SourceKind.isScript (SourceKind.ofPath c.path))
      (.ok c.answer) ::
    (c.entries options.markers).map (.logged severity)

end Checked

variable [PathLike π]

/-- A host reads and lints files one after the other, and every call succeeds. -/
inductive Linted (host : Host σ π) (options : LintOptions) :
    List π → σ → List (Checked π) → σ → Prop where
  | nil {s : σ} : Linted host options [] s [] s
  | cons {path : π} {rest : List π} {text : String} {answer : List Violation}
      {checked : List (Checked π)} {s s₁ s₂ s₃ : σ}
      (hread : host.read s path = (.ok text, s₁))
      (hlint : host.lint s₁ text options (SourceKind.isScript (SourceKind.ofPath path)) =
        (.ok answer, s₂))
      (hrest : Linted host options rest s₂ checked s₃) :
      Linted host options (path :: rest) s (⟨path, text, answer⟩ :: checked) s₃

/-- A host fails to read or to lint a file. -/
inductive Refused (host : Host σ π) (options : LintOptions) (path : π) (s : σ) :
    Failure π → Prop where
  | read {cause : OsError} {s₁ : σ} (hread : host.read s path = (.error cause, s₁)) :
      Refused host options path s (.read path cause)
  | lint {text : String} {cause : LinterError} {s₁ s₂ : σ}
      (hread : host.read s path = (.ok text, s₁))
      (hlint : host.lint s₁ text options (SourceKind.isScript (SourceKind.ofPath path)) =
        (.error cause, s₂)) :
      Refused host options path s (.lint path cause)

/-- What is found in some files. -/
def findingsOf (markers : Markers) (checked : List (Checked π)) : Findings :=
  .ofHistory (checked.flatMap (·.notes markers))

/-- The log that some files make. -/
def logged (markers : Markers) (severity : Severity) (checked : List (Checked π)) : Log :=
  checked.flatMap fun c => (c.entries markers).map fun entry => (severity, entry)

/-- Whatever a host answers, it gets through all files or is stopped at one of them. -/
theorem linted_or_refused (host : Host σ π) (options : LintOptions) (files : List π) (s : σ) :
    (∃ checked s', Linted host options files s checked s') ∨
      ∃ k path checked s' cause, Linted host options (files.take k) s checked s' ∧
        files[k]? = some path ∧ Refused host options path s' cause := by
  induction files generalizing s with
  | nil => exact Or.inl ⟨[], s, .nil⟩
  | cons path rest ih =>
    rcases hread : host.read s path with ⟨cause | text, s₁⟩
    · exact Or.inr ⟨0, path, [], s, _, .nil, rfl, .read hread⟩
    rcases hlint : host.lint s₁ text options (SourceKind.isScript (SourceKind.ofPath path)) with
      ⟨cause | answer, s₂⟩
    · exact Or.inr ⟨0, path, [], s, _, .nil, rfl, .lint hread hlint⟩
    rcases ih s₂ with ⟨checked, s', hrest⟩ | ⟨k, stop, checked, s', cause, hrest, hstop, hrefused⟩
    · exact Or.inl ⟨_, s', .cons hread hlint hrest⟩
    · exact Or.inr ⟨k + 1, stop, _, s', cause, .cons hread hlint hrest, hstop, hrefused⟩

theorem Linted.map_path {host : Host σ π} {options : LintOptions} {files : List π}
    {checked : List (Checked π)} {s s' : σ} (h : Linted host options files s checked s') :
    checked.map (·.path) = files := by
  induction h with
  | nil => rfl
  | cons _ _ _ ih => rw [List.map_cons, ih]

section Loop

variable {host : Host σ π} {options : Options} {severity : Severity} {files : List π}
  {checked : List (Checked π)} {s s' : σ}

theorem note_kept (markers : Markers) (c : Checked π) (f : Findings) :
    note c.path (c.kept markers) f = (c.notes markers).foldl Findings.apply f := by
  rw [note, Checked.notes, List.foldl_cons, List.foldl_map]
  rfl

/-- One file that the host reads and lints. -/
theorem lintFile_of_linted {path : π} {text : String} {answer : List Violation} {s₁ s₂ : σ}
    (hread : host.read s path = (.ok text, s₁))
    (hlint : host.lint s₁ text options.lintOptions (SourceKind.isScript (SourceKind.ofPath path)) =
      (.ok answer, s₂)) (f : Findings) :
    lintFile host options severity path f s =
      ⟨.ok (((⟨path, text, answer⟩ : Checked π).notes options.markers).foldl Findings.apply f),
        (⟨path, text, answer⟩ : Checked π).events options severity, s₂⟩ := by
  have hkept := Checked.surviving_eq_kept options.markers ⟨path, text, answer⟩
  have hnote := note_kept options.markers ⟨path, text, answer⟩ f
  simp only at hkept hnote
  simp only [lintFile, hread, hlint, hkept, hnote, Checked.events, Checked.entries, List.map_map]
  rfl

/-- The loop over files that are all read and linted. -/
theorem lintFiles_of_linted (h : Linted host options.lintOptions files s checked s')
    (f : Findings) :
    lintFiles host options severity files f s =
      ⟨.ok ((checked.flatMap (·.notes options.markers)).foldl Findings.apply f),
        checked.flatMap (·.events options severity), s'⟩ := by
  induction h generalizing f with
  | nil => rfl
  | cons hread hlint _ ih =>
    rw [lintFiles, lintFile_of_linted hread hlint, Done.andThen]
    simp only [ih, List.flatMap_cons, List.foldl_append]

/-- A loop over files goes on with the files behind them if it comes through. -/
theorem lintFiles_append (host : Host σ π) (options : Options) (severity : Severity)
    (first rest : List π) (f : Findings) (s : σ) :
    lintFiles host options severity (first ++ rest) f s =
      (lintFiles host options severity first f s).andThen
        (lintFiles host options severity rest) := by
  induction first generalizing f s with
  | nil => rfl
  | cons path first ih =>
    rw [List.cons_append, lintFiles, lintFiles, Done.andThen_assoc]
    simp only [ih]

/-- The loop over files stops at one that the host refuses. -/
theorem lintFiles_of_refused {k : Nat} {path : π} {cause : Failure π}
    (hlinted : Linted host options.lintOptions (files.take k) s checked s')
    (hpath : files[k]? = some path) (hrefused : Refused host options.lintOptions path s' cause)
    (severity : Severity) (f : Findings) :
    ∃ asked s'', Silent asked ∧ lintFiles host options severity files f s =
      ⟨.error cause, checked.flatMap (·.events options severity) ++ asked, s''⟩ := by
  have hfiles : files = files.take k ++ path :: files.drop (k + 1) := by
    obtain ⟨hk, rfl⟩ := List.getElem?_eq_some_iff.1 hpath
    rw [← List.drop_eq_getElem_cons hk, List.take_append_drop]
  rw [hfiles, lintFiles_append, lintFiles_of_linted hlinted, Done.andThen]
  cases hrefused with
  | @read cause s₁ hread =>
    refine ⟨[.read path (.error cause)], s₁, silent_single.2 ⟨rfl, rfl⟩, ?_⟩
    simp [lintFiles, lintFile, hread, Done.andThen]
  | @lint text cause s₁ s₂ hread hlint =>
    refine ⟨[.read path (.ok text), .linted text options.lintOptions
      (SourceKind.isScript (SourceKind.ofPath path)) (.error cause)], s₂,
      by simp [Silent, Event.entry?, Event.report?], ?_⟩
    simp [lintFiles, lintFile, hread, hlint, Done.andThen]

end Loop

section Trace

variable (options : Options) (severity : Severity) (checked : List (Checked π))

/-- The events of files log their entries. -/
theorem logOf_events :
    logOf (checked.flatMap (·.events options severity)) =
      logged options.markers severity checked := by
  induction checked with
  | nil => rfl
  | cons c checked ih =>
    rw [List.flatMap_cons, logOf_append, ih]
    exact congrArg (· ++ _) (logOf_map_logged severity (c.entries options.markers))

theorem reportsOf_events : reportsOf (checked.flatMap (·.events options severity)) = [] := by
  refine List.filterMap_eq_nil_iff.2 fun event hevent => ?_
  obtain ⟨c, -, hc⟩ := List.mem_flatMap.1 hevent
  simp only [Checked.events, List.mem_cons, List.mem_map] at hc
  obtain rfl | rfl | ⟨entry, -, rfl⟩ := hc <;> rfl

end Trace

end LintRun.Task
