import LintRun.Proofs.Task.Linted

/-! What may come next in a run, as a machine that reads its trace: the options file, then the
    linter, then for each file a read, a lint and the log entries of its answer, then the release,
    then the report.

    Every step of it keeps a balance, one linter held for each one created, and pays for what may
    happen once out of a budget. What a step keeps, a run keeps: `Run.balance`, `Run.countP_le`,
    `Run.left_eq` and `Run.paths_le`. -/

namespace LintRun.Task

variable {π : Type}

/-- Where the report of a task is to be written, if anywhere. -/
def wanted [PathLike π] (task : Task π) (options : Options) : Option π :=
  (task.reportFile.or (options.output.reportFile.map PathLike.ofPath)).filter
    fun path => !PathLike.isEmpty path

/-- What a run has come to. -/
inductive Phase (π : Type := Path) where
  /-- The options file is to be looked for. -/
  | declared (path : π)
  /-- The options file is there and is to be read. -/
  | found (path : π)
  /-- The options are valid, and the linter is to be created. -/
  | ready (options : Options)
  /-- The linter is there. Some entries are due to be logged, then some files are left. -/
  | holding (options : Options) (due : List LogEntry) (rest : List π)
  /-- A file has been read and is to be linted. -/
  | asking (options : Options) (path : π) (text : String) (rest : List π)
  /-- A call has failed, and the linter is to be released. -/
  | failing
  /-- The linter has been released after all files, and the report is to be written. -/
  | reporting (options : Options)
  /-- Nothing may follow. -/
  | over

namespace Phase

/-- The phase in which a task begins. -/
def start (task : Task π) : Phase π :=
  if task.sources = [] then .over
  else match task.optionsFile with
    | none => .ready {}
    | some path => .declared path

/-- The phases in which a run may end. The report must have been written if one is wanted. -/
def Final [PathLike π] (task : Task π) : Phase π → Prop
  | .over => True
  | .reporting options => task.wanted options = none
  | _ => False

/-- The number of linters that are held. -/
def held : Phase π → Nat
  | .holding .. | .asking .. | .failing => 1
  | _ => 0

/-- The number of linters that may still be created. -/
def unborn : Phase π → Nat
  | .declared _ | .found _ | .ready _ => 1
  | _ => 0

/-- The number of reports that may still be written. -/
def unwritten : Phase π → Nat
  | .failing | .over => 0
  | _ => 1

/-- The number of files that are still to be linted. -/
def left (task : Task π) : Phase π → Nat
  | .declared _ | .found _ | .ready _ => task.sources.length
  | .holding _ _ rest => rest.length
  | .asking _ _ _ rest => rest.length + 1
  | _ => 0

/-- The files that are still to be read with the linter that has been created. -/
def ahead : Phase π → List π
  | .holding _ _ rest | .asking _ _ _ rest => rest
  | _ => []

/-- Whether nothing has failed so far. -/
def Unbroken : Phase π → Prop
  | .failing | .over => False
  | _ => True

/-- Whether the linter has been created, or nothing may follow. -/
def Past : Phase π → Prop
  | .declared _ | .found _ | .ready _ => False
  | _ => True

/-- What a call or another event leads to. -/
inductive Step [PathLike π] (task : Task π) : Phase π → Event π → Phase π → Prop where
  | found {path : π} : Step task (.declared path) (.looked path true) (.found path)
  | missing {path : π} : Step task (.declared path) (.looked path false) .over
  | unreadable {path : π} {cause : OsError} :
      Step task (.found path) (.read path (.error cause)) .over
  | unusable {path : π} {text : String} {cause : ConfigError π}
      (hparse : Options.parse path text = .error cause) :
      Step task (.found path) (.read path (.ok text)) .over
  | loaded {path : π} {text : String} {options : Options}
      (hparse : Options.parse path text = .ok options) :
      Step task (.found path) (.read path (.ok text)) (.ready options)
  | uncreated {options : Options} {cause : LinterError} :
      Step task (.ready options) (.created (.error cause)) .over
  | created {options : Options} :
      Step task (.ready options) (.created (.ok ())) (.holding options [] task.sources)
  | unread {options : Options} {path : π} {rest : List π} {cause : OsError} :
      Step task (.holding options [] (path :: rest)) (.read path (.error cause)) .failing
  | read {options : Options} {path : π} {rest : List π} {text : String} :
      Step task (.holding options [] (path :: rest)) (.read path (.ok text))
        (.asking options path text rest)
  | unlinted {options : Options} {path : π} {rest : List π} {text : String}
      {cause : LinterError} :
      Step task (.asking options path text rest)
        (.linted text options.lintOptions (SourceKind.isScript (SourceKind.ofPath path))
          (.error cause)) .failing
  | linted {options : Options} {path : π} {rest : List π} {text : String}
      {answer : List Violation} :
      Step task (.asking options path text rest)
        (.linted text options.lintOptions (SourceKind.isScript (SourceKind.ofPath path))
          (.ok answer))
        (.holding options ((⟨path, text, answer⟩ : Checked π).entries options.markers) rest)
  | logged {options : Options} {entry : LogEntry} {due : List LogEntry} {rest : List π} :
      Step task (.holding options (entry :: due) rest)
        (.logged (.ofRun (task.warnings || options.output.warnings)) entry)
        (.holding options due rest)
  | released {options : Options} :
      Step task (.holding options [] []) .released (.reporting options)
  | abandoned : Step task .failing .released .over
  | wrote {options : Options} {path : π} {report : String} {answer : Except OsError Unit}
      (hwanted : task.wanted options = some path) :
      Step task (.reporting options) (.wrote path report answer) .over

/-- A trace leads from one phase to another. -/
inductive Run [PathLike π] (task : Task π) : Phase π → List (Event π) → Phase π → Prop where
  | nil {p : Phase π} : Run task p [] p
  | cons {p q r : Phase π} {event : Event π} {rest : List (Event π)} (hstep : Step task p event q)
      (hrest : Run task q rest r) : Run task p (event :: rest) r

end Phase

namespace Event

/-- Whether an event creates a linter. -/
def creates : Event π → Bool
  | .created (.ok _) => true
  | _ => false

/-- Whether an event releases a linter. -/
def releases : Event π → Bool
  | .released => true
  | _ => false

/-- Whether an event tries to write a report. -/
def writes : Event π → Bool
  | .wrote .. => true
  | _ => false

/-- Whether an event is an answer of the linter. -/
def answers : Event π → Bool
  | .linted _ _ _ (.ok _) => true
  | _ => false

/-- The file that an event reads, or tries to read. -/
def path? : Event π → Option π
  | .read path _ => some path
  | _ => none

/-- Whether an event is a call that fails. -/
def fails : Event π → Bool
  | .looked _ found => !found
  | .read _ (.error _) | .created (.error _) | .linted _ _ _ (.error _) | .wrote _ _ (.error _) =>
    true
  | _ => false

end Event

/-- A trace that leads from a phase to an end. -/
def Phase.Completes [PathLike π] (task : Task π) (p : Phase π) (events : List (Event π)) : Prop :=
  ∃ q, Phase.Run task p events q ∧ q.Final task

/-- A trace that leads from the beginning of a task to an end. -/
def Accepted [PathLike π] (task : Task π) (events : List (Event π)) : Prop :=
  Phase.Completes task (.start task) events

namespace Phase

variable {task : Task π} {options : Options} {p q r : Phase π} {event : Event π}
  {events first rest : List (Event π)}

/-- A task begins at its end if it has nothing to lint, and before its linter otherwise. -/
theorem start_cases (task : Task π) : (task.sources = [] ∧ start task = .over) ∨
    (task.optionsFile = none ∧ start task = .ready {}) ∨
    ∃ path, task.optionsFile = some path ∧ start task = .declared path := by
  rw [start]
  split
  · next hsources => exact Or.inl ⟨hsources, rfl⟩
  · rcases task.optionsFile with - | path
    · exact Or.inr (Or.inl ⟨rfl, rfl⟩)
    · exact Or.inr (Or.inr ⟨path, rfl, rfl⟩)

/-- Phases with a linter, or behind one, are not those in which a task begins. -/
theorem start_ne (hp : p.Past) (hover : p ≠ .over) : start task ≠ p := by
  rintro rfl
  rcases start_cases task with ⟨-, h⟩ | ⟨-, h⟩ | ⟨path, -, h⟩ <;> rw [h] at hp hover
  · exact hover rfl
  · exact hp
  · exact hp

theorem held_start (task : Task π) : (start task).held = 0 := by
  rcases start_cases task with ⟨-, h⟩ | ⟨-, h⟩ | ⟨path, -, h⟩ <;> simp [h, held]

theorem left_start (h : (start task).Unbroken) : (start task).left task = task.sources.length := by
  rcases start_cases task with ⟨-, hstart⟩ | ⟨-, hstart⟩ | ⟨path, -, hstart⟩
  · rw [hstart] at h
    exact h.elim
  · rw [hstart, left]
  · rw [hstart, left]

theorem unborn_le_one (p : Phase π) : p.unborn ≤ 1 := by
  cases p <;> simp [unborn]

theorem unwritten_le_one (p : Phase π) : p.unwritten ≤ 1 := by
  cases p <;> simp [unwritten]

variable [PathLike π]

theorem Final.held_eq (h : p.Final task) : p.held = 0 := by
  cases p <;> first | rfl | exact h.elim

/-! ### What the machine keeps -/

theorem Step.balance (h : Step task p event q) :
    [event].countP Event.releases + q.held = p.held + [event].countP Event.creates := by
  cases h <;> rfl

theorem Step.unborn_le (h : Step task p event q) :
    [event].countP Event.creates + q.unborn ≤ p.unborn := by
  cases h <;> simp [Event.creates, unborn]

theorem Step.unwritten_le (h : Step task p event q) :
    [event].countP Event.writes + q.unwritten ≤ p.unwritten := by
  cases h <;> simp [Event.writes, unwritten]

/-- Until something fails, each answer is for one file of those that are left. -/
theorem Step.left_eq (h : Step task p event q) (hq : q.Unbroken) :
    p.Unbroken ∧ [event].countP Event.answers + q.left task = p.left task := by
  cases h <;> simp [Event.answers, left, Unbroken, Nat.add_comm] at hq ⊢

/-- With the linter created, files are read in their order. -/
theorem Step.ahead_le (h : Step task p event q) (hp : p.Past) :
    q.Past ∧ [event].filterMap Event.path? ++ q.ahead <+: p.ahead := by
  cases h <;> simp [List.filterMap_cons, Event.path?, ahead, Past] at hp ⊢

/-- Entries are due after an answer of the linter, and after one of them has been logged. -/
theorem Step.of_due {entry : LogEntry} {due : List LogEntry} {left : List π}
    (h : Step task p event (.holding options (entry :: due) left)) :
    event.answers ∨ event.entry?.isSome := by
  generalize hq : holding options (entry :: due) left = q at h
  cases h with
  | linted => exact Or.inl rfl
  | logged => exact Or.inr rfl
  | created => simp at hq
  | _ => cases hq

/-- A failed call leads to the release of the linter, or to the end if there is none. -/
theorem Step.of_fails (h : Step task p event q) (hfails : event.fails) :
    q = .failing ∨ q = .over := by
  cases h <;> simp [Event.fails] at hfails ⊢

namespace Run

theorem append (hfirst : Run task p first q) (hrest : Run task q rest r) :
    Run task p (first ++ rest) r := by
  induction hfirst with
  | nil => exact hrest
  | cons hstep _ ih => exact .cons hstep (ih hrest)

theorem single (h : Step task p event q) : Run task p [event] q := .cons h .nil

/-- A run can be taken apart wherever its trace can. -/
theorem exists_append (h : Run task p (first ++ rest) r) :
    ∃ q, Run task p first q ∧ Run task q rest r := by
  induction first generalizing p with
  | nil => exact ⟨p, .nil, h⟩
  | cons event first ih =>
    rcases h with - | ⟨hstep, hrest⟩
    obtain ⟨q, hfirst, hrest⟩ := ih hrest
    exact ⟨q, .cons hstep hfirst, hrest⟩

theorem exists_step (h : Run task p (first ++ event :: rest) r) :
    ∃ p' q, Run task p first p' ∧ Step task p' event q ∧ Run task q rest r := by
  obtain ⟨p', hfirst, hrest⟩ := exists_append h
  rcases hrest with - | ⟨hstep, hrest⟩
  exact ⟨p', _, hfirst, hstep, hrest⟩

/-- Linters that are released and held are those that were there or are created. -/
theorem balance (h : Run task p events q) :
    events.countP Event.releases + q.held = p.held + events.countP Event.creates := by
  induction h with
  | nil => simp
  | @cons p q r event rest hstep _ ih =>
    have hevent := hstep.balance
    rw [List.countP_cons, List.countP_cons]
    simp only [List.countP_singleton] at hevent
    omega

/-- What every step pays for out of a budget does not happen more often than the budget allows. -/
theorem countP_le {counted : Event π → Bool} {budget : Phase π → Nat}
    (hbudget : ∀ {p q : Phase π} {event : Event π}, Step task p event q →
      [event].countP counted + budget q ≤ budget p)
    (h : Run task p events q) : events.countP counted + budget q ≤ budget p := by
  induction h with
  | nil => simp
  | @cons p q r event rest hstep _ ih =>
    have hevent := hbudget hstep
    rw [List.countP_cons]
    simp only [List.countP_singleton] at hevent
    omega

theorem left_eq (h : Run task p events q) (hq : q.Unbroken) :
    p.Unbroken ∧ events.countP Event.answers + q.left task = p.left task := by
  induction h with
  | nil => exact ⟨hq, by simp⟩
  | @cons p q r event rest hstep _ ih =>
    obtain ⟨hunbroken, hrest⟩ := ih hq
    obtain ⟨hp, hevent⟩ := hstep.left_eq hunbroken
    refine ⟨hp, ?_⟩
    rw [List.countP_cons]
    simp only [List.countP_singleton] at hevent
    omega

theorem paths_le (h : Run task p events q) (hp : p.Past) :
    q.Past ∧ events.filterMap Event.path? ++ q.ahead <+: p.ahead := by
  induction h with
  | nil => exact ⟨hp, List.prefix_rfl⟩
  | @cons p q r event rest hstep _ ih =>
    obtain ⟨hq, hevent⟩ := hstep.ahead_le hp
    obtain ⟨hr, hrest⟩ := ih hq
    rw [← List.singleton_append, List.filterMap_append, List.append_assoc]
    exact ⟨hr, ((List.prefix_append_right_inj _).2 hrest).trans hevent⟩

/-- There is no way back to the creation of a linter. -/
theorem not_ready (h : Run task p events (.ready options)) : ¬ p.Past :=
  fun hp => (h.paths_le hp).1

theorem eq_nil_of_ready {defaults : Options}
    (h : Run task (.ready defaults) events (.ready options)) : events = [] := by
  rcases h with - | ⟨hstep, hrest⟩
  · rfl
  · cases hstep <;> exact absurd trivial hrest.not_ready

/-- Options come from a file that is there, can be read, and holds them. -/
theorem loaded_of_declared {path : π}
    (h : Run task (.declared path) events (.ready options)) :
    ∃ text, events = [.looked path true, .read path (.ok text)] ∧
      Options.parse path text = .ok options := by
  rcases h with - | ⟨hlooked, hrest⟩
  cases hlooked with
  | missing => exact absurd trivial hrest.not_ready
  | found =>
    rcases hrest with - | ⟨hread, hrest⟩
    cases hread with
    | unreadable | unusable => exact absurd trivial hrest.not_ready
    | @loaded _ text _ hparse =>
      obtain rfl := hrest.eq_nil_of_ready
      rcases hrest with - | -
      exact ⟨text, rfl, hparse⟩

theorem eq_nil_of_over (h : Run task .over events q) : events = [] := by
  rcases h with - | ⟨hstep, -⟩
  · rfl
  · cases hstep

theorem eq_released_of_failing (h : Run task .failing events q) (hq : q.Final task) :
    events = [.released] := by
  rcases h with - | ⟨hstep, hrest⟩
  · exact hq.elim
  · cases hstep
    rw [hrest.eq_nil_of_over]

/-- A run that comes to another phase has a last step. -/
theorem exists_last (h : Run task p events q) (hpq : p ≠ q) :
    ∃ front event p', events = front ++ [event] ∧ Step task p' event q := by
  rcases List.eq_nil_or_concat events with rfl | ⟨front, event, rfl⟩
  · rcases h with - | -
    exact absurd rfl hpq
  · rw [List.concat_eq_append] at h ⊢
    obtain ⟨p', q', -, hstep, hrest⟩ := exists_step h
    rcases hrest with - | -
    exact ⟨front, event, p', rfl, hstep⟩

end Run

end Phase

end LintRun.Task
