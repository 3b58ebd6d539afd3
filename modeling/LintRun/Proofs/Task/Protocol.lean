import LintRun.Proofs.Task.Phase

/-! The order in which a run calls its collaborators. `Orderly` is the protocol as it is read off a
    trace, and holds of all traces that the machine of `Phase.Step` accepts.

    `execute_accepted` follows the run through its functions, each of which leads from one phase to
    another whatever the collaborators answer, to the end of the machine. -/

namespace LintRun.Task

variable {σ π : Type} [PathLike π]

/-- What the protocol says of a whole trace. -/
structure Orderly (task : Task π) (events : List (Event π)) : Prop where
  /-- The trace is one of the machine. -/
  accepted : Accepted task events
  /-- A linter is created at once, or after an options file has been found, read and accepted. -/
  before_created : ∀ first answer rest, events = first ++ .created answer :: rest →
    (task.optionsFile = none ∧ first = []) ∨
      ∃ path text options, task.optionsFile = some path ∧
        first = [.looked path true, .read path (.ok text)] ∧ Options.parse path text = .ok options
  /-- At most one linter is created. -/
  created_le : events.countP Event.creates ≤ 1
  /-- Each linter is released once. -/
  released_eq : events.countP Event.releases = events.countP Event.creates
  /-- At most one report is written. -/
  wrote_le : events.countP Event.writes ≤ 1
  /-- Files are read in their order, and none is left out on the way. -/
  read_in_order : ∀ first rest, events = first ++ .created (.ok ()) :: rest →
    rest.filterMap Event.path? <+: task.sources
  /-- A text is linted right after it was read. -/
  at_linted : ∀ first text options isScript answer rest,
    events = first ++ .linted text options isScript answer :: rest →
    ∃ front path, first = front ++ [.read path (.ok text)]
  /-- Entries are logged right after the answer that they come from. -/
  at_logged : ∀ first severity entry rest, events = first ++ .logged severity entry :: rest →
    ∃ front event, first = front ++ [event] ∧ (event.answers ∨ event.entry?.isSome)
  /-- Nothing follows a failed call but the release. -/
  after_failed : ∀ first event rest, events = first ++ event :: rest → event.fails →
    rest = [] ∨ rest = [.released]
  /-- Nothing follows the release but the report. -/
  after_released : ∀ first rest, events = first ++ .released :: rest →
    rest = [] ∨ ∃ path report answer, rest = [.wrote path report answer]
  /-- The report comes after the release, when all files are linted and it is wanted. -/
  at_wrote : ∀ first path report answer rest, events = first ++ .wrote path report answer :: rest →
    rest = [] ∧ (∃ front, first = front ++ [.released]) ∧
      first.countP Event.answers = task.sources.length ∧
      ∃ options, task.wanted options = some path

section Accepted

open Phase

variable {task : Task π} {events first rest : List (Event π)}

/-- What comes after an event of an accepted trace. -/
theorem Accepted.exists_step {event : Event π} (h : Accepted task (first ++ event :: rest)) :
    ∃ p q, Run task (.start task) first p ∧ Step task p event q ∧ Completes task q rest := by
  obtain ⟨last, hrun, hlast⟩ := h
  obtain ⟨p, q, hfirst, hstep, hrest⟩ := hrun.exists_step
  exact ⟨p, q, hfirst, hstep, last, hrest, hlast⟩

theorem Accepted.orderly (h : Accepted task events) : Orderly task events where
  accepted := h
  before_created := by
    rintro first answer rest rfl
    obtain ⟨p, q, hfirst, hstep, -⟩ := h.exists_step
    -- a linter is created in no other phase, and no phase leads back to this one
    obtain ⟨options, rfl⟩ : ∃ options, p = .ready options := by
      cases hstep <;> exact ⟨_, rfl⟩
    rcases start_cases task with ⟨-, hstart⟩ | ⟨hfile, hstart⟩ | ⟨path, hfile, hstart⟩ <;>
      rw [hstart] at hfirst
    · exact absurd trivial hfirst.not_ready
    · exact Or.inl ⟨hfile, hfirst.eq_nil_of_ready⟩
    · obtain ⟨text, rfl, hparse⟩ := hfirst.loaded_of_declared
      exact Or.inr ⟨path, text, options, hfile, rfl, hparse⟩
  created_le := by
    obtain ⟨q, hrun, -⟩ := h
    have hbudget := hrun.countP_le Step.unborn_le
    have hstart := unborn_le_one (start task)
    omega
  released_eq := by
    obtain ⟨q, hrun, hq⟩ := h
    have hbalance := hrun.balance
    rw [held_start, hq.held_eq] at hbalance
    omega
  wrote_le := by
    obtain ⟨q, hrun, -⟩ := h
    have hbudget := hrun.countP_le Step.unwritten_le
    have hstart := unwritten_le_one (start task)
    omega
  read_in_order := by
    rintro first rest rfl
    obtain ⟨p, q, -, hstep, last, hrest, -⟩ := h.exists_step
    cases hstep
    exact (List.prefix_append _ _).trans (hrest.paths_le trivial).2
  at_linted := by
    rintro first text options isScript answer rest rfl
    obtain ⟨p, q, hfirst, hstep, -⟩ := h.exists_step
    cases hstep <;>
    · obtain ⟨front, event, p, rfl, hlast⟩ := hfirst.exists_last (start_ne trivial nofun)
      cases hlast
      exact ⟨front, _, rfl⟩
  at_logged := by
    rintro first severity entry rest rfl
    obtain ⟨p, q, hfirst, hstep, -⟩ := h.exists_step
    cases hstep
    obtain ⟨front, event, p, rfl, hlast⟩ := hfirst.exists_last (start_ne trivial nofun)
    exact ⟨front, event, rfl, hlast.of_due⟩
  after_failed := by
    rintro first event rest rfl hfails
    obtain ⟨p, q, -, hstep, last, hrest, hlast⟩ := h.exists_step
    rcases hstep.of_fails hfails with rfl | rfl
    · exact Or.inr (hrest.eq_released_of_failing hlast)
    · exact Or.inl hrest.eq_nil_of_over
  after_released := by
    rintro first rest rfl
    obtain ⟨p, q, -, hstep, last, hrest, -⟩ := h.exists_step
    cases hstep with
    | released =>
      rcases hrest with - | ⟨hwrote, hrest⟩
      · exact Or.inl rfl
      · cases hwrote
        exact Or.inr ⟨_, _, _, by rw [hrest.eq_nil_of_over]⟩
    | abandoned => exact Or.inl hrest.eq_nil_of_over
  at_wrote := by
    rintro first path report answer rest rfl
    obtain ⟨p, q, hfirst, hstep, last, hrest, -⟩ := h.exists_step
    cases hstep with
    | @wrote options _ _ _ hwanted =>
      obtain ⟨hstart, hleft⟩ := hfirst.left_eq trivial
      obtain ⟨front, event, p, rfl, hlast⟩ := hfirst.exists_last (start_ne trivial nofun)
      rw [left_start hstart] at hleft
      cases hlast
      exact ⟨hrest.eq_nil_of_over, ⟨front, rfl⟩, hleft, options, hwanted⟩

end Accepted

/-! ### What a run does -/

section Execute

open Phase

/-- An action whose events lead to one phase if it succeeds and to another if it fails. -/
def Done.Leads {α : Type} (task : Task π) (p : Phase π) (d : Done σ (Except (Failure π) α) π)
    (next : α → Phase π) (stop : Phase π) : Prop :=
  Run task p d.events (match d.result with
    | .ok a => next a
    | .error _ => stop)

variable {task : Task π} {p stop : Phase π} {α β : Type} {q : α → Phase π} {r : β → Phase π}
  {d : Done σ (Except (Failure π) α) π} {next : α → σ → Done σ (Except (Failure π) β) π}

theorem Done.Leads.andThen (hd : d.Leads task p q stop)
    (hnext : ∀ a s, (next a s).Leads task (q a) r stop) :
    (d.andThen next).Leads task p r stop := by
  rcases d with ⟨cause | a, events, s⟩
  · exact hd
  · exact Run.append hd (hnext a s)

theorem Done.Leads.completes_andThen (hd : d.Leads task p q .over)
    (hnext : ∀ a s, Completes task (q a) (next a s).events) :
    Completes task p (d.andThen next).events := by
  rcases d with ⟨cause | a, events, s⟩
  · exact ⟨.over, hd, trivial⟩
  · obtain ⟨last, hrest, hlast⟩ := hnext a s
    exact ⟨last, Run.append hd hrest, hlast⟩

variable (task) (host : Host σ π) (options : Options)

theorem leads_loadOptions (hsources : task.sources ≠ []) (s : σ) :
    (loadOptions host task.optionsFile s).Leads task (.start task) .ready .over := by
  rw [Phase.start, if_neg hsources]
  rcases task.optionsFile with - | path
  · exact .nil
  rcases hfound : host.isFile s path
  · simpa [loadOptions, hfound, Done.Leads] using Run.single .missing
  rcases hread : host.read s path with ⟨cause | text, s₁⟩
  · simpa [loadOptions, hfound, hread, Done.Leads] using
      Run.cons .found (Run.single .unreadable)
  rcases hparse : Options.parse path text with cause | options
  · simpa [loadOptions, hfound, hread, hparse, Except.mapError, Done.Leads] using
      Run.cons .found (Run.single (.unusable hparse))
  · simpa [loadOptions, hfound, hread, hparse, Except.mapError, Done.Leads] using
      Run.cons .found (Run.single (.loaded hparse))

/-- Entries that are due are logged one after the other. -/
theorem run_logged (due : List LogEntry) (rest : List π) :
    Run task (.holding options due rest)
      (due.map (.logged (.ofRun (task.asWarnings options)))) (.holding options [] rest) := by
  induction due with
  | nil => exact .nil
  | cons entry due ih => exact .cons .logged ih

theorem leads_lintFile (path : π) (rest : List π) (f : Findings) (s : σ) :
    (lintFile host options (.ofRun (task.asWarnings options)) path f s).Leads task
      (.holding options [] (path :: rest)) (fun _ => .holding options [] rest) .failing := by
  rcases hread : host.read s path with ⟨cause | text, s₁⟩
  · simpa [lintFile, hread, Done.Leads] using Run.single .unread
  rcases hlint : host.lint s₁ text options.lintOptions
    (SourceKind.isScript (SourceKind.ofPath path)) with ⟨cause | answer, s₂⟩
  · simpa [lintFile, hread, hlint, Done.Leads] using Run.cons .read (Run.single .unlinted)
  · rw [lintFile_of_linted hread hlint]
    exact .cons .read (.cons .linted (run_logged task options _ rest))

theorem leads_lintFiles (files : List π) (f : Findings) (s : σ) :
    (lintFiles host options (.ofRun (task.asWarnings options)) files f s).Leads task
      (.holding options [] files) (fun _ => .holding options [] []) .failing := by
  induction files generalizing f s with
  | nil => exact .nil
  | cons path rest ih =>
    -- a file leaves no entry due, so the next one may be read
    exact (leads_lintFile task host options path rest f s).andThen ih

theorem leads_lintAll (s : σ) :
    (lintAll host options (.ofRun (task.asWarnings options)) task.sources s).Leads task
      (.ready options) (fun _ => .reporting options) .over := by
  rcases hcreate : host.create s with ⟨cause | done, s₁⟩
  · simpa [lintAll, hcreate, Done.Leads] using Run.single .uncreated
  have hloop := leads_lintFiles task host options task.sources .empty s₁
  rcases hlinted : lintFiles host options (.ofRun (task.asWarnings options)) task.sources .empty s₁
    with ⟨cause | f, events, s₂⟩
  · rw [hlinted] at hloop
    simpa [lintAll, hcreate, hlinted, Done.followedBy, Done.Leads] using
      Run.cons .created (Run.append hloop (Run.single .abandoned))
  · rw [hlinted] at hloop
    simpa [lintAll, hcreate, hlinted, Done.followedBy, Done.Leads] using
      Run.cons .created (Run.append hloop (Run.single .released))

/-- The destination of a report is the one that is wanted. -/
theorem map_destination_target :
    (task.target options).map (·.destination) = task.wanted options := by
  rw [target, wanted]
  rcases task.reportFile.or (options.output.reportFile.map PathLike.ofPath) with - | path
  · rfl
  rcases hempty : PathLike.isEmpty path
  · have hformat : (Report.Format.ofDestination path).isSome := by
      rw [Report.Format.ofDestination, if_neg (by simp [hempty])]
      split <;> rfl
    obtain ⟨format, hformat⟩ := Option.isSome_iff_exists.1 hformat
    simp [Report.Target.ofDestination, hformat, Option.filter, hempty]
  · simp [Report.Target.ofDestination, Report.Format.ofDestination, Option.filter, hempty]

theorem completes_writeReport (now : Timestamp) (f : Findings) (outcome : Outcome) (s : σ) :
    Completes task (.reporting options)
      (writeReport host (task.target options) now f outcome s).events := by
  have hwanted := map_destination_target task options
  rcases htarget : task.target options with - | target
  · rw [htarget] at hwanted
    exact ⟨.reporting options, .nil, hwanted.symm⟩
  · rw [htarget] at hwanted
    exact ⟨.over, Run.single (.wrote hwanted.symm), trivial⟩

/-- Every run is a trace of the machine to its end. -/
theorem execute_accepted (now : Timestamp) (s : σ) :
    Accepted task (task.execute host now s).events := by
  by_cases hsources : task.sources = []
  · rw [execute, if_pos (by simp [hsources]), Accepted, Phase.start, if_pos hsources]
    exact ⟨.over, .nil, trivial⟩
  rw [execute_eq_andThen hsources]
  refine (leads_loadOptions task host hsources s).completes_andThen fun options s => ?_
  exact (leads_lintAll task host options s).completes_andThen fun f s =>
    completes_writeReport task host options now f _ s

/-- Whatever the collaborators answer, a run keeps to the protocol. -/
theorem execute_orderly (now : Timestamp) (s : σ) :
    Orderly task (task.execute host now s).events :=
  (execute_accepted task host now s).orderly

end Execute

end LintRun.Task
