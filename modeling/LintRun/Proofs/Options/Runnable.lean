import LintRun.Proofs.Options.Reloaded

/-! What a run may take for granted of its options: both ignore markers have text, and the command
    of the linter has a word.

    Options are the default ones or have been read from a text, and no text gives others
    (`Loads.runnable`). So a run is the same whatever would become of options that cannot be run
    with (`execute_eq_guarded`): it never looks for an empty marker, and it always gets its
    linter. -/

namespace LintRun

namespace Options

/-- Options that a run can go by: both markers have text, and the command of the linter has a
    word. -/
structure Runnable (o : Options) : Prop where
  start_ne : o.markers.start ≠ ""
  stop_ne : o.markers.stop ≠ ""
  command_ne : o.linterCommand ≠ []

instance (o : Options) : Decidable o.Runnable :=
  decidable_of_iff
    (o.markers.start ≠ "" ∧ o.markers.stop ≠ "" ∧ o.linterCommand ≠ [])
    ⟨fun h => ⟨h.1, h.2.1, h.2.2⟩, fun h => ⟨h.start_ne, h.stop_ne, h.command_ne⟩⟩

variable {t : FileTree} {path : Path} {text : String} {o : Options}

theorem linterCommand_eq_nil_iff : o.linterCommand = [] ↔ o.linter.command = some [] := by
  have hdefault : o.linter.variant.defaultCommand ≠ [] := by
    cases o.linter.variant <;> exact List.cons_ne_nil _ _
  rw [linterCommand]
  cases o.linter.command <;> simp [hdefault]

/-- Whatever text is accepted, its options can be run with. -/
theorem runnable_of_parse {π : Type} {path : π} (h : parse path text = .ok o) : o.Runnable := by
  obtain ⟨result, hparsed⟩ := exists_parsed path text
  rw [hparsed.parse_eq] at h
  subst h
  cases hparsed with
  | accepted _ _ hstart hstop hcommand =>
    exact ⟨hstart, hstop, mt linterCommand_eq_nil_iff.1 hcommand⟩

theorem runnable_of_load (h : load t path = .ok o) : o.Runnable := by
  obtain ⟨bytes, text, -, -, hparse⟩ := load_eq_ok h
  exact runnable_of_parse hparse

/-- The markers of such options are looked for; they are never passed over for being empty. -/
theorem Runnable.scan_eq (h : o.Runnable) (text : String) :
    ∃ (hstart : o.markers.start.toList ≠ []) (hstop : o.markers.stop.toList ≠ []),
      Section.scan o.markers text =
        Section.scanFrom o.markers.start.toList o.markers.stop.toList hstart hstop .origin
          text.toList := by
  have hstart : o.markers.start.toList ≠ [] := mt String.toList_eq_nil_iff.1 h.start_ne
  have hstop : o.markers.stop.toList ≠ [] := mt String.toList_eq_nil_iff.1 h.stop_ne
  exact ⟨hstart, hstop, dif_pos ⟨hstart, hstop⟩⟩

end Options

namespace Task

variable {σ π : Type} {task : Task π} {host : Host σ π} {now : Timestamp} {s s₁ : σ} {o : Options}

theorem Loads.runnable {file : Option π} (h : Loads host file s (.ok o) s₁) : o.Runnable := by
  cases h with
  | defaults => decide
  | file _ _ hparsed => exact Options.runnable_of_parse hparsed.parse_eq

theorem runnable_of_loadOptions {file : Option π}
    (h : (loadOptions host file s).result = .ok o) : o.Runnable := by
  obtain ⟨result, s₁, hloads⟩ := exists_loads host file s
  obtain ⟨asked, -, hload⟩ := hloads.loadOptions_eq
  rw [hload] at h
  subst h
  exact hloads.runnable

variable [PathLike π]

/-- What a run does once it has its options. -/
def conclude (task : Task π) (host : Host σ π) (now : Timestamp) (options : Options) (s : σ) :
    Done σ (Except (Failure π) Outcome) π :=
  (lintAll host options (.ofRun (task.asWarnings options)) task.sources s).andThen fun f s =>
    writeReport host (task.target options) now f (outcomeOf (task.asWarnings options) f) s

/-- What a run would do with options that it cannot go by does not matter. -/
theorem execute_eq_guarded (hsources : task.sources ≠ []) (host : Host σ π) (now : Timestamp)
    (s : σ) (other : Options → σ → Done σ (Except (Failure π) Outcome) π) :
    task.execute host now s = (loadOptions host task.optionsFile s).andThen fun options s =>
      if options.Runnable then task.conclude host now options s else other options s := by
  rw [execute_eq_andThen hsources, Done.andThen, Done.andThen]
  rcases hloaded : (loadOptions host task.optionsFile s).result with cause | options
  · rfl
  · simp only [if_pos (runnable_of_loadOptions hloaded), conclude]

/-- A run that gets no linter has asked for one in vain. -/
theorem exists_create_of_execute {cause : LinterError}
    (h : (task.execute host now s).result = .error (.createLinter cause)) :
    ∃ s₁ s₂, host.create s₁ = (.error cause, s₂) := by
  obtain ⟨shown, hends⟩ := exists_ends task host now s
  have hshown : shown.result = .error (.createLinter cause) := hends.result_eq.symm.trans h
  cases hends with
  | uncreated _ _ hcreate =>
    cases hshown
    exact ⟨_, _, hcreate⟩
  | unloaded _ hloads =>
    cases hshown
    generalize task.optionsFile = file at hloads
    cases hloads
  | refused _ _ _ hrefused =>
    cases hshown
    cases hrefused
  | idle | unreported | reported | unwritten => cases hshown

/-- A command that has a word gives a linter. -/
theorem create_workspace (start : Linter.Starter) {words : List String} (hwords : words ≠ [])
    (t : FileTree) : (workspace start words).create t = (.ok (), t) := by
  simp [workspace, hwords]

end Task

/-- The options of a run of the command line can be run with. -/
theorem Cli.LintRequest.runnable_options {r : Cli.LintRequest} {t : FileTree} {o : Options}
    (h : r.options t = .ok o) : o.Runnable := by
  rw [options] at h
  split at h
  · exact Options.runnable_of_load h
  · cases h
    decide

/-- All options that a run can have can be run with: the default ones, those of every text that is
    accepted, and so those that a task loads and those that a command line loads. A task then never
    passes over an empty marker, nor does what it would do with one matter; and a command line
    always gets the linter of its options. -/
theorem options_runnable :
    ({} : Options).Runnable ∧
    (∀ (π : Type) (path : π) text o, Options.parse path text = .ok o → o.Runnable) ∧
    (∀ (σ π : Type) [PathLike π] (task : Task π) (host : Task.Host σ π) (now : Timestamp) (s : σ),
      (∀ o, (Task.loadOptions host task.optionsFile s).result = .ok o → o.Runnable ∧
        ∀ text, ∃ hstart hstop, Section.scan o.markers text = Section.scanFrom
          o.markers.start.toList o.markers.stop.toList hstart hstop .origin text.toList) ∧
      ∀ other : Options → σ → Task.Done σ (Except (Task.Failure π) Task.Outcome) π,
        task.sources ≠ [] → task.execute host now s =
          (Task.loadOptions host task.optionsFile s).andThen fun options s =>
            if options.Runnable then task.conclude host now options s else other options s) ∧
    ∀ (start : Linter.Starter) (r : Cli.LintRequest) (t : FileTree) (o : Options),
      r.options t = .ok o → o.Runnable ∧ (Linter.CommandLine.ofWords? o.linterCommand).isSome ∧
        ∀ t', ((Task.workspace start o.linterCommand).create t').1 = .ok () ∧
          ∀ sources now cause, ((r.task t sources).execute
            (Task.workspace start o.linterCommand) now t').result ≠
              .error (.createLinter cause) := by
  refine ⟨by decide, fun π path text o => Options.runnable_of_parse, ?_, ?_⟩
  · intro σ π _ task host now s
    refine ⟨fun o hloaded => ?_, fun other hsources =>
      Task.execute_eq_guarded hsources host now s other⟩
    have hrunnable := Task.runnable_of_loadOptions hloaded
    exact ⟨hrunnable, hrunnable.scan_eq⟩
  · intro start r t o hoptions
    have hrunnable := Cli.LintRequest.runnable_options hoptions
    obtain ⟨program, arguments, hwords⟩ := List.exists_cons_of_ne_nil hrunnable.command_ne
    refine ⟨hrunnable, by rw [hwords]; rfl, fun t' => ⟨?_, fun sources now cause hfailed => ?_⟩⟩
    · rw [Task.create_workspace start hrunnable.command_ne]
    · obtain ⟨t₁, t₂, hcreate⟩ := Task.exists_create_of_execute hfailed
      rw [Task.create_workspace start hrunnable.command_ne] at hcreate
      cases hcreate

/-- An options file that gives one marker, in the array form of its section, and a variant. -/
def partialText : String := "ignore = ['<<']\nlinter.variant = 'JSHint'\n"

/-- What a file leaves out has its default value, which can be run with too. -/
theorem options_runnable_partial :
    let t : FileTree := { entries := [(["o.toml"], .file (Text.Utf8.encode partialText))] }
    let r : Cli.LintRequest := { inputs := [⟨"a.js"⟩], optionsFile := some ⟨"o.toml"⟩ }
    let o : Options := { linter := { variant := .jshint }, markers := { start := "<<" } }
    let host := Task.workspace (fun t _ => (.error .notFound, t)) ["jshint-json"]
    (Options.parse (⟨"o.toml"⟩ : Path) partialText = .ok o ∧ r.options t = .ok o) ∧ o.Runnable ∧
      (host.create t).1 = .ok () ∧
      ∀ cause, ((r.task t [⟨"a.js"⟩]).execute host default t).result ≠
        .error (.createLinter cause) := by
  intro t r o host
  have hread : Toml.read partialText = some [("ignore", .array [.string "<<"]),
      ("linter", .table [("variant", .string "JSHint")])] := by cbv
  have hparse : Options.parse (⟨"o.toml"⟩ : Path) partialText = .ok o := by
    rw [Options.parse, hread]
    rfl
  have hoptions : r.options t = .ok o := by
    have hstat : t.stat ⟨"o.toml"⟩ = .ok (.file (Text.Utf8.encode partialText)) := by rfl
    exact (Options.load_of_stat hstat).trans hparse
  obtain ⟨-, hparsed, -, hruns⟩ := options_runnable
  obtain ⟨-, -, hcreates⟩ := hruns (fun t _ => (.error .notFound, t)) r t o hoptions
  exact ⟨⟨hparse, hoptions⟩, hparsed _ _ _ o hparse, (hcreates t).1,
    fun cause => (hcreates t).2 [⟨"a.js"⟩] default cause⟩

end LintRun
