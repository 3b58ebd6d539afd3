import LintRun.Proofs.Options.Reloaded
import LintRun.Proofs.Task.Lenient

/-! The exit code of a run of the command line, and what it shows.

    A run with inputs comes to its task or has the code 2 (`reaches_or_code_eq`). If it comes there,
    its code is that of the result of the task. Whether an outcome is a success is decided by the
    flag of the command line, by the options that the task has loaded for itself, and by the answers
    of the linter. These options are those of the run, and the answers stand in the trace, so the
    code can be told from the outside (`lint_exit`). So can the totals: the line that is shown of
    them is their text and nothing else, colours apart (`summary_eq`). -/

namespace LintRun

namespace Console

theorem paint_eq (color : Bool) (style : Style) (text : String) : paint color style text =
    (if color then s!"\x1b[{style.code}m" else "") ++ text ++
      (if color then "\x1b[0m" else "") := by
  cases color with
  | false => simp [paint]
  | true => rfl

/-- What the line of the totals says. Colours enclose it, if there are any. -/
theorem summary_eq (color : Bool) (t : Totals) : summary color t =
    (if color then if t.violations = 0 then "\x1b[32m" else "\x1b[1m" else "") ++
      (s!"{t.processed} processed files, {t.violating} violating files, " ++
        s!"{t.violations} total violations") ++ (if color then "\x1b[0m" else "") := by
  rw [summary]
  by_cases hclean : t.violations = 0
  · have hopening : s!"\x1b[{Style.green.code}m" = "\x1b[32m" := by decide
    rw [if_neg (by omega : ¬ t.violations > 0), paint_eq, hopening, if_pos hclean]
  · have hopening : s!"\x1b[{Style.bold.code}m" = "\x1b[1m" := by decide
    rw [if_pos (by omega : t.violations > 0), paint_eq, hopening, if_neg hclean]

end Console

namespace Task

variable {σ π : Type}

/-! ### The answers in a trace -/

/-- What a linter has answered to a text, unless it has failed. -/
def Event.answered? : Event π → Option (String × List Violation)
  | .linted text _ _ (.ok vs) => some (text, vs)
  | _ => none

/-- The texts in a trace that were linted, and the answers to them. -/
def answersOf (events : List (Event π)) : List (String × List Violation) :=
  events.filterMap Event.answered?

@[simp] theorem answersOf_append (first rest : List (Event π)) :
    answersOf (first ++ rest) = answersOf first ++ answersOf rest := List.filterMap_append

/-- The linter has found a violation that lies in no ignore section. -/
def Survives (markers : Markers) (events : List (Event π)) : Prop :=
  ∃ text vs, (text, vs) ∈ answersOf events ∧
    ∃ v ∈ vs, isIgnored (Section.scan markers text) ⟨v.line, v.column⟩ = false

theorem answersOf_loadOptions (host : Host σ π) (file : Option π) (s : σ) :
    answersOf (loadOptions host file s).events = [] := by
  rcases file with - | path
  · rfl
  · cases hfound : host.isFile s path <;> simp [loadOptions, hfound, answersOf, Event.answered?]

theorem answersOf_writeReport (host : Host σ π) (target : Option (Report.Target π))
    (now : Timestamp) (f : Findings) (outcome : Outcome) (s : σ) :
    answersOf (writeReport host target now f outcome s).events = [] := by
  rcases target with - | target <;> rfl

theorem answersOf_events [PathLike π] (options : Options) (severity : Severity)
    (checked : List (Checked π)) : answersOf (checked.flatMap (·.events options severity)) =
      checked.map fun c => (c.text, c.answer) := by
  induction checked with
  | nil => rfl
  | cons c checked ih =>
    have hlogged : answersOf ((c.entries options.markers).map (Event.logged severity) :
        List (Event π)) = [] :=
      List.filterMap_eq_nil_iff.2 (by simp [Event.answered?])
    have hfile : answersOf (c.events options severity) = [(c.text, c.answer)] :=
      congrArg ((c.text, c.answer) :: ·) hlogged
    rw [List.flatMap_cons, answersOf_append, ih, hfile]
    rfl

section Told

variable [PathLike π] {task : Task π} {host : Host σ π} {now : Timestamp} {options : Options}
  {checked : List (Checked π)} {s s₂ s₃ : σ} {outcome : Outcome}

omit [PathLike π] in
/-- A run that has begun goes by the options that it loads. -/
theorem Begun.options_eq {options' : Options} (hbegun : Begun task host s options' s₂)
    (hloaded : (loadOptions host task.optionsFile s).result = .ok options) : options' = options := by
  rw [hbegun.loadOptions_eq] at hloaded
  exact Except.ok.inj hloaded

/-- A run that has linted all of its files has their answers in its trace. -/
theorem answersOf_execute (hbegun : Begun task host s options s₂)
    (hlinted : Linted host options.lintOptions task.sources s₂ checked s₃) :
    answersOf (task.execute host now s).events = checked.map fun c => (c.text, c.answer) := by
  obtain ⟨s₁, hloads, hcreate⟩ := hbegun.ready
  obtain ⟨asked, -, hloaded⟩ := hloads.loadOptions_eq
  have hasked : answersOf asked = [] := by
    simpa [hloaded] using answersOf_loadOptions host task.optionsFile s
  -- the answers come between the creation of the linter and its release
  have hlooped := answersOf_events options (.ofRun (task.asWarnings options)) checked
  have hreleased : answersOf ([.released] : List (Event π)) = [] := rfl
  rw [execute_eq_andThen hbegun.sources, hloaded]
  simp only [Done.andThen, lintAll, hcreate, lintFiles_of_linted hlinted, Done.followedBy,
    answersOf_append, hasked, answersOf_writeReport, List.nil_append, List.append_nil]
  rw [answersOf, List.filterMap_cons_none rfl, ← answersOf, answersOf_append, hlooped, hreleased,
    List.append_nil]

/-- Violations survive in a run that has linted all of its files if it counts some. -/
theorem survives_execute_iff (hbegun : Begun task host s options s₂)
    (hlinted : Linted host options.lintOptions task.sources s₂ checked s₃) :
    Survives options.markers (task.execute host now s).events ↔
      (task.outcomeFor options checked).totals.violations ≠ 0 := by
  have hcount : (task.outcomeFor options checked).totals.violations =
      (checked.flatMap (·.kept options.markers)).length := rfl
  rw [Survives, answersOf_execute hbegun hlinted, hcount, ne_eq, List.length_eq_zero_iff,
    List.flatMap_eq_nil_iff]
  simp [Checked.kept]

/-- Violations survive in a run that tells an outcome if it counts some. -/
theorem survives_iff (hloaded : (loadOptions host task.optionsFile s).result = .ok options)
    (h : outcome? (task.execute host now s).result = some outcome) :
    Survives options.markers (task.execute host now s).events ↔ outcome.totals.violations ≠ 0 := by
  rcases exists_checked_of_outcome h with
    ⟨hsources, rfl⟩ | ⟨options', checked, s₂, s₃, hbegun, hlinted, rfl⟩
  · rw [execute_of_idle task hsources]
    simp [Survives, answersOf]
  · obtain rfl := hbegun.options_eq hloaded
    exact survives_execute_iff hbegun hlinted

/-- The outcome of a run is no success if violations survive and are not taken for warnings. -/
theorem success_eq_false_iff
    (hloaded : (loadOptions host task.optionsFile s).result = .ok options)
    (h : outcome? (task.execute host now s).result = some outcome) :
    outcome.success = false ↔ Survives options.markers (task.execute host now s).events ∧
      task.asWarnings options = false := by
  rw [survives_iff hloaded h, ← Bool.not_eq_true, success_of_outcome h, hloaded]
  simp [and_comm]

/-- A run that tells an outcome has logged as many entries as it counts violations. -/
theorem length_logOf_execute (h : outcome? (task.execute host now s).result = some outcome) :
    (logOf (task.execute host now s).events).length = outcome.totals.violations := by
  rcases exists_checked_of_outcome h with
    ⟨hsources, rfl⟩ | ⟨options, checked, s₂, s₃, hbegun, hlinted, rfl⟩
  · rw [execute_of_idle task hsources]
    rfl
  · rw [logOf_execute_of_checked hbegun hlinted]
    simp [logFor, logged, Checked.entries, outcomeFor, tally, List.length_flatMap]

omit [PathLike π] in
theorem result_of_wrote_error {target : Option (Report.Target π)} {f : Findings} {path : π}
    {report : String} {cause : OsError}
    (h : .wrote path report (.error cause) ∈ (writeReport host target now f outcome s).events) :
    (writeReport host target now f outcome s).result =
      .error (.reportWrite path cause outcome) := by
  rcases target with - | target
  · cases h
  · rcases hwrite : host.write s target.destination (target.render f now) with ⟨answer, s'⟩
    simp only [writeReport, hwrite, List.mem_singleton, Event.wrote.injEq] at h ⊢
    obtain ⟨rfl, -, rfl⟩ := h
    rfl

/-- A run that could not write a report fails for that reason, with its outcome. -/
theorem result_of_unwritten {path : π} {report : String} {cause : OsError}
    (h : .wrote path report (.error cause) ∈ (task.execute host now s).events) :
    ∃ outcome, (task.execute host now s).result = .error (.reportWrite path cause outcome) := by
  by_cases hsources : task.sources = []
  · rw [execute_of_idle task hsources] at h
    cases h
  obtain ⟨hunwritten, -⟩ := examine_unwritten hsources host s
  have hbefore : .wrote path report (.error cause) ∉ (task.examine host s).events := by
    intro hmem
    cases List.filterMap_eq_nil_iff.1 hunwritten _ hmem
  rw [execute_eq_examine task hsources, Done.andThen] at h ⊢
  rcases hexamine : (task.examine host s).result with failure | found
  · simp [hexamine, hbefore] at h
  · simp only [hexamine, List.mem_append, hbefore, false_or] at h ⊢
    exact ⟨_, result_of_wrote_error h⟩

/-- A host can write nothing to a path. -/
def Host.Unwritable (host : Host σ π) (path : π) : Prop :=
  ∀ s report, ∃ cause, (host.write s path report).1 = .error cause

/-- A run with files does not succeed if the report that it wants cannot be written. -/
theorem result_ne_ok_of_unwritable {target : Report.Target π} (hsources : task.sources ≠ [])
    (hloaded : (loadOptions host task.optionsFile s).result = .ok options)
    (htarget : task.target options = some target) (hwrite : host.Unwritable target.destination) :
    (task.execute host now s).result ≠ .ok outcome := by
  obtain ⟨shown, hends⟩ := exists_ends task host now s
  rw [hends.result_eq]
  cases hends with
  | idle hidle => exact absurd hidle hsources
  | unreported hbegun _ hnone =>
    rw [hbegun.options_eq hloaded, htarget] at hnone
    cases hnone
  | reported hbegun _ hsome hwritten =>
    rw [hbegun.options_eq hloaded, htarget] at hsome
    obtain rfl := Option.some.inj hsome
    obtain ⟨cause, herror⟩ := hwrite _ _
    rw [hwritten] at herror
    cases herror
  | unloaded | uncreated | refused | unwritten => exact nofun

end Told

end Task

namespace Cli.LintRequest

variable {σ : Type} {r : LintRequest} {host : List String → Task.Host σ} {now : Timestamp}
  {t : FileTree} {s : σ} {o : Options} {sources : List Path}
  {done : Task.Done σ (Except Task.Failure Task.Outcome)}

/-! ### From the inputs to the exit code -/

/-- Carries out a run whose options and sources are found in a tree, and whose task works with any
    host: for each command of a linter there is one. -/
def runOn (r : LintRequest) (host : List String → Task.Host σ) (now : Timestamp) (t : FileTree)
    (s : σ) : Result × σ :=
  if r.inputs.isEmpty then ({ code := 2, out := Page.program.text, err := "\n" }, s)
  else match r.options t with
    | .error cause => ({ code := 2, err := errorLine cause.message }, s)
    | .ok o =>
      match Sources.collect t o.included r.inputs with
      | .error cause => ({ code := 2, err := r.optionsNote t ++ errorLine cause.message }, s)
      | .ok sources =>
        let done := (r.task t sources).execute (host o.linterCommand) now s
        let notes := r.optionsNote t ++ r.sourcesNote sources
        (r.finish o notes (Task.logOf done.events) done.result, done.state)

theorem run_eq_runOn (start : Linter.Starter) (r : LintRequest) (now : Timestamp) (t : FileTree) :
    r.run start now t = r.runOn (Task.workspace start) now t t := rfl

/-- A run loads its options, collects its sources, and carries out its task. -/
structure Reaches (r : LintRequest) (host : List String → Task.Host σ) (now : Timestamp)
    (t : FileTree) (s : σ) (o : Options) (sources : List Path)
    (done : Task.Done σ (Except Task.Failure Task.Outcome)) : Prop where
  loads : r.options t = .ok o
  collects : Sources.collect t o.included r.inputs = .ok sources
  executes : (r.task t sources).execute (host o.linterCommand) now s = done

/-- A run comes to its task in one way. -/
theorem Reaches.exists_iff (h : r.Reaches host now t s o sources done)
    {p : Options → List Path → Task.Done σ (Except Task.Failure Task.Outcome) → Prop} :
    (∃ o sources done, r.Reaches host now t s o sources done ∧ p o sources done) ↔
      p o sources done := by
  refine ⟨?_, fun hp => ⟨o, sources, done, h, hp⟩⟩
  rintro ⟨o', sources', done', h', hp⟩
  obtain rfl := Except.ok.inj (h.loads.symm.trans h'.loads)
  obtain rfl := Except.ok.inj (h.collects.symm.trans h'.collects)
  obtain rfl := h.executes.symm.trans h'.executes
  exact hp

/-- A run that comes to its task leaves what becomes of it. -/
theorem Reaches.runOn_eq (h : r.Reaches host now t s o sources done) (hinputs : r.inputs ≠ []) :
    r.runOn host now t s =
      (r.finish o (r.optionsNote t ++ r.sourcesNote sources) (Task.logOf done.events) done.result,
        done.state) := by
  rw [runOn, if_neg (by simpa using hinputs), ← h.executes]
  simp only [h.loads, h.collects]

/-- A run with inputs comes to its task, or has the code 2. -/
theorem reaches_or_code_eq (host : List String → Task.Host σ) (now : Timestamp) (t : FileTree)
    (s : σ) (hinputs : r.inputs ≠ []) :
    (∃ o sources done, r.Reaches host now t s o sources done) ∨
      (r.runOn host now t s).1.code = 2 ∧
        ¬ ∃ o sources done, r.Reaches host now t s o sources done := by
  rw [runOn, if_neg (by simpa using hinputs)]
  rcases hoptions : r.options t with cause | o
  · refine Or.inr ⟨rfl, ?_⟩
    rintro ⟨o, sources, done, h⟩
    cases hoptions.symm.trans h.loads
  rcases hsources : Sources.collect t o.included r.inputs with cause | sources
  · refine Or.inr ⟨by simp only [hsources], ?_⟩
    rintro ⟨o', sources, done, h⟩
    obtain rfl := Except.ok.inj (hoptions.symm.trans h.loads)
    cases hsources.symm.trans h.collects
  · exact Or.inl ⟨o, sources, _, hoptions, hsources, rfl⟩

section Finish

variable (r : LintRequest) (o : Options) (notes : String) (log : Log)

theorem code_finish_ok (outcome : Task.Outcome) :
    (r.finish o notes log (.ok outcome)).code = if outcome.success then 0 else 1 := rfl

theorem code_finish_error (failure : Task.Failure) :
    (r.finish o notes log (.error failure)).code = 2 := by
  cases failure <;> rfl

/-- What is shown of a task that tells an outcome: the entries of the log, and the totals. -/
theorem finish_shows {result : Except Task.Failure Task.Outcome} {outcome : Task.Outcome}
    (h : Task.outcome? result = some outcome) :
    ∃ gap more, (gap = "" ∨ gap = "\n") ∧
      (r.finish o notes log result).out =
        lines (log.map fun e => Console.entry (r.colored o) e.1 e.2) ++ gap ∧
      (r.finish o notes log result).err =
        notes ++ line (Console.summary (r.colored o) outcome.totals) ++ more := by
  rcases result with failure | outcome'
  · cases failure with
    | reportWrite path cause outcome' =>
      obtain rfl := Option.some.inj h
      exact ⟨"", _, Or.inl rfl, (String.append_empty).symm, rfl⟩
    | _ => cases h
  · obtain rfl := Option.some.inj h
    refine ⟨_, _, ?_, rfl, rfl⟩
    split
    · exact Or.inl rfl
    · exact Or.inr rfl

end Finish

/-- The code of a run that comes to its task. -/
theorem Reaches.code_iff (h : r.Reaches host now t s o sources done) (hinputs : r.inputs ≠ [])
    (hshows : ∀ path ∈ r.optionsPath t, (host o.linterCommand).Shows s t path) :
    let code := (r.runOn host now t s).1.code
    let fails := Task.Survives o.markers done.events ∧ r.warnings = false ∧
      o.output.warnings = false
    (code = 1 ↔ (∃ outcome, done.result = .ok outcome) ∧ fails) ∧
      (code = 0 ↔ (∃ outcome, done.result = .ok outcome) ∧ ¬ fails) ∧
      (code = 2 ↔ ¬ ∃ outcome, done.result = .ok outcome) := by
  intro code fails
  have hcode : code = (r.finish o (r.optionsNote t ++ r.sourcesNote sources)
      (Task.logOf done.events) done.result).code := by
    simp only [code, h.runOn_eq hinputs]
  rcases hresult : done.result with failure | outcome
  · have htwo : code = 2 := by rw [hcode, hresult, code_finish_error]
    simp [htwo]
  · have hfails : outcome.success = false ↔ fails := by
      have houtcome : Task.outcome? done.result = some outcome := by rw [hresult]; rfl
      rw [← h.executes] at houtcome
      rw [Task.success_eq_false_iff (r.loadOptions_task_of_shows sources h.loads hshows) houtcome,
        h.executes]
      simp [fails, Task.asWarnings, task]
    rw [hresult, code_finish_ok] at hcode
    rw [← hfails, hcode]
    cases outcome.success <;> simp

/-- A run of no files has the code 0. -/
theorem Reaches.code_of_idle (h : r.Reaches host now t s o [] done) (hinputs : r.inputs ≠ []) :
    (r.runOn host now t s).1.code = 0 := by
  have hidle := h.executes.symm.trans (Task.execute_of_idle (r.task t []) rfl _ now s)
  simp only [h.runOn_eq hinputs, hidle, code_finish_ok, if_true]

/-- A run that has not written its report has the code 2. -/
theorem Reaches.code_of_unwritten (h : r.Reaches host now t s o sources done)
    (hinputs : r.inputs ≠ []) {path : Path} {report : String} {cause : OsError}
    (hwrote : .wrote path report (.error cause) ∈ done.events) :
    (r.runOn host now t s).1.code = 2 ∧
      ∃ outcome, done.result = .error (.reportWrite path cause outcome) := by
  rw [← h.executes] at hwrote
  obtain ⟨outcome, hresult⟩ := Task.result_of_unwritten hwrote
  rw [h.executes] at hresult
  refine ⟨?_, outcome, hresult⟩
  simp only [h.runOn_eq hinputs, hresult, code_finish_error]

/-- A run whose task tells an outcome shows its entries, and a line of totals that counts as many
    violations. -/
theorem Reaches.exists_shown (h : r.Reaches host now t s o sources done) (hinputs : r.inputs ≠ [])
    {outcome : Task.Outcome} (houtcome : Task.outcome? done.result = some outcome) :
    let result := (r.runOn host now t s).1
    ∃ (shown : List String) (opening closing gap more : String),
      shown = (Task.logOf done.events).map (fun e => Console.entry (r.colored o) e.1 e.2) ∧
      result.out = lines shown ++ gap ∧ (gap = "" ∨ gap = "\n") ∧
      result.err = r.optionsNote t ++ r.sourcesNote sources ++
        line (opening ++
          (s!"{outcome.totals.processed} processed files, " ++
            s!"{outcome.totals.violating} violating files, " ++
            s!"{shown.length} total violations") ++ closing) ++ more ∧
      opening = (if r.colored o then if shown = [] then "\x1b[32m" else "\x1b[1m" else "") ∧
      closing = (if r.colored o then "\x1b[0m" else "") ∧
      shown.length = outcome.totals.violations := by
  intro result
  obtain ⟨gap, more, hgap, hout, herr⟩ := finish_shows r o
    (r.optionsNote t ++ r.sourcesNote sources) (Task.logOf done.events) houtcome
  have hresult : result = _ := congrArg Prod.fst (h.runOn_eq hinputs)
  have hcount : (Task.logOf done.events).length = outcome.totals.violations := by
    rw [← h.executes] at houtcome ⊢
    exact Task.length_logOf_execute houtcome
  have hclean : Task.logOf done.events = [] ↔ outcome.totals.violations = 0 := by
    rw [← hcount, List.length_eq_zero_iff]
  refine ⟨_, _, _, gap, more, rfl, ?_, hgap, ?_, rfl, rfl, by rw [List.length_map, hcount]⟩
  · rw [hresult, hout]
  · rw [hresult, herr, Console.summary_eq, List.length_map, hcount]
    simp only [List.map_eq_nil_iff, hclean, String.append_assoc]

end Cli.LintRequest

open Cli Cli.LintRequest in
/-- The exit code of a run with inputs, whatever its linter does, as long as the options file is not
    changed between the two times that it is read. The code is 1 if the run comes to its task, the
    task succeeds, and violations survive that neither the command line nor the options take for
    warnings; 0 if the task succeeds otherwise, as it does for inputs that stand for no files; and 2
    if there is no task or it fails, as it does if the report that is wanted is not written. If the
    task tells an outcome, all entries are shown, and after the notes of the run a line of totals
    that says how many entries there are. -/
theorem lint_exit (r : LintRequest) (hinputs : r.inputs ≠ []) (now : Timestamp) (t : FileTree) :
    (∀ start : Linter.Starter, r.run start now t = r.runOn (Task.workspace start) now t t ∧
      ∀ words path, (Task.workspace start words).Shows t t path) ∧
    ∀ (σ : Type) (host : List String → Task.Host σ) (s : σ),
      (∀ words, ∀ path ∈ r.optionsPath t, (host words).Shows s t path) →
      let result := (r.runOn host now t s).1
      (result.code = 1 ↔ ∃ o sources done, r.Reaches host now t s o sources done ∧
        (∃ outcome, done.result = .ok outcome) ∧
        Task.Survives o.markers done.events ∧ r.warnings = false ∧ o.output.warnings = false) ∧
      (result.code = 0 ↔ ∃ o sources done, r.Reaches host now t s o sources done ∧
        (∃ outcome, done.result = .ok outcome) ∧
        ¬ (Task.Survives o.markers done.events ∧ r.warnings = false ∧ o.output.warnings = false)) ∧
      (result.code = 2 ↔ ¬ ∃ o sources done, r.Reaches host now t s o sources done ∧
        ∃ outcome, done.result = .ok outcome) ∧
      ∀ o sources done, r.Reaches host now t s o sources done →
        (sources = [] → result.code = 0) ∧
        (∀ path report cause, .wrote path report (.error cause) ∈ done.events →
          result.code = 2 ∧ ∃ outcome, done.result = .error (.reportWrite path cause outcome)) ∧
        (∀ target, (r.task t sources).target o = some target → sources ≠ [] →
          (host o.linterCommand).Unwritable target.destination → result.code = 2) ∧
        ∀ outcome, Task.outcome? done.result = some outcome →
          ∃ (shown : List String) (opening closing gap more : String),
            shown = (Task.logOf done.events).map
              (fun e => Console.entry (r.colored o) e.1 e.2) ∧
            result.out = lines shown ++ gap ∧ (gap = "" ∨ gap = "\n") ∧
            result.err = r.optionsNote t ++ r.sourcesNote sources ++
              line (opening ++
                (s!"{outcome.totals.processed} processed files, " ++
                  s!"{outcome.totals.violating} violating files, " ++
                  s!"{shown.length} total violations") ++ closing) ++ more ∧
            opening =
              (if r.colored o then if shown = [] then "\x1b[32m" else "\x1b[1m" else "") ∧
            closing = (if r.colored o then "\x1b[0m" else "") ∧
            shown.length = outcome.totals.violations := by
  refine ⟨fun start => ⟨run_eq_runOn start r now t, fun words path =>
    Options.shows_workspace rfl start words⟩, ?_⟩
  intro σ host s hshows result
  rw [← and_assoc, ← and_assoc]
  refine ⟨?_, fun o sources done h => ⟨?_, ?_, ?_, ?_⟩⟩
  · rw [and_assoc]
    rcases reaches_or_code_eq host now t s hinputs with ⟨o, sources, done, h⟩ | ⟨htwo, hnever⟩
    · rw [h.exists_iff, h.exists_iff, h.exists_iff]
      exact h.code_iff hinputs (hshows o.linterCommand)
    · have hnone {p : Options → List Path → Task.Done σ (Except Task.Failure Task.Outcome) → Prop} :
          ¬ ∃ o sources done, r.Reaches host now t s o sources done ∧ p o sources done := by
        rintro ⟨o, sources, done, h, -⟩
        exact hnever ⟨o, sources, done, h⟩
      refine ⟨iff_of_false ?_ hnone, iff_of_false ?_ hnone, iff_of_true htwo hnone⟩
      · simp [result, htwo]
      · simp [result, htwo]
  · rintro rfl
    exact h.code_of_idle hinputs
  · intro path report cause hwrote
    exact h.code_of_unwritten hinputs hwrote
  · intro target htarget hsources hwrite
    refine (h.code_iff hinputs (hshows o.linterCommand)).2.2.2 ?_
    rintro ⟨outcome, hok⟩
    rw [← h.executes] at hok
    exact Task.result_ne_ok_of_unwritable hsources
      (r.loadOptions_task_of_shows sources h.loads (hshows o.linterCommand)) htarget hwrite hok
  · intro outcome houtcome
    exact h.exists_shown hinputs houtcome

/-- A file to lint, beside an options file that begins with a mark. -/
def marked : FileTree where
  entries := [(["o.toml"], .file (Text.Utf8.encode markedText)), (["a.js"], .file [120])]

/-- A linter that finds something at the first place of every file. -/
def complaining (words : List String) : Task.Host FileTree :=
  { Task.workspace (fun t _ => (.error .notFound, t)) words with
    lint := fun t _ _ _ => (.ok [⟨1, 1, "no", none⟩], t) }

open Cli in
/-- The entry that is shown decides the code, and is the one that is counted. -/
theorem lint_exit_complaining :
    let r : LintRequest := { inputs := [⟨"a.js"⟩], optionsFile := some ⟨"o.toml"⟩ }
    let result := (r.runOn complaining default marked marked).1
    (r.inputs ≠ [] ∧ ∀ words, ∀ path ∈ r.optionsPath marked,
      (complaining words).Shows marked marked path) ∧
    result.code = 1 ∧
      ∃ gap more, result.out = line "a.js:1:1: error: no" ++ gap ∧
        result.err =
          line "1 processed files, 1 violating files, 1 total violations" ++ more := by
  intro r result
  have hinputs : r.inputs ≠ [] := List.cons_ne_nil _ _
  have hshows : ∀ words, ∀ path ∈ r.optionsPath marked,
      (complaining words).Shows marked marked path := fun words path _ => ⟨rfl, rfl⟩
  let o : Options := { color := .never }
  let host := complaining o.linterCommand
  let task := r.task marked [⟨"a.js"⟩]
  -- the two ways of reading the options
  have hstrict := Text.Utf8.strict_encode markedText
  have hloads : r.options marked = .ok o := by
    have hstat : marked.stat ⟨"o.toml"⟩ = .ok (.file (Text.Utf8.encode markedText)) := by rfl
    exact (Options.load_of_stat hstat).trans (parse_markedText _)
  have hbegun : Task.Begun task host marked o marked := by
    obtain ⟨parsed, hparsed⟩ := Options.exists_parsed (⟨"o.toml"⟩ : Path)
      (Text.Utf8.lossy (Text.Utf8.dropMark (Text.Utf8.encode markedText)))
    have hsame := hparsed.parse_eq
    rw [Options.parse_lossy hstrict (parse_markedText _)] at hsame
    exact ⟨List.cons_ne_nil _ _, marked, .file rfl rfl (hsame ▸ hparsed), rfl⟩
  let checked : List Task.Checked := [⟨⟨"a.js"⟩, "x", [⟨1, 1, "no", none⟩]⟩]
  have hlinted : Task.Linted host o.lintOptions task.sources marked checked marked :=
    .cons rfl rfl .nil
  have hends : Task.Ends task host default marked ⟨.ok _, _, _⟩ := .unreported hbegun hlinted rfl
  obtain ⟨done, hdone⟩ : ∃ done, task.execute host default marked = done := ⟨_, rfl⟩
  have hresult : done.result = .ok (task.outcomeFor o checked) := by rw [← hdone, hends.result_eq]
  have hlog : Task.logOf done.events = task.logFor o checked := by rw [← hdone, hends.log_eq]
  have hsurvives : Task.Survives o.markers done.events := by
    rw [← hdone, Task.survives_execute_iff hbegun hlinted]
    decide +kernel
  have hcollects : Sources.collect marked o.included r.inputs = .ok [⟨"a.js"⟩] := rfl
  obtain ⟨-, hexit⟩ := lint_exit r hinputs default marked
  obtain ⟨hone, -, -, htold⟩ := hexit FileTree complaining marked hshows
  have hreaches : r.Reaches complaining default marked marked o [⟨"a.js"⟩] done :=
    ⟨hloads, hcollects, hdone⟩
  obtain ⟨-, -, -, hshown⟩ := htold o _ done hreaches
  obtain ⟨shown, opening, closing, gap, more, hentries, hout, -, herr, hopening, hclosing,
    hcount⟩ := hshown _ (congrArg Task.outcome? hresult)
  have htotals : (task.outcomeFor o checked).totals = ⟨1, 1, 1⟩ := by decide +kernel
  have hquiet : r.optionsNote marked ++ r.sourcesNote [⟨"a.js"⟩] = "" := rfl
  obtain rfl : opening = "" := hopening
  obtain rfl : closing = "" := hclosing
  refine ⟨⟨hinputs, hshows⟩,
    hone.2 ⟨o, _, done, hreaches, ⟨_, hresult⟩, hsurvives, rfl, rfl⟩, gap, more, ?_, ?_⟩
  · have hline : lines ((task.logFor o checked).map
        fun e => Console.entry (r.colored o) e.1 e.2) = line "a.js:1:1: error: no" := by
      decide +kernel
    rw [hout, hentries, hlog, hline]
  · rw [htotals] at hcount herr
    rw [hcount, hquiet] at herr
    exact herr

end LintRun
