import LintRun.Proofs.Path.Raw
import LintRun.Proofs.Task.Examined

/-! The order of the files of a task, when neither the files nor the linter change in the course of
    the run.

    What comes of a file is then a function of its path, so a run has a block of its log for each
    file and puts them in the order of the files. The findings are laid out in another order, but a
    path that comes more than once has the same answer each time, and so the same record. A record is
    that of a text, though: files that are shown as the same text share theirs, and their violations
    stand in it in the order of the files (`execute_shown_alike`). -/

namespace LintRun.Task

open PathLike (display)

variable {σ π : Type}

/-- A host whose answers do not change in some states, which its calls do not leave: a file reads the
    same in all of them, and the linter goes by nothing but what it is given. -/
structure Host.Steady (host : Host σ π) (among : σ → Prop) : Prop where
  read : ∀ {s s'}, among s → among s' → ∀ path, (host.read s path).1 = (host.read s' path).1
  lint : ∀ {s s'}, among s → among s' → ∀ text options isScript,
    (host.lint s text options isScript).1 = (host.lint s' text options isScript).1
  among_read : ∀ {s}, among s → ∀ path, among (host.read s path).2
  among_create : ∀ {s}, among s → among (host.create s).2
  among_lint : ∀ {s}, among s → ∀ text options isScript,
    among (host.lint s text options isScript).2

/-- A host whose answers do not go by its state is steady. -/
theorem Host.steady_of_forall {host : Host σ π}
    (hread : ∀ s s' path, (host.read s path).1 = (host.read s' path).1)
    (hlint : ∀ s s' text options isScript,
      (host.lint s text options isScript).1 = (host.lint s' text options isScript).1) :
    host.Steady fun _ => True where
  read _ _ := hread _ _
  lint _ _ := hlint _ _
  among_read _ _ := trivial
  among_create _ := trivial
  among_lint _ _ _ _ := trivial

theorem toOption_eq_some {ε α : Type} {result : Except ε α} {a : α} :
    result.toOption = some a ↔ result = .ok a := by
  cases result <;> simp [Except.toOption]

variable [PathLike π]

/-- What comes of reading a file and linting it, if both succeed. -/
def check (host : Host σ π) (options : LintOptions) (s : σ) (path : π) : Option (Checked π) := do
  let text ← (host.read s path).1.toOption
  let answer ← (host.lint s text options (SourceKind.isScript (SourceKind.ofPath path))).1.toOption
  return ⟨path, text, answer⟩

theorem check_eq_some_iff {host : Host σ π} {options : LintOptions} {s : σ} {path : π}
    {c : Checked π} :
    check host options s path = some c ↔ ∃ text answer, (host.read s path).1 = .ok text ∧
      (host.lint s text options (SourceKind.isScript (SourceKind.ofPath path))).1 = .ok answer ∧
      c = ⟨path, text, answer⟩ := by
  simp only [check, Option.bind_eq_bind, Option.bind_eq_some_iff, toOption_eq_some,
    Option.pure_def, Option.some.injEq, exists_and_left, eq_comm (b := c)]

/-- A steady host reads and lints files one after the other if it does so with each of them. -/
theorem Host.Steady.linted_iff {host : Host σ π} {among : σ → Prop} (h : host.Steady among)
    (options : LintOptions) {files : List π} {checked : List (Checked π)} {s₀ s : σ}
    (hs₀ : among s₀) (hs : among s) :
    (∃ s', Linted host options files s checked s') ↔
      (∀ path ∈ files, (check host options s₀ path).isSome) ∧
        checked = files.filterMap (check host options s₀) := by
  constructor
  · rintro ⟨s', hlinted⟩
    induction hlinted with
    | nil => simp
    | @cons path rest text answer checked s s₁ s₂ s₃ hread hlint _ ih =>
      obtain rfl : s₁ = (host.read s path).2 := by rw [hread]
      have hs₁ := h.among_read hs path
      have hs₂ : among s₂ := by
        have hkept := h.among_lint hs₁ text options (SourceKind.isScript (SourceKind.ofPath path))
        rwa [hlint] at hkept
      obtain ⟨hrest, rfl⟩ := ih hs₂
      have hcheck : check host options s₀ path = some ⟨path, text, answer⟩ :=
        check_eq_some_iff.2 ⟨text, answer, by rw [h.read hs₀ hs, hread],
          by rw [h.lint hs₀ hs₁, hlint], rfl⟩
      exact ⟨by simpa [hcheck] using hrest, by simp [hcheck]⟩
  · rintro ⟨hall, rfl⟩
    induction files generalizing s with
    | nil => exact ⟨s, .nil⟩
    | cons path rest ih =>
      obtain ⟨hpath, hrest⟩ := List.forall_mem_cons.1 hall
      obtain ⟨c, hcheck⟩ := Option.isSome_iff_exists.1 hpath
      rw [List.filterMap_cons_some hcheck]
      obtain ⟨text, answer, htext, hanswer, rfl⟩ := check_eq_some_iff.1 hcheck
      have hs₁ := h.among_read hs path
      rw [h.read hs₀ hs] at htext
      rw [h.lint hs₀ hs₁] at hanswer
      obtain ⟨s', hlinted⟩ := ih (h.among_lint hs₁ text options
        (SourceKind.isScript (SourceKind.ofPath path))) hrest
      exact ⟨s', .cons (Prod.ext htext rfl) (Prod.ext hanswer rfl) hlinted⟩

section Checked

variable {markers : Markers} {checked checked' : List (Checked π)}

theorem tally_perm (h : checked.Perm checked') : tally markers checked = tally markers checked' := by
  have hprocessed := List.toFinset_eq_of_perm _ _ (h.map (display ·.path))
  have hviolating := List.toFinset_eq_of_perm _ _
    ((h.filter fun c => c.kept markers ≠ []).map (display ·.path))
  have hviolations := (h.flatMap_right (·.kept markers)).length_eq
  rw [tally, tally, hprocessed, hviolating, hviolations]

/-- What is noted under a text is what counts in the files that are shown as it. -/
theorem under_notes (p : String) :
    Findings.under (checked.flatMap (·.notes markers)) p =
      (checked.filter (display ·.path = p)).flatMap (·.kept markers) := by
  induction checked with
  | nil => rfl
  | cons c checked ih =>
    rw [Findings.under] at ih ⊢
    rw [List.flatMap_cons, List.filterMap_append, ih]
    by_cases hc : display c.path = p <;> simp [Checked.notes, Note.addedTo, hc]

/-- Members of a list that a test holds of stand in the same order in every list that has the same
    members, if they are all the same. -/
theorem filter_eq_of_perm {α : Type} {l l' : List α} {q : α → Bool} (h : l.Perm l')
    (hsame : ∀ a ∈ l, ∀ b ∈ l, q a → q b → a = b) : l.filter q = l'.filter q := by
  rcases hl : l.filter q with - | ⟨a, rest⟩
  · exact (List.nil_perm.1 (hl ▸ h.filter q)).symm
  · have hmem : ∀ b ∈ l.filter q, b = a := by
      intro b hb
      have ha : a ∈ l.filter q := by simp [hl]
      rw [List.mem_filter] at ha hb
      exact hsame b hb.1 a ha.1 hb.2 ha.2
    have hreplicate := List.eq_replicate_of_mem hmem
    rw [← hl, hreplicate]
    refine (List.perm_replicate.1 ?_).symm
    rw [← hreplicate]
    exact (h.filter q).symm

/-- The record of a text does not depend on the order of the files if no two of them are shown as
    this text. -/
theorem get?_findingsOf_perm (h : checked.Perm checked') {p : String}
    (hsame : ∀ c ∈ checked, ∀ c' ∈ checked, display c.path = p → display c'.path = p → c = c') :
    (findingsOf markers checked).get? p = (findingsOf markers checked').get? p := by
  have hnotes := h.flatMap_right (·.notes markers)
  have hfiles : checked.filter (display ·.path = p) = checked'.filter (display ·.path = p) :=
    filter_eq_of_perm h fun c hc c' hc' hp hp' =>
      hsame c hc c' hc' (of_decide_eq_true hp) (of_decide_eq_true hp')
  rw [findingsOf, findingsOf, (Findings.reflects_ofHistory _).get?_eq,
    (Findings.reflects_ofHistory _).get?_eq]
  simp only [Findings.mem_mentioned, hnotes.mem_iff, Findings.recordOf, under_notes, hfiles]

end Checked

/-- What a task logs of a file, by the path of the file. -/
def fileLog (task : Task π) (host : Host σ π) (s : σ) (path : π) : Log :=
  match (loadOptions host task.optionsFile s).result with
  | .error _ => []
  | .ok options =>
    logged options.markers (.ofRun (task.asWarnings options))
      (check host options.lintOptions s path).toList

variable {task : Task π} {host : Host σ π} {among : σ → Prop} {options : Options}
  {sources : List π} {checked : List (Checked π)} {s s₂ s₃ : σ}

omit [PathLike π] in
theorem Host.Steady.among_begun (hsteady : host.Steady among) (hs : among s)
    (h : Begun task host s options s₂) : among s₂ := by
  obtain ⟨s₁, hloads, hcreate⟩ := h.ready
  have hs₁ : among s₁ := by
    generalize task.optionsFile = file at hloads
    cases hloads with
    | defaults => exact hs
    | @file path _ _ _ _ _ hread => simpa [hread] using hsteady.among_read hs path
  simpa [hcreate] using hsteady.among_create hs₁

omit [PathLike π] in
theorem Begun.reorder (h : Begun task host s options s₂) (horder : sources.Perm task.sources) :
    Begun { task with sources } host s options s₂ := by
  refine ⟨?_, h.ready⟩
  rintro rfl
  exact h.sources (List.nil_perm.1 horder)

/-- A steady host gets through files in every order if it does in one, with the same answers. -/
theorem Host.Steady.exists_linted_of_perm {options : LintOptions} {files files' : List π}
    (hsteady : host.Steady among) (hs : among s) (hlinted : Linted host options files s checked s₃)
    (horder : files'.Perm files) :
    ∃ checked' s', Linted host options files' s checked' s' ∧ checked.Perm checked' ∧
      ∀ c ∈ checked, ∀ c' ∈ checked, c.path = c'.path → c = c' := by
  obtain ⟨hall, rfl⟩ := (hsteady.linted_iff options hs hs).1 ⟨s₃, hlinted⟩
  obtain ⟨s', hlinted'⟩ := (hsteady.linted_iff options hs hs).2
    ⟨fun path hpath => hall path (horder.mem_iff.1 hpath), rfl⟩
  refine ⟨_, s', hlinted', (horder.filterMap _).symm, fun c hc c' hc' hpath => ?_⟩
  obtain ⟨path, -, hcheck⟩ := List.mem_filterMap.1 hc
  obtain ⟨path', -, hcheck'⟩ := List.mem_filterMap.1 hc'
  obtain ⟨text, answer, -, -, rfl⟩ := check_eq_some_iff.1 hcheck
  obtain ⟨text', answer', -, -, rfl⟩ := check_eq_some_iff.1 hcheck'
  obtain rfl : path = path' := hpath
  exact Option.some.inj (hcheck.symm.trans hcheck')

/-- A steady host that gets through all files of a task has the blocks of the files logged. -/
theorem Host.Steady.logOf_eq (hsteady : host.Steady among) (hs : among s)
    (hbegun : Begun task host s options s₂)
    (hlinted : Linted host options.lintOptions task.sources s₂ checked s₃) (now : Timestamp) :
    logOf (task.execute host now s).events = task.sources.flatMap (task.fileLog host s) := by
  rw [logOf_execute_of_checked hbegun hlinted]
  obtain ⟨-, rfl⟩ := (hsteady.linted_iff options.lintOptions hs
    (hsteady.among_begun hs hbegun)).1 ⟨s₃, hlinted⟩
  simp only [logFor, logged, List.filterMap_eq_flatMap_toList, List.flatMap_assoc]
  refine List.flatMap_congr fun path _ => ?_
  simp only [fileLog, hbegun.loadOptions_eq, logged]

/-- What one order of the files comes to, every order comes to. -/
theorem Host.Steady.outcome?_of_perm (hsteady : host.Steady among) (hs : among s) (task : Task π)
    (horder : sources.Perm task.sources)
    {outcome : Outcome} {now : Timestamp}
    (h : outcome? (task.execute host now s).result = some outcome) (now' : Timestamp) :
    outcome? (execute { task with sources } host now' s).result = some outcome := by
  rcases exists_checked_of_outcome h with
    ⟨hsources, rfl⟩ | ⟨options, checked, s₂, s₃, hbegun, hlinted, rfl⟩
  · rw [hsources, List.perm_nil] at horder
    rw [execute_of_idle { task with sources } horder]
    rfl
  · have hs₂ := hsteady.among_begun hs hbegun
    obtain ⟨checked', s', hlinted', hperm, -⟩ := hsteady.exists_linted_of_perm hs₂ hlinted horder
    rw [outcome?_of_linted (hbegun.reorder horder) hlinted' now', outcomeFor, outcomeFor,
      tally_perm hperm]
    rfl

/-- A run that has linted all of its files reports what it has found in them. -/
theorem finds_of_linted (hbegun : Begun task host s options s₂)
    (hlinted : Linted host options.lintOptions task.sources s₂ checked s₃) (now : Timestamp) :
    Finds task host now s options (findingsOf options.markers checked) where
  examined := examine_of_linted hbegun hlinted
  told := by rw [outcome?_of_linted hbegun hlinted, outcomeOf_findingsOf]
  reported := by rw [reportsOf_execute_of_checked hbegun hlinted, reportsOf_writeReport]

/-- What a steady host lets a run find under a text, it lets it find in every order of the files, if
    no two of them are shown as this text. -/
theorem Host.Steady.exists_finds_of_perm (hsteady : host.Steady among) (hs : among s)
    (horder : sources.Perm task.sources) (hbegun : Begun task host s options s₂)
    (hlinted : Linted host options.lintOptions task.sources s₂ checked s₃) (now now' : Timestamp) :
    ∃ f f', Finds task host now s options f ∧ Finds { task with sources } host now' s options f' ∧
      ∀ p, (∀ file ∈ task.sources, ∀ file' ∈ task.sources,
        display file = p → display file' = p → file = file') → f'.get? p = f.get? p := by
  obtain ⟨checked', s', hlinted', hperm, hsame⟩ :=
    hsteady.exists_linted_of_perm (hsteady.among_begun hs hbegun) hlinted horder
  have hmem : ∀ c ∈ checked, c.path ∈ task.sources := by
    rw [← hlinted.map_path]
    exact fun c => List.mem_map_of_mem
  refine ⟨_, _, finds_of_linted hbegun hlinted now,
    finds_of_linted (hbegun.reorder horder) hlinted' now', fun p hdistinct => ?_⟩
  refine (get?_findingsOf_perm hperm fun c hc c' hc' hp hp' => hsame c hc c' hc' ?_).symm
  exact hdistinct _ (hmem c hc) _ (hmem c' hc') hp hp'

/-- With a steady host the order of the files does not matter. Every order comes to an outcome or
    none does, and to the same one, and the log consists of the same blocks, one for each file, in
    the order of the files. What is found, and reported, under a text is the same in every order
    unless it is the text of different files, as it never is if all paths are text. -/
theorem execute_reordered (hsteady : host.Steady among) (hs : among s)
    (horder : sources.Perm task.sources) (now now' : Timestamp) :
    let done := task.execute host now s
    let other := execute { task with sources } host now' s
    outcome? other.result = outcome? done.result ∧
      (outcome? done.result ≠ none →
        logOf done.events = task.sources.flatMap (task.fileLog host s) ∧
          logOf other.events = sources.flatMap (task.fileLog host s)) ∧
      (outcome? done.result ≠ none → task.sources ≠ [] → ∃ options f f',
        Finds task host now s options f ∧ Finds { task with sources } host now' s options f' ∧
        (∀ p, (∀ file ∈ task.sources, ∀ file' ∈ task.sources,
            display file = p → display file' = p → file = file') → f'.get? p = f.get? p) ∧
        ((∀ file ∈ task.sources, ∃ path, file = PathLike.ofPath path) →
          ∀ p, f'.get? p = f.get? p)) := by
  intro done other
  refine ⟨?_, ?_, ?_⟩
  · refine Option.ext fun outcome => ⟨fun h => ?_, fun h => ?_⟩
    · exact hsteady.outcome?_of_perm hs { task with sources } horder.symm h now
    · exact hsteady.outcome?_of_perm hs task horder h now'
  · intro htold
    obtain ⟨outcome, h⟩ := Option.ne_none_iff_exists'.1 htold
    rcases exists_checked_of_outcome h with
      ⟨hsources, -⟩ | ⟨options, checked, s₂, s₃, hbegun, hlinted, -⟩
    · have hother : sources = [] := by rwa [hsources, List.perm_nil] at horder
      have hdone : done = _ := execute_of_idle task hsources host now s
      have hempty : other = _ := execute_of_idle { task with sources } hother host now' s
      rw [hdone, hempty, hsources, hother]
      exact ⟨rfl, rfl⟩
    · have hs₂ := hsteady.among_begun hs hbegun
      obtain ⟨checked', s', hlinted', -, -⟩ := hsteady.exists_linted_of_perm hs₂ hlinted horder
      exact ⟨hsteady.logOf_eq hs hbegun hlinted now,
        hsteady.logOf_eq hs (hbegun.reorder horder) hlinted' now'⟩
  · intro htold hsources
    obtain ⟨outcome, h⟩ := Option.ne_none_iff_exists'.1 htold
    rcases exists_checked_of_outcome h with
      ⟨hidle, -⟩ | ⟨options, checked, s₂, s₃, hbegun, hlinted, -⟩
    · exact absurd hidle hsources
    obtain ⟨f, f', hf, hf', hrecord⟩ :=
      hsteady.exists_finds_of_perm hs horder hbegun hlinted now now'
    refine ⟨options, f, f', hf, hf', hrecord, fun htext p => ?_⟩
    -- paths that are text are the same if they are shown as the same text
    refine hrecord p fun file hfile file' hfile' hp hp' => ?_
    obtain ⟨path, rfl⟩ := htext file hfile
    obtain ⟨path', rfl⟩ := htext file' hfile'
    exact congrArg PathLike.ofPath (PathLike.eq_of_display_eq (hp.trans hp'.symm))

/-- A host of two texts. Its linter tells what it was given, and counts its calls without going by
    their number. No report can be written. -/
def steadfast : Host Nat where
  isFile _ _ := false
  read calls path :=
    (.ok (if path.text = "b.css" then "x\n/*ignore jslint start*/y" else "z"), calls)
  create calls := (.ok (), calls)
  lint calls text _ isScript :=
    (.ok [⟨1, 1, text, none⟩, ⟨2, 24, if isScript then "script" else "style", none⟩], calls + 1)
  write calls _ _ := (.error .permissionDenied, calls)

/-- With the second file first, its block comes first, and the two blocks of the other one are still
    the same. The records have changed places in the report, but are what they were. -/
theorem execute_reordered_steadfast :
    let task : Task :=
      { sources := [⟨"a.js"⟩, ⟨"b.css"⟩, ⟨"a.js"⟩], reportFile := some ⟨"r.txt"⟩ }
    let sources : List Path := [⟨"b.css"⟩, ⟨"a.js"⟩, ⟨"a.js"⟩]
    let other := execute { task with sources } steadfast default 0
    (steadfast.Steady (fun _ => True) ∧ sources.Perm task.sources) ∧
      outcome? (task.execute steadfast default 0).result = some ⟨false, ⟨2, 2, 5⟩⟩ ∧
      outcome? other.result = some ⟨false, ⟨2, 2, 5⟩⟩ ∧
      (logOf other.events).map (fun entry => (entry.2.file, entry.2.message)) =
        [("b.css", "x\n/*ignore jslint start*/y"), ("a.js", "z"), ("a.js", "script"),
          ("a.js", "z"), ("a.js", "script")] ∧
      ∃ options f f', Finds task steadfast default 0 options f ∧
        Finds { task with sources } steadfast default 0 options f' ∧
        f.files.map (·.path) = ["a.js", "b.css"] ∧ f'.files.map (·.path) = ["b.css", "a.js"] ∧
        f'.get? "a.js" = some ⟨"a.js", [⟨1, 1, "z", none⟩, ⟨2, 24, "script", none⟩,
          ⟨1, 1, "z", none⟩, ⟨2, 24, "script", none⟩]⟩ := by
  intro task sources other
  have hsteady : steadfast.Steady fun _ => True :=
    Host.steady_of_forall (fun _ _ _ => rfl) fun _ _ _ _ _ => rfl
  have horder : sources.Perm task.sources := by decide
  have htold : outcome? (task.execute steadfast default 0).result = some ⟨false, ⟨2, 2, 5⟩⟩ := by
    decide +kernel
  obtain ⟨hsame, hlogs, hfinds⟩ :=
    execute_reordered hsteady (s := 0) trivial horder default default
  have hnone : outcome? (task.execute steadfast default 0).result ≠ none := by
    rw [htold]
    nofun
  obtain ⟨-, hlog⟩ := hlogs hnone
  obtain ⟨options, f, f', hf, hf', -, hrecords⟩ := hfinds hnone (by decide)
  have hfiles : ((task.examine steadfast 0).result.toOption.map fun found =>
      (found.2.files.map (·.path), found.2.get? "a.js")) = some (["a.js", "b.css"],
        some ⟨"a.js", [⟨1, 1, "z", none⟩, ⟨2, 24, "script", none⟩, ⟨1, 1, "z", none⟩,
          ⟨2, 24, "script", none⟩]⟩) := by
    decide +kernel
  have hfiles' : ((examine { task with sources } steadfast 0).result.toOption.map fun found =>
      found.2.files.map (·.path)) = some ["b.css", "a.js"] := by
    decide +kernel
  rw [hf.examined] at hfiles
  rw [hf'.examined] at hfiles'
  obtain ⟨hpaths, hrecord⟩ := Prod.mk.inj (Option.some.inj hfiles)
  refine ⟨⟨hsteady, horder⟩, htold, hsame.trans htold, ?_,
    options, f, f', hf, hf', hpaths, Option.some.inj hfiles', ?_⟩
  · simp only [other, hlog]
    decide +kernel
  · rw [hrecords (fun file _ => ⟨file, rfl⟩) "a.js", hrecord]

/-- A host whose files hold what they are called, and whose linter tells what it is given. -/
def echoing : Host Unit RawPath where
  isFile _ _ := false
  read _ path := (.ok path.bytewise.text, ())
  create _ := (.ok (), ())
  lint _ text _ _ := (.ok [⟨1, 1, text, none⟩], ())
  write _ _ _ := (.ok (), ())

/-- Two files whose names are no text are shown alike. They share a record, and in it the order of
    the files can be seen. -/
theorem execute_shown_alike :
    let file : RawPath := ⟨[0x61, 0xFF, 0x2E, 0x6A, 0x73]⟩
    let file' : RawPath := ⟨[0x61, 0xFE, 0x2E, 0x6A, 0x73]⟩
    let task : Task RawPath := { sources := [file, file'] }
    let sources := [file', file]
    let shown := "a\uFFFD.js"
    let v : Violation := ⟨1, 1, "a\xFF.js", none⟩
    let v' : Violation := ⟨1, 1, "a\xFE.js", none⟩
    (echoing.Steady (fun _ => True) ∧ sources.Perm task.sources) ∧
      outcome? (task.execute echoing default ()).result = some ⟨false, ⟨1, 1, 2⟩⟩ ∧
      outcome? (execute { task with sources } echoing default ()).result =
        some ⟨false, ⟨1, 1, 2⟩⟩ ∧
      ∃ f f', Finds task echoing default () {} f ∧
        Finds { task with sources } echoing default () {} f' ∧
        f.get? shown = some ⟨shown, [v, v']⟩ ∧ f'.get? shown = some ⟨shown, [v', v]⟩ ∧
        f'.get? shown ≠ f.get? shown := by
  intro file file' task sources shown v v'
  have hsteady : echoing.Steady fun _ => True :=
    Host.steady_of_forall (fun _ _ _ => rfl) fun _ _ _ _ _ => rfl
  have hbegun : Begun task echoing () {} () := ⟨by decide, (), .defaults, rfl⟩
  have hbegun' : Begun { task with sources } echoing () {} () := ⟨by decide, (), .defaults, rfl⟩
  exact ⟨⟨hsteady, by decide⟩, by decide +kernel, by decide +kernel, _, _,
    finds_of_linted hbegun (.cons rfl rfl (.cons rfl rfl .nil)) default,
    finds_of_linted hbegun' (.cons rfl rfl (.cons rfl rfl .nil)) default,
    by decide +kernel, by decide +kernel, by decide +kernel⟩

end LintRun.Task
