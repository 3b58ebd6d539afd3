import LintRun.Cli.Run
import LintRun.Proofs.Task.Ends
import LintRun.Proofs.Text.Utf8
import Mathlib

/-! An options file is read twice: before a task is made, by a reader that refuses malformed bytes
    and leaves a byte order mark to the document, and by the task, with a reader that drops the mark
    and replaces what is malformed. Both come to the same options wherever the first one comes to
    any (`loadOptions_of_shows`), so a task never fails for options that were loaded before
    (`load_reload`). The reason is that a document has no place for a second mark
    (`read_mark_mark`). -/

namespace LintRun

/-! ### The mark -/

namespace Toml

/-- A byte order mark begins no statement. -/
theorem readStatements_mark (fuel : Nat) (done : List Statement) (s : List Char) :
    readStatements (fuel + 1) done ('\uFEFF' :: s) = none := rfl

/-- A document has at most one byte order mark in front. -/
theorem read_mark_mark {s : List Char} :
    read (String.ofList ('\uFEFF' :: '\uFEFF' :: s)) = none := by
  rw [read, String.toList_ofList]
  exact congrArg (Option.bind · _) (readStatements_mark _ _ s)

theorem dropMark_of_ne {s : List Char} (h : ∀ rest, s ≠ '\uFEFF' :: rest) : dropMark s = s := by
  rw [dropMark.eq_def]
  split
  · exact absurd rfl (h _)
  · rfl

/-- One mark in front of a document does not count. -/
theorem read_mark {s : List Char} (h : (read (String.ofList ('\uFEFF' :: s))).isSome) :
    read (String.ofList s) = read (String.ofList ('\uFEFF' :: s)) := by
  have hsingle : ∀ rest, s ≠ '\uFEFF' :: rest := by
    rintro rest rfl
    rw [read_mark_mark] at h
    cases h
  simp only [read, String.toList_ofList, dropMark_of_ne hsingle]
  rfl

end Toml

/-! ### The two readers -/

/-- A host shows a file in the way in which a tree does. -/
structure Task.Host.Shows {σ : Type} (host : Task.Host σ) (s : σ) (t : FileTree) (path : Path) :
    Prop where
  isFile : host.isFile s path = t.isFile path
  read : (host.read s path).1 = t.readText path

namespace Options

variable {t t' : FileTree} {path : Path} {o : Options}

theorem isSome_read_of_parse {text : String} (h : parse path text = .ok o) :
    (Toml.read text).isSome := by
  rw [parse] at h
  split at h
  · cases h
  · next htoml => rw [htoml]; rfl

/-- Where the strict reader comes to options, the tolerant one comes to the same. -/
theorem parse_lossy {bytes : List UInt8} {text : String}
    (hstrict : Text.Utf8.strict bytes = some text) (h : parse path text = .ok o) :
    parse path (Text.Utf8.lossy (Text.Utf8.dropMark bytes)) = .ok o := by
  rcases Text.Utf8.lossy_dropMark hstrict with hsame | hmark
  · rwa [hsame]
  · -- The document was accepted, so the mark that the tolerant reader drops was the only one.
    have hsome := isSome_read_of_parse h
    rw [hmark] at hsome
    rw [← h, hmark, parse, parse, ← Toml.read_mark hsome, String.ofList_toList]

/-- A file whose options can be loaded: its bytes, and their text. -/
theorem load_eq_ok (h : load t path = .ok o) :
    ∃ bytes text, t.stat path = .ok (.file bytes) ∧ Text.Utf8.strict bytes = some text ∧
      parse path text = .ok o := by
  rw [load, FileTree.isFile, FileTree.readStrict, FileTree.readBytes] at h
  rcases hstat : t.stat path with cause | (bytes | -)
  · simp [hstat] at h
  · rcases hstrict : Text.Utf8.strict bytes with - | text
    · simp [hstat, hstrict, bind, Except.bind] at h
    · exact ⟨bytes, text, rfl, hstrict, by simpa [hstat, hstrict, bind, Except.bind] using h⟩
  · simp [hstat] at h

/-- A file with a text loads as the text is parsed. -/
theorem load_of_stat {text : String} (h : t.stat path = .ok (.file (Text.Utf8.encode text))) :
    load t path = parse path text := by
  rw [load, FileTree.isFile, FileTree.readStrict, FileTree.readBytes, h]
  simp [bind, Except.bind, Text.Utf8.strict_encode]

/-- A task loads the options that were loaded before from a file that its host shows as it was. -/
theorem loadOptions_of_shows {σ : Type} {host : Task.Host σ} {s : σ} (h : load t path = .ok o)
    (hshows : host.Shows s t path) : (Task.loadOptions host (some path) s).result = .ok o := by
  obtain ⟨bytes, text, hfile, hstrict, hparse⟩ := load_eq_ok h
  have hfound : host.isFile s path = true := by rw [hshows.isFile, FileTree.isFile, hfile]
  have hread : (host.read s path).1 = .ok (Text.Utf8.lossy (Text.Utf8.dropMark bytes)) := by
    rw [hshows.read, FileTree.readText, FileTree.readBytes, hfile]
    rfl
  simp [Task.loadOptions, hfound, hread, parse_lossy hstrict hparse, Except.mapError]

/-- A tree in which a file has not changed shows it as it was. -/
theorem shows_workspace (hstat : t'.stat path = t.stat path) (start : Linter.Starter)
    (words : List String) : (Task.workspace start words).Shows t' t path where
  isFile := by simp only [Task.workspace, FileTree.isFile, hstat]
  read := by simp only [Task.workspace, FileTree.readText, FileTree.readBytes, hstat]

theorem loadOptions_of_load (h : load t path = .ok o) (hstat : t'.stat path = t.stat path)
    (start : Linter.Starter) (words : List String) :
    (Task.loadOptions (Task.workspace start words) (some path) t').result = .ok o :=
  loadOptions_of_shows h (shows_workspace hstat start words)

end Options

/-! ### The failures of a task -/

namespace Task

/-- The failures that options can be the reason for. -/
def Failure.OfOptions : Failure → Prop
  | .optionsNotFound _ | .config _ => True
  | _ => False

variable {σ : Type} {task : Task} {host : Host σ} {now : Timestamp} {s : σ}

/-- A run that fails for its options has not loaded them. -/
theorem loadOptions_of_execute {cause : Failure}
    (h : (task.execute host now s).result = .error cause) (hcause : cause.OfOptions) :
    (loadOptions host task.optionsFile s).result = .error cause := by
  obtain ⟨shown, hends⟩ := exists_ends task host now s
  have hshown : shown.result = .error cause := hends.result_eq.symm.trans h
  cases hends with
  | unloaded _ hloads =>
    obtain ⟨asked, -, hload⟩ := hloads.loadOptions_eq
    cases hshown
    rw [hload]
  | refused _ _ _ hrefused =>
    cases hshown
    cases hrefused <;> exact hcause.elim
  | idle | unreported | reported => cases hshown
  | uncreated | unwritten =>
    cases hshown
    exact hcause.elim

end Task

namespace Cli.LintRequest

/-- The options of a run are those that its task loads, as long as the options file is shown as it
    was. -/
theorem loadOptions_task_of_shows (r : LintRequest) (sources : List Path) {σ : Type}
    {host : Task.Host σ} {s : σ} {t : FileTree} {o : Options} (hoptions : r.options t = .ok o)
    (hshows : ∀ path ∈ r.optionsPath t, host.Shows s t path) :
    (Task.loadOptions host (r.task t sources).optionsFile s).result = .ok o := by
  rw [options] at hoptions
  rcases hpath : r.optionsPath t with - | path
  · rw [hpath] at hoptions
    simpa [task, hpath, Task.loadOptions] using hoptions
  · rw [hpath] at hoptions
    simp only [task, hpath]
    exact Options.loadOptions_of_shows hoptions (hshows path hpath)

theorem loadOptions_task (r : LintRequest) (sources : List Path) (start : Linter.Starter)
    (words : List String) {t t' : FileTree} {o : Options} (hoptions : r.options t = .ok o)
    (hstat : ∀ path ∈ r.optionsPath t, t'.stat path = t.stat path) :
    (Task.loadOptions (Task.workspace start words) (r.task t sources).optionsFile t').result =
      .ok o :=
  r.loadOptions_task_of_shows sources hoptions fun path hpath =>
    Options.shows_workspace (hstat path hpath) start words

end Cli.LintRequest

/-- Options that were loaded from a file are loaded again by every task that names this file, as
    long as it stays as it is. So a run of the linter that comes to its task has the options of
    that task, and the task does not fail for them. -/
theorem load_reload (start : Linter.Starter) (t t' : FileTree) :
    (∀ (path : Path) (words : List String) (o : Options),
      Options.load t path = .ok o → t'.stat path = t.stat path →
      (Task.loadOptions (Task.workspace start words) (some path) t').result = .ok o) ∧
    ∀ (r : Cli.LintRequest) (sources : List Path) (now : Timestamp) (o : Options),
      r.options t = .ok o → (∀ path ∈ r.optionsPath t, t'.stat path = t.stat path) →
      let task := r.task t sources
      let host := Task.workspace start o.linterCommand
      (Task.loadOptions host task.optionsFile t').result = .ok o ∧
        (∀ path, (task.execute host now t').result ≠ .error (.optionsNotFound path)) ∧
        ∀ cause, (task.execute host now t').result ≠ .error (.config cause) := by
  refine ⟨fun path words o hload hstat => Options.loadOptions_of_load hload hstat start words, ?_⟩
  intro r sources now o hoptions hstat task host
  have hloaded : (Task.loadOptions host task.optionsFile t').result = .ok o :=
    r.loadOptions_task sources start o.linterCommand hoptions hstat
  have hnone {cause : Task.Failure} (hcause : cause.OfOptions) :
      (task.execute host now t').result ≠ .error cause := by
    intro h
    rw [Task.loadOptions_of_execute h hcause] at hloaded
    cases hloaded
  exact ⟨hloaded, fun path => hnone trivial, fun cause => hnone trivial⟩

/-- An options file that begins with a byte order mark and has one value that is not the default. -/
def markedText : String := "\uFEFFcolor = ['never']"

theorem parse_markedText (path : Path) :
    Options.parse path markedText = .ok { color := .never } := by
  have hread : Toml.read markedText = some [("color", .array [.string "never"])] := by cbv
  rw [Options.parse, hread]
  rfl

/-- The mark does not count for either reader. -/
theorem load_reload_marked :
    let t : FileTree := { entries := [(["o.toml"], .file (Text.Utf8.encode markedText))] }
    Options.load t ⟨"o.toml"⟩ = .ok { color := .never } ∧
    (Task.loadOptions (Task.workspace (fun t _ => (.error .notFound, t)) ["lint"])
      (some ⟨"o.toml"⟩) t).result = .ok { color := .never } := by
  intro t
  have hstat : t.stat ⟨"o.toml"⟩ = .ok (.file (Text.Utf8.encode markedText)) := by rfl
  have hload : Options.load t ⟨"o.toml"⟩ = .ok { color := .never } := by
    rw [Options.load, FileTree.isFile, FileTree.readStrict, FileTree.readBytes, hstat]
    simp [bind, Except.bind, Text.Utf8.strict_encode, parse_markedText]
  exact ⟨hload, (load_reload (fun t _ => (.error .notFound, t)) t t).1
    ⟨"o.toml"⟩ ["lint"] { color := .never } hload rfl⟩

end LintRun
