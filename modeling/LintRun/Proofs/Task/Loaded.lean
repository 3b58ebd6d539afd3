import LintRun.Proofs.Task.Linted

/-! What comes of the options of a task, by the first step that fails: looking for the file, reading
    it, parsing it, and finding its options usable. One of the rules always fits, by `exists_loads`,
    and loading gives what it says, by `Loads.loadOptions_eq`. -/

namespace LintRun

/-- What a text gives as options, by the first thing that is wrong with it. -/
inductive Options.Parsed {π : Type} (path : π) (text : String) :
    Except (ConfigError π) Options → Prop where
  | malformed (htoml : Toml.read text = none) : Parsed path text (.error (.parse path .malformed))
  | unfit {document : Toml.Fields} {cause : DecodeError} (htoml : Toml.read text = some document)
      (hdecode : ofDocument document = .error cause) :
      Parsed path text (.error (.parse path (.unfit cause)))
  | emptyMarker {document : Toml.Fields} {options : Options}
      (htoml : Toml.read text = some document) (hdecode : ofDocument document = .ok options)
      (hmarker : options.markers.start = "" ∨ options.markers.stop = "") :
      Parsed path text (.error (.invalid path .emptyMarker))
  | emptyCommand {document : Toml.Fields} {options : Options}
      (htoml : Toml.read text = some document) (hdecode : ofDocument document = .ok options)
      (hstart : options.markers.start ≠ "") (hstop : options.markers.stop ≠ "")
      (hcommand : options.linter.command = some []) :
      Parsed path text (.error (.invalid path .emptyCommand))
  | accepted {document : Toml.Fields} {options : Options}
      (htoml : Toml.read text = some document) (hdecode : ofDocument document = .ok options)
      (hstart : options.markers.start ≠ "") (hstop : options.markers.stop ≠ "")
      (hcommand : options.linter.command ≠ some []) : Parsed path text (.ok options)

namespace Options

variable {π : Type} {path : π} {text : String} {result : Except (ConfigError π) Options}

theorem Parsed.parse_eq (h : Parsed path text result) : parse path text = result := by
  cases h with
  | malformed htoml => rw [parse, htoml]
  | unfit htoml hdecode =>
    rw [parse, htoml]
    simp [usable, hdecode]
  | emptyMarker htoml hdecode hmarker =>
    rw [parse, htoml]
    simp [usable, hdecode, defect?, hmarker]
  | emptyCommand htoml hdecode hstart hstop hcommand =>
    rw [parse, htoml]
    simp [usable, hdecode, defect?, hstart, hstop, hcommand]
  | accepted htoml hdecode hstart hstop hcommand =>
    rw [parse, htoml]
    simp [usable, hdecode, defect?, hstart, hstop, hcommand]

theorem exists_parsed (path : π) (text : String) : ∃ result, Parsed path text result := by
  rcases htoml : Toml.read text with - | document
  · exact ⟨_, .malformed htoml⟩
  rcases hdecode : ofDocument document with cause | options
  · exact ⟨_, .unfit htoml hdecode⟩
  by_cases hmarker : options.markers.start = "" ∨ options.markers.stop = ""
  · exact ⟨_, .emptyMarker htoml hdecode hmarker⟩
  obtain ⟨hstart, hstop⟩ := not_or.1 hmarker
  by_cases hcommand : options.linter.command = some []
  · exact ⟨_, .emptyCommand htoml hdecode hstart hstop hcommand⟩
  · exact ⟨_, .accepted htoml hdecode hstart hstop hcommand⟩

end Options

namespace Task

variable {σ π : Type}

/-- What comes of loading the options of a task, and the state that is left. -/
inductive Loads (host : Host σ π) :
    Option π → σ → Except (Failure π) Options → σ → Prop where
  | defaults {s : σ} : Loads host none s (.ok {}) s
  | missing {path : π} {s : σ} (hmissing : host.isFile s path = false) :
      Loads host (some path) s (.error (.optionsNotFound path)) s
  | unreadable {path : π} {cause : OsError} {s s₁ : σ} (hfound : host.isFile s path = true)
      (hread : host.read s path = (.error cause, s₁)) :
      Loads host (some path) s (.error (.config (.io path cause))) s₁
  | unusable {path : π} {text : String} {cause : ConfigError π} {s s₁ : σ}
      (hfound : host.isFile s path = true) (hread : host.read s path = (.ok text, s₁))
      (hparsed : Options.Parsed path text (.error cause)) :
      Loads host (some path) s (.error (.config cause)) s₁
  | file {path : π} {text : String} {options : Options} {s s₁ : σ}
      (hfound : host.isFile s path = true) (hread : host.read s path = (.ok text, s₁))
      (hparsed : Options.Parsed path text (.ok options)) :
      Loads host (some path) s (.ok options) s₁

variable {host : Host σ π} {file : Option π} {result : Except (Failure π) Options} {s s₁ : σ}

theorem Loads.loadOptions_eq (h : Loads host file s result s₁) :
    ∃ asked, Silent asked ∧ loadOptions host file s = ⟨result, asked, s₁⟩ := by
  cases h with
  | defaults => exact ⟨[], by simp [Silent], rfl⟩
  | @missing path _ hmissing =>
    refine ⟨[.looked path false], silent_single.2 ⟨rfl, rfl⟩, ?_⟩
    simp [loadOptions, hmissing]
  | @unreadable path cause _ _ hfound hread =>
    refine ⟨[.looked path true, .read path (.error cause)],
      by simp [Silent, Event.entry?, Event.report?], ?_⟩
    simp [loadOptions, hfound, hread]
  | @unusable path text _ _ _ hfound hread hparsed =>
    refine ⟨[.looked path true, .read path (.ok text)],
      by simp [Silent, Event.entry?, Event.report?], ?_⟩
    simp [loadOptions, hfound, hread, hparsed.parse_eq, Except.mapError]
  | @file path text _ _ _ hfound hread hparsed =>
    refine ⟨[.looked path true, .read path (.ok text)],
      by simp [Silent, Event.entry?, Event.report?], ?_⟩
    simp [loadOptions, hfound, hread, hparsed.parse_eq, Except.mapError]

theorem exists_loads (host : Host σ π) (file : Option π) (s : σ) :
    ∃ result s₁, Loads host file s result s₁ := by
  rcases file with - | path
  · exact ⟨_, _, .defaults⟩
  rcases hfound : host.isFile s path
  · exact ⟨_, _, .missing hfound⟩
  rcases hread : host.read s path with ⟨cause | text, s₁⟩
  · exact ⟨_, _, .unreadable hfound hread⟩
  obtain ⟨cause | options, hparsed⟩ := Options.exists_parsed path text
  · exact ⟨_, _, .unusable hfound hread hparsed⟩
  · exact ⟨_, _, .file hfound hread hparsed⟩

end Task

end LintRun
