import LintRun.Options.Locate
import LintRun.Proofs.Text.Utf8
import LintRun.Proofs.Toml.Distinct
import Mathlib

/-! What a check of an options file reports. The names in a document are checked against a table of
    sections and fields, and its values by reading the options from it. `Misnamed` says without the
    check which names are at fault, and `Complete` that a report lists exactly these, each once and
    in order, and then why there are no options, if there are none. A report is complete but for
    the tables that are taken for a date or time, since their first key is the one that stands for
    it (`validateFile_complete_iff`): in an undated document there are none. -/

namespace LintRun

namespace Toml

/-- The fields of a value that is a table. -/
def Value.fields? : Value → Option Fields
  | .table fields => some fields
  | _ => none

end Toml

namespace Options

/-! ### Known names -/

/-- The sections of an options file, and the names of their fields. -/
def knownKeys : List (String × List String) :=
  [("linter", ["variant", "command", "options"]), ("include", ["js", "css", "html"]),
    ("ignore", ["start", "end"]), ("output", ["treat_violations_as_warnings", "report_file"]),
    ("color", ["ui"])]

/-- The sections and fields that are set when options are read. -/
theorem map_schema : schema.map (fun part => (part.name, part.keys)) = knownKeys := rfl

theorem mem_knownKeys_of_find? {name : String} {part : SectionSchema}
    (h : schema.find? (·.name = name) = some part) :
    part.name = name ∧ (name, part.keys) ∈ knownKeys := by
  have hname : part.name = name := by simpa using List.find?_some h
  have hmem : (part.name, part.keys) ∈ knownKeys := by
    rw [← map_schema]
    exact List.mem_map_of_mem (List.mem_of_find?_eq_some h)
  exact ⟨hname, hname ▸ hmem⟩

theorem not_mem_knownKeys_of_find? {name : String} (h : schema.find? (·.name = name) = none) :
    ∀ part ∈ knownKeys, part.1 ≠ name := by
  rw [← map_schema, List.forall_mem_map]
  simpa using h

/-- A section is known by its name. -/
theorem keys_unique {name : String} {keys keys' : List String} (h : (name, keys) ∈ knownKeys)
    (h' : (name, keys') ∈ knownKeys) : keys = keys' := by
  have hnodup : (knownKeys.map (·.1)).Nodup := by decide
  exact congrArg Prod.snd (List.inj_on_of_nodup_map hnodup h h' rfl)

/-! ### Misnamed fields -/

/-- What is wrong with the names of a document, if `fields?` gives the fields of its tables. -/
inductive Misnamed (fields? : Toml.Value → Option Toml.Fields) (document : Toml.Fields) :
    OptionsProblem → Prop where
  | unknownSection {name : String} {v : Toml.Value} (hname : ∀ part ∈ knownKeys, part.1 ≠ name)
      (hv : (name, v) ∈ document) : Misnamed fields? document (.unknownSection name)
  | notATable {name : String} {keys : List String} {v : Toml.Value}
      (hname : (name, keys) ∈ knownKeys) (hv : (name, v) ∈ document) (htable : fields? v = none) :
      Misnamed fields? document (.notATable name)
  | unknownField {name key : String} {keys : List String} {v w : Toml.Value} {fields : Toml.Fields}
      (hname : (name, keys) ∈ knownKeys) (hv : (name, v) ∈ document)
      (htable : fields? v = some fields) (hkey : (key, w) ∈ fields) (hunknown : key ∉ keys) :
      Misnamed fields? document (.unknownField name key)

variable {document : Toml.Fields} {problem : OptionsProblem} {name : String} {v : Toml.Value}

theorem mem_byName {fields : Toml.Fields} {f : String × Toml.Value} :
    f ∈ byName fields ↔ f ∈ fields :=
  (List.mergeSort_perm _ _).mem_iff

theorem mem_unknownFields {part : SectionSchema} {fields : Toml.Fields} :
    problem ∈ unknownFields part fields ↔
      ∃ key w, (key, w) ∈ fields ∧ key ∉ part.keys ∧ problem = .unknownField part.name key := by
  simp only [unknownFields, List.mem_filterMap, mem_byName, List.contains_eq_mem,
    decide_eq_true_eq]
  constructor
  · rintro ⟨⟨key, w⟩, hmem, hproblem⟩
    split at hproblem
    · cases hproblem
    · next hkey =>
      cases hproblem
      exact ⟨key, w, hmem, hkey, rfl⟩
  · rintro ⟨key, w, hmem, hkey, rfl⟩
    exact ⟨(key, w), hmem, if_neg hkey⟩

/-- The problems that are found are those that there are. -/
theorem mem_nameProblems :
    problem ∈ nameProblems document ↔ Misnamed tableFields? document problem := by
  simp only [nameProblems, List.mem_flatMap, mem_byName]
  constructor
  · rintro ⟨⟨name, v⟩, hv, hproblem⟩
    simp only [sectionProblems] at hproblem
    split at hproblem
    · next hfind =>
      rw [List.mem_singleton.1 hproblem]
      exact .unknownSection (not_mem_knownKeys_of_find? hfind) hv
    · next part hfind =>
      obtain ⟨rfl, hknown⟩ := mem_knownKeys_of_find? hfind
      split at hproblem
      · next htable =>
        rw [List.mem_singleton.1 hproblem]
        exact .notATable hknown hv htable
      · next fields htable =>
        obtain ⟨key, w, hkey, hunknown, rfl⟩ := mem_unknownFields.1 hproblem
        exact .unknownField hknown hv htable hkey hunknown
  · intro h
    cases h with
    | @unknownSection name v hname hv =>
      refine ⟨(name, v), hv, ?_⟩
      cases hfind : schema.find? (·.name = name) with
      | none => simp [sectionProblems, hfind]
      | some part => exact absurd rfl (hname _ (mem_knownKeys_of_find? hfind).2)
    | @notATable name keys v hname hv htable =>
      refine ⟨(name, v), hv, ?_⟩
      cases hfind : schema.find? (·.name = name) with
      | none => exact absurd rfl (not_mem_knownKeys_of_find? hfind _ hname)
      | some part => simp [sectionProblems, hfind, htable]
    | @unknownField name key keys v w fields hname hv htable hkey hunknown =>
      refine ⟨(name, v), hv, ?_⟩
      cases hfind : schema.find? (·.name = name) with
      | none => exact absurd rfl (not_mem_knownKeys_of_find? hfind _ hname)
      | some part =>
        obtain ⟨rfl, hknown⟩ := mem_knownKeys_of_find? hfind
        obtain rfl := keys_unique hname hknown
        simp only [sectionProblems, hfind, htable]
        exact mem_unknownFields.2 ⟨key, w, hkey, hunknown, rfl⟩

/-! ### The order of a report -/

end Options

/-- Where a problem is: a section, or a field in it. -/
def OptionsProblem.place : OptionsProblem → List String
  | .unknownSection name | .notATable name => [name]
  | .unknownField part name => [part, name]
  | .unusable _ => []

namespace Options

theorem pairwise_byName {fields : Toml.Fields} (h : (fields.map (·.1)).Nodup) :
    (byName fields).Pairwise fun f g => f.1 < g.1 := by
  have htrans : ∀ f g k : String × Toml.Value,
      decide (f.1 ≤ g.1) = true → decide (g.1 ≤ k.1) = true → decide (f.1 ≤ k.1) = true := by
    simp only [decide_eq_true_eq]
    exact fun _ _ _ => String.le_trans
  have htotal : ∀ f g : String × Toml.Value, (decide (f.1 ≤ g.1) || decide (g.1 ≤ f.1)) = true := by
    simp [String.le_total]
  have hle : (byName fields).Pairwise fun f g => f.1 ≤ g.1 :=
    (List.pairwise_mergeSort htrans htotal fields).imp of_decide_eq_true
  have hne : (byName fields).Pairwise fun f g => f.1 ≠ g.1 := by
    have hkeys : ((byName fields).map (·.1)).Nodup :=
      ((List.mergeSort_perm _ _).map _).nodup_iff.2 h
    exact List.pairwise_map.1 (List.nodup_iff_pairwise_ne.1 hkeys)
  exact (hle.and hne).imp fun ⟨hle, hne⟩ => lt_of_le_of_ne hle hne

/-- The problems of a section are all in it. -/
theorem exists_place_eq (h : problem ∈ sectionProblems name v) :
    ∃ rest, problem.place = name :: rest := by
  simp only [sectionProblems] at h
  split at h
  · rw [List.mem_singleton.1 h]
    exact ⟨[], rfl⟩
  · next part hfind =>
    obtain ⟨rfl, -⟩ := mem_knownKeys_of_find? hfind
    split at h
    · rw [List.mem_singleton.1 h]
      exact ⟨[], rfl⟩
    · obtain ⟨key, w, -, -, rfl⟩ := mem_unknownFields.1 h
      exact ⟨[key], rfl⟩

theorem pairwise_unknownFields {part : SectionSchema} {fields : Toml.Fields}
    (h : (fields.map (·.1)).Nodup) :
    (unknownFields part fields).Pairwise fun p q => p.place < q.place := by
  rw [unknownFields, List.pairwise_filterMap]
  refine (pairwise_byName h).imp fun {f g} hlt p hp q hq => ?_
  simp only [Option.ite_none_left_eq_some, Option.some.injEq] at hp hq
  obtain ⟨-, rfl⟩ := hp
  obtain ⟨-, rfl⟩ := hq
  exact List.cons_lt_cons_iff.2 (.inr ⟨rfl, List.cons_lt_cons_iff.2 (.inl hlt)⟩)

theorem tableFields?_eq_some {fields : Toml.Fields} (h : tableFields? v = some fields) :
    v = .table fields := by
  unfold tableFields? at h
  split at h
  · split at h
    · cases h
    · cases h
      rfl
  · cases h
    rfl
  · cases h

theorem pairwise_sectionProblems (h : v.Distinct) :
    (sectionProblems name v).Pairwise fun p q => p.place < q.place := by
  unfold sectionProblems
  split
  · exact List.pairwise_singleton _ _
  · split
    · exact List.pairwise_singleton _ _
    · next htable =>
      rw [tableFields?_eq_some htable] at h
      exact pairwise_unknownFields h.keys

/-- The problems of a document stand in the order of their places, so none is there twice. -/
theorem pairwise_nameProblems (h : (Toml.Value.table document).Distinct) :
    (nameProblems document).Pairwise fun p q => p.place < q.place := by
  rw [nameProblems, List.pairwise_flatMap]
  constructor
  · exact fun f hf => pairwise_sectionProblems (h.of_mem (mem_byName.1 hf))
  · -- Places of different sections differ in their first name.
    refine (pairwise_byName h.keys).imp fun {f g} hlt p hp q hq => ?_
    obtain ⟨_, hp⟩ := exists_place_eq hp
    obtain ⟨_, hq⟩ := exists_place_eq hq
    rw [hp, hq]
    exact List.cons_lt_cons_iff.2 (.inl hlt)

/-! ### Whole reports -/

/-- A report lists what is wrong with the names of a document, in the order of places and so each
    once, and then why the text gives no options, if it gives none. -/
def Complete (fields? : Toml.Value → Option Toml.Fields) (path : Path) (text : String)
    (document : Toml.Fields) (report : List OptionsProblem) : Prop :=
  ∃ names : List OptionsProblem, names.Pairwise (fun p q => p.place < q.place) ∧
    (∀ problem, problem ∈ names ↔ Misnamed fields? document problem) ∧
    ((∃ o, parse path text = .ok o) ∧ report = names ∨
      ∃ cause, parse path text = .error cause ∧ report = names ++ [.unusable cause])

variable {t : FileTree} {path : Path} {text : String} {report : List OptionsProblem}
  {fields? fields?' : Toml.Value → Option Toml.Fields}

theorem validate_complete (path : Path) (hread : Toml.read text = some document)
    (hdated : fieldsWellDated document = true) :
    ∃ report, validate path text = .ok report ∧
      Complete tableFields? path text document report := by
  have hpairwise := pairwise_nameProblems (Toml.distinct_of_read hread)
  rcases hparse : parse path text with cause | o
  · refine ⟨nameProblems document ++ [.unusable cause], ?_, nameProblems document, hpairwise,
      fun _ => mem_nameProblems, .inr ⟨cause, hparse, rfl⟩⟩
    simp [validate, hread, hdated, hparse]
  · refine ⟨nameProblems document, ?_, nameProblems document, hpairwise,
      fun _ => mem_nameProblems, .inl ⟨⟨o, hparse⟩, rfl⟩⟩
    simp [validate, hread, hdated, hparse]

/-- A report tells what is wrong with the names, whatever it adds to that. -/
theorem Complete.misnamed_iff (h : Complete fields? path text document report)
    (h' : Complete fields?' path text document report) :
    Misnamed fields? document problem ↔ Misnamed fields?' document problem := by
  obtain ⟨names, -, hnames, hreport⟩ := h
  obtain ⟨names', -, hnames', hreport'⟩ := h'
  -- One text has one result, so both reports add the same to their names.
  have heq : names = names' := by
    rcases hreport with ⟨⟨o, hparse⟩, rfl⟩ | ⟨cause, hparse, rfl⟩ <;>
      rcases hreport' with ⟨⟨o', hparse'⟩, heq⟩ | ⟨cause', hparse', heq⟩
    · exact heq
    · rw [hparse] at hparse'
      cases hparse'
    · rw [hparse] at hparse'
      cases hparse'
    · rw [hparse] at hparse'
      cases hparse'
      exact List.append_cancel_right heq
  rw [← hnames, ← hnames', heq]

/-- A document in which every table that is taken for a date or time has the text of one, and no
    section is taken for one. -/
structure Undated (document : Toml.Fields) : Prop where
  values : fieldsWellDated document = true
  sections : ∀ part ∈ knownKeys, ∀ v rest,
    (part.1, .table ((Toml.dateTimeKey, v) :: rest)) ∉ document

theorem tableFields?_eq_fields? (h : ∀ w rest, v ≠ .table ((Toml.dateTimeKey, w) :: rest)) :
    tableFields? v = v.fields? := by
  unfold tableFields?
  split
  · next key w rest =>
    have hkey : key ≠ Toml.dateTimeKey := by
      rintro rfl
      exact h w rest rfl
    rw [if_neg hkey]
    rfl
  · rfl
  · next hother hempty =>
    cases v with
    | table fields =>
      rcases fields with - | ⟨⟨key, w⟩, rest⟩
      · exact absurd rfl hempty
      · exact absurd rfl (hother key w rest)
    | _ => rfl

theorem Misnamed.congr
    (heq : ∀ name keys v, (name, keys) ∈ knownKeys → (name, v) ∈ document → fields? v = fields?' v)
    (h : Misnamed fields? document problem) : Misnamed fields?' document problem := by
  cases h with
  | unknownSection hname hv => exact .unknownSection hname hv
  | notATable hname hv htable => exact .notATable hname hv (heq _ _ _ hname hv ▸ htable)
  | unknownField hname hv htable hkey hunknown =>
    exact .unknownField hname hv (heq _ _ _ hname hv ▸ htable) hkey hunknown

theorem Undated.misnamed_iff (h : Undated document) :
    Misnamed tableFields? document problem ↔ Misnamed Toml.Value.fields? document problem := by
  have heq : ∀ name keys v, (name, keys) ∈ knownKeys → (name, v) ∈ document →
      tableFields? v = v.fields? := by
    intro name keys v hname hv
    refine tableFields?_eq_fields? fun w rest hdated => ?_
    rw [hdated] at hv
    exact h.sections (name, keys) hname w rest hv
  exact ⟨.congr heq, .congr fun name keys v hname hv => (heq name keys v hname hv).symm⟩

/-- A section that is taken for a date is reported as no table, although it is one. -/
theorem not_misnamed_of_dated (h : (Toml.Value.table document).Distinct)
    {part : String × List String} {w : Toml.Value} {rest : Toml.Fields} (hpart : part ∈ knownKeys)
    (hdated : (part.1, .table ((Toml.dateTimeKey, w) :: rest)) ∈ document) :
    Misnamed tableFields? document (.notATable part.1) ∧
      ¬ Misnamed Toml.Value.fields? document (.notATable part.1) := by
  constructor
  · exact .notATable hpart hdated (by simp [tableFields?])
  · intro hmisnamed
    cases hmisnamed with
    | notATable hname hv htable =>
      rw [h.unique hv hdated] at htable
      cases htable

theorem validateFile_eq (h : t.readStrict path = .ok text) :
    validateFile t path = validate path text := by
  rw [validateFile, h]

theorem validate_of_not_wellDated (hread : Toml.read text = some document)
    (hdated : ¬ fieldsWellDated document = true) :
    validate path text = .error (.parse path .malformed) := by
  simp [validate, hread, hdated]

theorem wellDated_of_validate (hread : Toml.read text = some document)
    (hreport : validate path text = .ok report) : fieldsWellDated document = true := by
  by_contra hdated
  rw [validate_of_not_wellDated hread hdated] at hreport
  cases hreport

theorem complete_of_validate (hread : Toml.read text = some document)
    (hreport : validate path text = .ok report) :
    Complete tableFields? path text document report := by
  obtain ⟨report', hreport', hcomplete⟩ :=
    validate_complete path hread (wellDated_of_validate hread hreport)
  rw [hreport] at hreport'
  cases hreport'
  exact hcomplete

/-- A report is complete exactly if its document is undated. -/
theorem validate_complete_iff (hread : Toml.read text = some document) :
    (∃ report, validate path text = .ok report ∧
      Complete Toml.Value.fields? path text document report) ↔ Undated document := by
  constructor
  · rintro ⟨report, hreport, hcomplete⟩
    have hcomplete' := complete_of_validate hread hreport
    refine ⟨wellDated_of_validate hread hreport, fun part hpart w rest hmem => ?_⟩
    -- The report holds such a section as no table, which a complete one would not.
    obtain ⟨hfound, hwrong⟩ := not_misnamed_of_dated (Toml.distinct_of_read hread) hpart hmem
    exact hwrong ((hcomplete.misnamed_iff hcomplete').2 hfound)
  · intro hundated
    obtain ⟨report, hreport, names, hpairwise, hnames, hend⟩ :=
      validate_complete path hread hundated.values
    exact ⟨report, hreport, names, hpairwise,
      fun problem => (hnames problem).trans hundated.misnamed_iff, hend⟩

/-- No name of a document is passed over when options are read from it. -/
def AllNamesKnown (document : Toml.Fields) : Prop :=
  ∀ name v, (name, v) ∈ document → ∃ keys fields, (name, keys) ∈ knownKeys ∧ v = .table fields ∧
    ∀ key w, (key, w) ∈ fields → key ∈ keys

theorem allNamesKnown (h : ∀ problem, ¬ Misnamed tableFields? document problem) :
    AllNamesKnown document := by
  intro name v hv
  by_cases hname : ∃ keys, (name, keys) ∈ knownKeys
  · obtain ⟨keys, hname⟩ := hname
    rcases htable : tableFields? v with - | fields
    · exact absurd (.notATable hname hv htable) (h _)
    · refine ⟨keys, fields, hname, tableFields?_eq_some htable, fun key w hkey => ?_⟩
      by_contra hunknown
      exact h _ (.unknownField hname hv htable hkey hunknown)
  · refine absurd (.unknownSection (fun part hpart hpartName => hname ⟨part.2, ?_⟩) hv) (h _)
    rwa [← hpartName]

/-- An empty report is one on a text that gives options and whose names are all known. -/
theorem Complete.of_empty (h : Complete tableFields? path text document []) :
    (∃ o, parse path text = .ok o) ∧ AllNamesKnown document := by
  obtain ⟨names, -, hnames, ⟨hparse, rfl⟩ | ⟨cause, -, hreport⟩⟩ := h
  · exact ⟨hparse, allNamesKnown fun problem hproblem => by simpa using (hnames problem).2 hproblem⟩
  · simp at hreport

/-- A report on a text that gives options only tells what is wrong with names. -/
theorem Complete.of_parse {o : Options} (h : Complete fields? path text document report)
    (hparse : parse path text = .ok o) : ∀ cause, .unusable cause ∉ report := by
  obtain ⟨names, -, hnames, ⟨-, rfl⟩ | ⟨cause, hcause, -⟩⟩ := h
  · intro cause hmem
    cases (hnames _).1 hmem
  · rw [hparse] at hcause
    cases hcause

/-- What a check of a text reports. A text that is no TOML is refused. For one that is, the report
    is complete exactly if its document is undated, and otherwise either the text is refused too,
    or a section that begins with the key of a date is no table for the report. An empty report
    means that the text gives options and no name is passed over, and a text that gives options is
    only reported for its names. -/
theorem validateFile_complete_iff (h : t.readStrict path = .ok text) :
    (Toml.read text = none → validateFile t path = .error (.parse path .malformed) ∧
      parse path text = .error (.parse path .malformed)) ∧
    ∀ document, Toml.read text = some document →
      ((∃ report, validateFile t path = .ok report ∧
        Complete Toml.Value.fields? path text document report) ↔ Undated document) ∧
      (¬ fieldsWellDated document = true → validateFile t path = .error (.parse path .malformed)) ∧
      (fieldsWellDated document = true → ∃ report, validateFile t path = .ok report ∧
        Complete tableFields? path text document report) ∧
      (validateFile t path = .ok [] →
        (∃ o, parse path text = .ok o) ∧ AllNamesKnown document) ∧
      ∀ o report, parse path text = .ok o → validateFile t path = .ok report →
        ∀ cause, .unusable cause ∉ report := by
  rw [validateFile_eq h]
  refine ⟨fun hread => ?_, fun document hread => ⟨validate_complete_iff hread,
    validate_of_not_wellDated hread, validate_complete path hread,
    fun hreport => (complete_of_validate hread hreport).of_empty,
    fun o report hparse hreport => (complete_of_validate hread hreport).of_parse hparse⟩⟩
  simp [validate, parse, hread]

/-- A tree with one file. -/
def treeOf (text : String) : FileTree :=
  { entries := [(["o.toml"], .file (Text.Utf8.encode text))] }

theorem readStrict_treeOf (text : String) : (treeOf text).readStrict ⟨"o.toml"⟩ = .ok text := by
  have hstat : (treeOf text).stat ⟨"o.toml"⟩ = .ok (.file (Text.Utf8.encode text)) := by rfl
  rw [FileTree.readStrict, FileTree.readBytes, hstat]
  simp [bind, Except.bind, Text.Utf8.strict_encode]

/-- The report on an unknown section and an unknown field is complete. -/
theorem validateFile_complete_iff_unknown :
    (treeOf "zip = []\n[linter]\nmode = ''").readStrict ⟨"o.toml"⟩ =
      .ok "zip = []\n[linter]\nmode = ''" ∧
    ∃ report, validateFile (treeOf "zip = []\n[linter]\nmode = ''") ⟨"o.toml"⟩ = .ok report ∧
      Complete Toml.Value.fields? ⟨"o.toml"⟩ "zip = []\n[linter]\nmode = ''"
        [("zip", .array []), ("linter", .table [("mode", .string "")])] report := by
  have hread : Toml.read "zip = []\n[linter]\nmode = ''" =
      some [("zip", .array []), ("linter", .table [("mode", .string "")])] := by cbv
  have hundated : Undated [("zip", .array []), ("linter", .table [("mode", .string "")])] := by
    refine ⟨by decide +kernel, fun part _ w rest hmem => ?_⟩
    simp [Toml.dateTimeKey] at hmem
  have h := readStrict_treeOf "zip = []\n[linter]\nmode = ''"
  exact ⟨h, ((validateFile_complete_iff h).2 _ hread).1.2 hundated⟩

/-- Flags of a linter that begin with the key of a date but give none. -/
def datedText : String :=
  "[linter.options.d]\n\"$__toml_private_datetime\" = \"24:00:00\"\nother = 1\n"

theorem read_datedText :
    ∃ document, Toml.read datedText = some document ∧ ¬ fieldsWellDated document = true := by
  have hread : (Toml.read datedText).map fieldsWellDated = some false := by decide +kernel
  obtain ⟨document, hdocument, hdated⟩ := Option.map_eq_some_iff.1 hread
  exact ⟨document, hdocument, by simp [hdated]⟩

theorem parse_datedText : ∃ o, parse (⟨"o.toml"⟩ : Path) datedText = .ok o := by
  have hparse : (parse (⟨"o.toml"⟩ : Path) datedText).isOk = true := by decide +kernel
  rcases h : parse (⟨"o.toml"⟩ : Path) datedText with cause | o
  · rw [h] at hparse
    cases hparse
  · exact ⟨o, rfl⟩

/-- A check refuses a text that is TOML and gives options. -/
theorem validateFile_dated_flags :
    (treeOf datedText).readStrict ⟨"o.toml"⟩ = .ok datedText ∧
    (∃ document, Toml.read datedText = some document) ∧
    (∃ o, parse (⟨"o.toml"⟩ : Path) datedText = .ok o) ∧
    validateFile (treeOf datedText) ⟨"o.toml"⟩ = .error (.parse ⟨"o.toml"⟩ .malformed) := by
  obtain ⟨document, hread, hdated⟩ := read_datedText
  refine ⟨readStrict_treeOf _, ⟨document, hread⟩, parse_datedText, ?_⟩
  rw [validateFile_eq (readStrict_treeOf datedText)]
  exact validate_of_not_wellDated hread hdated

end Options

end LintRun
