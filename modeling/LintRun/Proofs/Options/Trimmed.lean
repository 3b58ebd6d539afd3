import LintRun.Proofs.Options.Validated
import LintRun.Proofs.Toml.Compared
import Mathlib

/-! Documents without what nobody reads. Names that are not known can be taken out of a document,
    and items of an array that stands for a section and has more of them than this has fields. The
    options of a document are the same without them, and so is the error of a document that has no
    options (`usable_trim`). A report on names is the same but for the names taken out, if no table
    ceases or begins to be taken for a date or time by what is its first key then
    (`usable_trim_keyReport_trim_iff`). -/

namespace LintRun.Options

/-! ### Trimming a document -/

/-- What is to be taken out: sections, fields of sections, and items beyond the last field. -/
structure Removal where
  part : String → Bool
  field : String → String → Bool
  item : String → Nat → Bool

namespace Removal

/-- The fields of a section that are left. Known ones all stay. -/
def fieldsLeft (r : Removal) (name : String) (keys : List String) (fields : Toml.Fields) :
    Toml.Fields :=
  fields.filter fun f => keys.contains f.1 || !r.field name f.1

/-- Of items that no field stands for, those that are left. -/
def itemsLeft (r : Removal) (name : String) (items : List Toml.Value) : List Toml.Value :=
  (items.zipIdx.filter fun item => !r.item name item.2).map (·.1)

/-- What becomes of the value of a section. -/
def value (r : Removal) (name : String) (keys : List String) : Toml.Value → Toml.Value
  | .table fields => .table (r.fieldsLeft name keys fields)
  | .array items => .array (items.take keys.length ++ r.itemsLeft name (items.drop keys.length))
  | v => v

/-- What becomes of a name and its value. A known section stays. -/
def entry (r : Removal) (f : String × Toml.Value) : Option (String × Toml.Value) :=
  match knownKeys.lookup f.1 with
  | some keys => some (f.1, r.value f.1 keys f.2)
  | none => if r.part f.1 then none else some f

/-- A document without what is taken out. -/
def trim (r : Removal) (document : Toml.Fields) : Toml.Fields := document.filterMap r.entry

/-- Whether a problem is with a name that is taken out. -/
def takes (r : Removal) : OptionsProblem → Bool
  | .unknownSection name => r.part name
  | .unknownField part name => r.field part name
  | _ => false

/-- The problems that are not with a name that is taken out. -/
def left (r : Removal) (problems : List OptionsProblem) : List OptionsProblem :=
  problems.filter fun problem => !r.takes problem

end Removal

variable {r : Removal} {document : Toml.Fields} {name : String} {v : Toml.Value}
  {part : SectionSchema}

theorem lookup_knownKeys (name : String) :
    knownKeys.lookup name = (schema.find? (·.name = name)).map (·.keys) := by
  have hlookup (parts : List SectionSchema) :
      (parts.map fun part => (part.name, part.keys)).lookup name =
        (parts.find? (·.name = name)).map (·.keys) := by
    induction parts with
    | nil => rfl
    | cons part parts ih =>
      by_cases h : part.name = name
      · simp [h]
      · rw [List.map_cons, List.lookup_cons, beq_false_of_ne (Ne.symm h), ih]
        simp [h]
  rw [← map_schema, hlookup]

theorem entry_of_find? (h : schema.find? (·.name = name) = some part) :
    r.entry (name, v) = some (name, r.value name part.keys v) := by
  simp [Removal.entry, lookup_knownKeys, h]

theorem entry_of_unknown (h : schema.find? (·.name = name) = none) :
    r.entry (name, v) = if r.part name then none else some (name, v) := by
  simp [Removal.entry, lookup_knownKeys, h]

/-! ### Options of a trimmed document -/

/-- Fields without a known name set nothing. -/
theorem ofTable_fieldsLeft {α : Type} (schema : List (Field α)) (r : Removal) (part : String)
    (fields : Toml.Fields) (a : α) :
    ofTable schema (r.fieldsLeft part (schema.map (·.name)) fields) a =
      ofTable schema fields a := by
  induction fields generalizing a with
  | nil => rfl
  | cons f fields ih =>
    obtain ⟨name, v⟩ := f
    rw [Removal.fieldsLeft] at ih ⊢
    cases hfind : schema.find? (·.name = name) with
    | none =>
      rw [List.filter_cons]
      split_ifs
      · simp only [ofTable, hfind, ih]
      · simp only [ofTable, hfind, ih]
    | some field =>
      have hname : field.name = name := by simpa using List.find?_some hfind
      have hknown : (schema.map (·.name)).contains name = true := by
        rw [List.contains_iff_mem, ← hname]
        exact List.mem_map_of_mem (List.mem_of_find?_eq_some hfind)
      rw [List.filter_cons_of_pos (by simp only [hknown, Bool.true_or])]
      simp only [ofTable, hfind, ih]

/-- Items beyond the last field set nothing. -/
theorem ofArray_take {α : Type} (schema : List (Field α)) (items : List Toml.Value) (a : α) :
    ofArray schema (items.take schema.length) a = ofArray schema items a := by
  induction schema generalizing items a with
  | nil => cases items <;> rfl
  | cons field schema ih =>
    cases items with
    | nil => rfl
    | cons v items => simp only [List.length_cons, List.take_succ_cons, ofArray, ih]

theorem take_append_itemsLeft (r : Removal) (name : String) (n : Nat) (items : List Toml.Value) :
    (items.take n ++ r.itemsLeft name (items.drop n)).take n = items.take n := by
  rcases Nat.le_total n items.length with hle | hle
  · rw [List.take_append_of_le_length (by simp [hle]), List.take_take, Nat.min_self]
  · rw [List.drop_of_length_le hle]
    simp [Removal.itemsLeft]

theorem ofSection_value {α : Type} (fields : List (Field α)) (r : Removal) (name : String)
    (a : α) (v : Toml.Value) :
    ofSection fields a (r.value name (fields.map (·.name)) v) = ofSection fields a v := by
  cases v with
  | table entries => exact ofTable_fieldsLeft fields r name entries a
  | array items =>
    rw [Removal.value, ofSection, ofSection, ← ofArray_take, List.length_map,
      take_append_itemsLeft, ofArray_take]
  | _ => rfl

theorem set_value (hpart : part ∈ schema) (r : Removal) (name : String) (v : Toml.Value)
    (o : Options) : part.set (r.value name part.keys v) o = part.set v o := by
  revert part
  simp only [schema, List.forall_mem_cons, ofSection_value]
  simp

theorem ofSections_trim (r : Removal) (document : Toml.Fields) (o : Options) :
    ofSections (r.trim document) o = ofSections document o := by
  induction document generalizing o with
  | nil => rfl
  | cons f document ih =>
    obtain ⟨name, v⟩ := f
    rw [Removal.trim] at ih ⊢
    rw [List.filterMap_cons]
    cases hfind : schema.find? (·.name = name) with
    | none =>
      rw [entry_of_unknown hfind]
      split_ifs <;> simp only [ofSections, hfind, ih]
    | some part =>
      rw [entry_of_find? hfind]
      simp only [ofSections, hfind, ih, set_value (List.mem_of_find?_eq_some hfind)]

/-- What nobody reads changes neither the options nor the error. -/
theorem usable_trim (r : Removal) (path : Path) (document : Toml.Fields) :
    usable path (r.trim document) = usable path document := by
  rw [usable, usable, ofDocument, ofDocument, ofSections_trim]

/-! ### Reports on a trimmed document -/

/-- What a check reports of the names of a document. There is no report where a table is taken for a
    date or time and gives none. -/
def keyReport (document : Toml.Fields) : Option (List OptionsProblem) :=
  if fieldsWellDated document then some (nameProblems document) else none

/-- A whole report is that on names, and then why there are no options, if there are none. -/
theorem validate_eq_keyReport {path : Path} {text : String}
    (hread : Toml.read text = some document) :
    validate path text =
      match keyReport document, usable path document with
      | none, _ => .error (.parse path .malformed)
      | some names, .ok _ => .ok names
      | some names, .error cause => .ok (names ++ [.unusable cause]) := by
  have hparse : parse path text = usable path document := by rw [parse, hread]
  simp only [validate, hread, hparse, keyReport]
  by_cases hdated : fieldsWellDated document = true
  · simp only [hdated, if_true]
    cases usable path document <;> rfl
  · simp [hdated]

theorem unknownFields_perm (part : SectionSchema) (fields : Toml.Fields) :
    (unknownFields part fields).Perm (fields.filterMap fun f =>
      if part.keys.contains f.1 then none else some (.unknownField part.name f.1)) :=
  (List.mergeSort_perm _ _).filterMap _

theorem nameProblems_perm (document : Toml.Fields) :
    (nameProblems document).Perm (document.flatMap fun f => sectionProblems f.1 f.2) :=
  (List.mergeSort_perm _ _).flatMap_right _

theorem unknownFields_fieldsLeft (r : Removal) (part : SectionSchema) (fields : Toml.Fields) :
    (unknownFields part (r.fieldsLeft part.name part.keys fields)).Perm
      (r.left (unknownFields part fields)) := by
  refine (unknownFields_perm _ _).trans (.trans (.of_eq ?_)
    ((unknownFields_perm part fields).symm.filter _))
  rw [Removal.fieldsLeft, List.filterMap_filter, List.filter_filterMap]
  refine List.filterMap_congr fun f _ => ?_
  have htakes : r.takes (.unknownField part.name f.1) = r.field part.name f.1 := rfl
  cases hknown : part.keys.contains f.1 <;> cases hdrop : r.field part.name f.1 <;>
    simp [Option.filter_some, htakes, hdrop]

/-- What is wrong with the names of a section, once it is trimmed and still a table if it was. -/
theorem sectionProblems_value (r : Removal) (hfind : schema.find? (·.name = name) = some part)
    (hdate : tableFields? (r.value name part.keys v) = none ↔ tableFields? v = none) :
    (sectionProblems name (r.value name part.keys v)).Perm (r.left (sectionProblems name v)) := by
  obtain ⟨hname, -⟩ := mem_knownKeys_of_find? hfind
  rcases htable : tableFields? v with - | fields
  · simp [sectionProblems, hfind, htable, hdate.2 htable, Removal.left, Removal.takes]
  · obtain rfl := tableFields?_eq_some htable
    rcases htrimmed : tableFields? (r.value name part.keys (.table fields)) with - | fields'
    · rw [hdate.1 htrimmed] at htable
      cases htable
    · have hfields : fields' = r.fieldsLeft name part.keys fields :=
        (Toml.Value.table.inj (tableFields?_eq_some htrimmed)).symm
      simp only [sectionProblems, hfind, htable, htrimmed, hfields]
      rw [← hname]
      exact unknownFields_fieldsLeft r part fields

/-- No known section becomes or ceases to be taken for a date where it is trimmed. -/
theorem flatMap_sectionProblems_trim (r : Removal)
    (hdate : ∀ f ∈ document, ∀ part, schema.find? (·.name = f.1) = some part →
      (tableFields? (r.value f.1 part.keys f.2) = none ↔ tableFields? f.2 = none)) :
    ((r.trim document).flatMap fun f => sectionProblems f.1 f.2).Perm
      (r.left (document.flatMap fun f => sectionProblems f.1 f.2)) := by
  induction document with
  | nil => exact .nil
  | cons f document ih =>
    obtain ⟨name, v⟩ := f
    obtain ⟨hhead, hrest⟩ := List.forall_mem_cons.1 hdate
    have hih := ih hrest
    rw [Removal.trim] at hih ⊢
    rw [List.filterMap_cons, List.flatMap_cons, Removal.left, List.filter_append, ← Removal.left,
      ← Removal.left]
    cases hfind : schema.find? (·.name = name) with
    | none =>
      have hproblems : sectionProblems name v = [.unknownSection name] := by
        simp [sectionProblems, hfind]
      rw [entry_of_unknown hfind, hproblems]
      by_cases hdrop : r.part name = true
      · simpa [hdrop, Removal.left, Removal.takes] using hih
      · simpa [hdrop, hproblems, Removal.left, Removal.takes] using hih
    | some part =>
      rw [entry_of_find? hfind]
      exact (sectionProblems_value r hfind (hhead part hfind)).append hih

theorem fst_of_entry {f g : String × Toml.Value} (h : r.entry f = some g) : g.1 = f.1 := by
  unfold Removal.entry at h
  split at h
  · cases h
    rfl
  · rw [Option.ite_none_left_eq_some] at h
    rw [(Option.some.inj h.2)]

theorem distinct_value {keys : List String} (h : v.Distinct) : (r.value name keys v).Distinct := by
  cases h with
  | array hitems =>
    refine .array fun v hv => hitems v ?_
    rcases List.mem_append.1 hv with hv | hv
    · exact List.mem_of_mem_take hv
    · obtain ⟨item, hitem, rfl⟩ := List.mem_map.1 hv
      exact List.mem_of_mem_drop (List.fst_mem_of_mem_zipIdx (List.mem_of_mem_filter hitem))
  | table hkeys hfields =>
    exact .table (hkeys.sublist (List.filter_sublist.map _))
      fun f hf => hfields f (List.mem_of_mem_filter hf)
  | string s => exact .string s
  | integer n => exact .integer n
  | float x => exact .float x
  | bool b => exact .bool b
  | dateTime d => exact .dateTime d

/-- Keys that are distinct stay so. -/
theorem distinct_trim (h : (Toml.Value.table document).Distinct) :
    (Toml.Value.table (r.trim document)).Distinct := by
  refine .table ?_ fun g hg => ?_
  · have hkeys : (document.map (·.1)).Nodup := h.keys
    rw [List.Nodup, List.pairwise_map] at hkeys ⊢
    rw [Removal.trim, List.pairwise_filterMap]
    refine hkeys.imp fun hne b hb b' hb' => ?_
    rwa [fst_of_entry hb, fst_of_entry hb']
  · obtain ⟨⟨name, v⟩, hmem, hentry⟩ := List.mem_filterMap.1 hg
    have hv : v.Distinct := h.of_mem hmem
    unfold Removal.entry at hentry
    split at hentry
    · cases hentry
      exact distinct_value hv
    · rw [Option.ite_none_left_eq_some] at hentry
      cases hentry.2
      exact hv

/-! ### Sections that are taken for a date -/

/-- A section is a table that a check takes for a date or time. -/
def TakenForDate (document : Toml.Fields) (name : String) : Prop :=
  ∃ w rest, (name, .table ((Toml.dateTimeKey, w) :: rest)) ∈ document

/-- Whether a known section is taken for a date does not depend on what is taken out. -/
def SameDates (r : Removal) (document : Toml.Fields) : Prop :=
  ∀ part ∈ knownKeys, TakenForDate (r.trim document) part.1 ↔ TakenForDate document part.1

theorem tableFields?_table_eq_none_iff {fields : Toml.Fields} :
    tableFields? (.table fields) = none ↔ ∃ w rest, fields = (Toml.dateTimeKey, w) :: rest := by
  rcases fields with - | ⟨⟨key, w⟩, rest⟩
  · simp [tableFields?]
  · simp [tableFields?]

theorem takenForDate_iff (h : (Toml.Value.table document).Distinct) (hmem : (name, v) ∈ document) :
    TakenForDate document name ↔ ∃ w rest, v = .table ((Toml.dateTimeKey, w) :: rest) := by
  constructor
  · rintro ⟨w, rest, hdated⟩
    exact ⟨w, rest, h.unique hmem hdated⟩
  · rintro ⟨w, rest, rfl⟩
    exact ⟨w, rest, hmem⟩

theorem mem_trim (hfind : schema.find? (·.name = name) = some part) (hmem : (name, v) ∈ document) :
    (name, r.value name part.keys v) ∈ r.trim document :=
  List.mem_filterMap.2 ⟨_, hmem, entry_of_find? hfind⟩

/-- A section is no table before and after, or both times, where it is taken for a date before and
    after, or both times not. -/
theorem tableFields?_value_iff (h : (Toml.Value.table document).Distinct)
    (hfind : schema.find? (·.name = name) = some part) (hmem : (name, v) ∈ document) :
    (tableFields? (r.value name part.keys v) = none ↔ tableFields? v = none) ↔
      (TakenForDate (r.trim document) name ↔ TakenForDate document name) := by
  rw [takenForDate_iff (distinct_trim h) (mem_trim hfind hmem), takenForDate_iff h hmem]
  cases v with
  | table fields => simp [Removal.value, tableFields?_table_eq_none_iff]
  | _ => simp [Removal.value, tableFields?]

theorem notATable_mem_iff (h : (Toml.Value.table document).Distinct)
    (hfind : schema.find? (·.name = name) = some part) (hmem : (name, v) ∈ document) :
    .notATable name ∈ nameProblems document ↔ tableFields? v = none := by
  rw [mem_nameProblems]
  constructor
  · intro hmisnamed
    cases hmisnamed with
    | notATable _ hw htable => rwa [h.unique hmem hw]
  · exact .notATable (mem_knownKeys_of_find? hfind).2 hmem

theorem nameProblems_trim (h : (Toml.Value.table document).Distinct)
    (hdates : SameDates r document) :
    nameProblems (r.trim document) = r.left (nameProblems document) := by
  have hperm : (nameProblems (r.trim document)).Perm (r.left (nameProblems document)) := by
    refine (nameProblems_perm _).trans (.trans ?_ ((nameProblems_perm document).symm.filter _))
    refine flatMap_sectionProblems_trim r fun f hf part hfind => ?_
    exact (tableFields?_value_iff h hfind hf).2 (hdates _ (mem_knownKeys_of_find? hfind).2)
  exact hperm.eq_of_pairwise (fun p q _ _ hpq hqp => absurd hpq (lt_asymm hqp))
    (pairwise_nameProblems (distinct_trim h)) ((pairwise_nameProblems h).filter _)

/-- The names at fault are those that are left, exactly if no section is taken for a date in one of
    both documents only. -/
theorem nameProblems_trim_iff (h : (Toml.Value.table document).Distinct) :
    nameProblems (r.trim document) = r.left (nameProblems document) ↔ SameDates r document := by
  refine ⟨fun heq known hknown => ?_, nameProblems_trim h⟩
  by_cases hmem : ∃ v, (known.1, v) ∈ document
  · obtain ⟨v, hmem⟩ := hmem
    rcases hfind : schema.find? (·.name = known.1) with - | part
    · exact absurd rfl (not_mem_knownKeys_of_find? hfind known hknown)
    · rw [← tableFields?_value_iff h hfind hmem, ← notATable_mem_iff h hfind hmem,
        ← notATable_mem_iff (distinct_trim h) hfind (mem_trim hfind hmem), heq]
      simp [Removal.left, Removal.takes]
  · -- A section that is not there is not taken for a date.
    constructor
    · rintro ⟨w, rest, htrimmed⟩
      obtain ⟨⟨name, v⟩, hv, hentry⟩ := List.mem_filterMap.1 htrimmed
      exact absurd ⟨v, (fst_of_entry hentry).symm ▸ hv⟩ hmem
    · rintro ⟨w, rest, hdated⟩
      exact absurd ⟨_, hdated⟩ hmem

/-- What nobody reads can be taken out of a document that was read. The options stay the same, and
    so does the error if there are none. A report on names only loses the problems with the names
    taken out, exactly if there is one for both documents or for none, and then no section is taken
    for a date or time in one of them only. -/
theorem usable_trim_keyReport_trim_iff (r : Removal) (path : Path) (text : String)
    (document : Toml.Fields) (hread : Toml.read text = some document) :
    usable path (r.trim document) = parse path text ∧
    (keyReport (r.trim document) = (keyReport document).map r.left ↔
      fieldsWellDated (r.trim document) = fieldsWellDated document ∧
        (fieldsWellDated document = true → SameDates r document)) := by
  have hdistinct : (Toml.Value.table document).Distinct := Toml.distinct_of_read hread
  have hparse : parse path text = usable path document := by rw [parse, hread]
  refine ⟨(usable_trim r path document).trans hparse.symm, ?_⟩
  rw [← nameProblems_trim_iff hdistinct]
  -- Without a report on one of the documents there must be none on the other.
  by_cases hdated : fieldsWellDated document = true <;>
    by_cases htrimmed : fieldsWellDated (r.trim document) = true <;>
      simp [keyReport, hdated, htrimmed]

/-- Two unknown sections, one of them named like a field, two unknown fields, one of them a field of
    another section, an item beyond the last field, and an unfit mode of colours. -/
def unreadText : String :=
  "zip = []\nvariant = 1\ncolor = ['dark', 2]\n[linter]\nmode = ''\njs = true\n"

def unreadDocument : Toml.Fields :=
  [("zip", .array []), ("variant", .integer 1), ("color", .array [.string "dark", .integer 2]),
    ("linter", .table [("mode", .string ""), ("js", .bool true)])]

theorem read_unreadText : Toml.read unreadText = some unreadDocument :=
  Toml.read_eq_of_same (by decide +kernel)

/-- Everything that nobody reads is taken out, and the error stays. -/
theorem usable_trim_keyReport_trim_unread :
    let r : Removal := ⟨fun _ => true, fun _ _ => true, fun _ _ => true⟩
    Toml.read unreadText = some unreadDocument ∧
      r.trim unreadDocument = [("color", .array [.string "dark"]), ("linter", .table [])] ∧
      usable (⟨"o.toml"⟩ : Path) (r.trim unreadDocument) = parse ⟨"o.toml"⟩ unreadText ∧
      keyReport (r.trim unreadDocument) = (keyReport unreadDocument).map r.left := by
  intro r
  have htrim : r.trim unreadDocument =
      [("color", .array [.string "dark"]), ("linter", .table [])] := rfl
  have hdated : fieldsWellDated unreadDocument = true := by decide +kernel
  have htrimmed : fieldsWellDated (r.trim unreadDocument) = true := by
    rw [htrim]
    decide +kernel
  obtain ⟨husable, hreport⟩ :=
    usable_trim_keyReport_trim_iff r ⟨"o.toml"⟩ _ _ read_unreadText
  have hdates : SameDates r unreadDocument := by
    intro part _
    rw [htrim]
    simp [TakenForDate, unreadDocument, Toml.dateTimeKey]
  exact ⟨read_unreadText, htrim, husable, hreport.2 ⟨htrimmed.trans hdated.symm, fun _ => hdates⟩⟩

/-- A section with an unknown field before the key of a date. -/
def lateDateText : String :=
  "[linter]\nmode = 1\n\"$__toml_private_datetime\" = \"1979-05-27\"\n"

def lateDateDocument : Toml.Fields :=
  [("linter", .table [("mode", .integer 1), (Toml.dateTimeKey, .string "1979-05-27")])]

theorem read_lateDateText : Toml.read lateDateText = some lateDateDocument :=
  Toml.read_eq_of_same (by decide +kernel)

/-- The field is taken out, so the key of a date becomes the first of its section: this is no table
    then, and the key is not reported any more. -/
theorem keyReport_trim_lateDate :
    let r : Removal := ⟨fun _ => false, fun _ key => key = "mode", fun _ _ => false⟩
    Toml.read lateDateText = some lateDateDocument ∧
      (keyReport lateDateDocument).map r.left = some [.unknownField "linter" Toml.dateTimeKey] ∧
      keyReport (r.trim lateDateDocument) = some [.notATable "linter"] := by
  intro r
  have hreport : keyReport lateDateDocument =
      some [.unknownField "linter" Toml.dateTimeKey, .unknownField "linter" "mode"] := by
    simp [keyReport, nameProblems, byName, sectionProblems, schema, linterFields, unknownFields,
      fieldsWellDated, wellDated, tableWellDated, lateDateDocument, Toml.dateTimeKey, tableFields?,
      List.mergeSort]
  have htrim : r.trim lateDateDocument =
      [("linter", .table [(Toml.dateTimeKey, .string "1979-05-27")])] := rfl
  have htrimmed : fieldsWellDated
      [("linter", .table [(Toml.dateTimeKey, .string "1979-05-27")])] = true := by decide +kernel
  refine ⟨read_lateDateText, ?_, ?_⟩
  · simp [hreport, r, Removal.left, Removal.takes, Toml.dateTimeKey]
  · rw [htrim, keyReport, if_pos htrimmed]
    simp [nameProblems, byName, sectionProblems, schema, tableFields?]

end LintRun.Options
