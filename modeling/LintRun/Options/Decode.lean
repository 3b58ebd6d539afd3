import LintRun.Options.Basic
import LintRun.Toml.Value

/-! From a TOML document to options.

    A section is a table of its fields or an array of them in order. Fields are set one after the
    other as the document gives them, so the first bad value is the error; what has no known name
    is passed over. -/

namespace LintRun.Options

/-- Why a value is not fit for its place. -/
inductive DecodeError where
  | unfit
  | variant (cause : UnknownVariant)
  | color (text : String)
  deriving Repr, DecidableEq

/-- What a user reads of an unfit value, if there is more to say than where it stands. -/
def DecodeError.message? : DecodeError → Option String
  | .unfit => none
  | .variant cause => some cause.message
  | .color text =>
    some s!"invalid color mode '{text}', expected 'auto', 'always', or 'never'"

/-- A value read from a document. -/
abbrev Decoded (α : Type) := Except DecodeError α

def textOf : Toml.Value → Decoded String
  | .string s => .ok s
  | _ => .error .unfit

def boolOf : Toml.Value → Decoded Bool
  | .bool b => .ok b
  | _ => .error .unfit

def textsOf : Toml.Value → Decoded (List String)
  | .array items => items.mapM textOf
  | _ => .error .unfit

def variantOf (v : Toml.Value) : Decoded Variant := do
  (Variant.ofName (← textOf v)).mapError .variant

def colorOf (v : Toml.Value) : Decoded ColorMode := do
  let text ← textOf v
  match ColorMode.ofName? text with
  | some mode => .ok mode
  | none => .error (.color text)

/-- Flags of any form. A date or time is the table of one field that stands for it. -/
def flagsOf (v : Toml.Value) : Decoded Json.Fields :=
  match v.toJson with
  | .object fields => .ok fields
  | _ => .error .unfit

/-- A field of a section: how a value sets it, and whether the array form must give it. -/
structure Field (α : Type) where
  name : String
  needed : Bool
  set : Toml.Value → α → Decoded α

/-- Sets the fields that a table names, in the order of the table. -/
def ofTable {α : Type} (schema : List (Field α)) : Toml.Fields → α → Decoded α
  | [], a => .ok a
  | (name, v) :: rest, a =>
    match schema.find? (·.name = name) with
    | none => ofTable schema rest a
    | some field => do ofTable schema rest (← field.set v a)

/-- Sets the fields of a schema from the items of an array. Items beyond the last field do not
    count. -/
def ofArray {α : Type} : List (Field α) → List Toml.Value → α → Decoded α
  | [], _, a => .ok a
  | field :: schema, [], a => if field.needed then .error .unfit else ofArray schema [] a
  | field :: schema, v :: rest, a => do ofArray schema rest (← field.set v a)

/-- Reads a section into one that has its default values. A date or time has none of the fields. -/
def ofSection {α : Type} (schema : List (Field α)) (a : α) : Toml.Value → Decoded α
  | .table fields => ofTable schema fields a
  | .array items => ofArray schema items a
  | .dateTime _ => .ok a
  | _ => .error .unfit

def linterFields : List (Field LinterSettings) :=
  [⟨"variant", false, fun v s => do return { s with variant := ← variantOf v }⟩,
    ⟨"command", true, fun v s => do return { s with command := some (← textsOf v) }⟩,
    ⟨"options", false, fun v s => do return { s with flags := ← flagsOf v }⟩]

/-- The fields of the section on kinds of file. -/
def includeFields : List (Field Include) :=
  [⟨"js", false, fun v s => do return { s with js := ← boolOf v }⟩,
    ⟨"css", false, fun v s => do return { s with css := ← boolOf v }⟩,
    ⟨"html", false, fun v s => do return { s with html := ← boolOf v }⟩]

/-- The fields of the section on ignore markers. -/
def ignoreFields : List (Field Markers) :=
  [⟨"start", false, fun v s => do return { s with start := ← textOf v }⟩,
    ⟨"end", false, fun v s => do return { s with stop := ← textOf v }⟩]

def outputFields : List (Field OutputSettings) :=
  [⟨"treat_violations_as_warnings", false, fun v s => do return { s with warnings := ← boolOf v }⟩,
    ⟨"report_file", true, fun v s => do return { s with reportFile := some ⟨← textOf v⟩ }⟩]

/-- The one field of the colour section. -/
def colorFields : List (Field ColorMode) := [⟨"ui", false, fun v _ => colorOf v⟩]

/-- A section of an options file: its name, the names of its fields, and how its value is read. -/
structure SectionSchema where
  name : String
  keys : List String
  set : Toml.Value → Options → Decoded Options

/-- The sections of an options file. -/
def schema : List SectionSchema :=
  [⟨"linter", linterFields.map (·.name),
      fun v o => do return { o with linter := ← ofSection linterFields {} v }⟩,
    ⟨"include", includeFields.map (·.name),
      fun v o => do return { o with included := ← ofSection includeFields {} v }⟩,
    ⟨"ignore", ignoreFields.map (·.name),
      fun v o => do return { o with markers := ← ofSection ignoreFields {} v }⟩,
    ⟨"output", outputFields.map (·.name),
      fun v o => do return { o with output := ← ofSection outputFields {} v }⟩,
    ⟨"color", colorFields.map (·.name),
      fun v o => do return { o with color := ← ofSection colorFields .auto v }⟩]

/-- Reads the sections of a document, in its order, into some options. -/
def ofSections : Toml.Fields → Options → Decoded Options
  | [], o => .ok o
  | (name, v) :: rest, o =>
    match schema.find? (·.name = name) with
    | none => ofSections rest o
    | some part => do ofSections rest (← part.set v o)

/-- The options that a document gives. -/
def ofDocument (document : Toml.Fields) : Decoded Options := ofSections document {}

end LintRun.Options
