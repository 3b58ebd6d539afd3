import LintRun.Options.Load

/-! What is wrong with an options file: names that nobody reads, sections that are no tables, and
    why it cannot be loaded, if it cannot. -/

namespace LintRun

inductive OptionsProblem where
  | unknownSection (name : String)
  | notATable (name : String)
  | unknownField (part name : String)
  | unusable (cause : ConfigError)
  deriving Repr, DecidableEq

namespace OptionsProblem

/-- The key at fault; a file that cannot be loaded has none. -/
def key : OptionsProblem → String
  | .unknownSection name => name
  | .notATable name => name
  | .unknownField part name => s!"{part}.{name}"
  | .unusable _ => ""

def message : OptionsProblem → String
  | .unknownSection name => s!"unknown section '{name}'"
  | .notATable name => s!"'{name}' must be a table"
  | .unknownField part name => s!"unknown field '{name}' in [{part}]"
  | .unusable cause => cause.message

end OptionsProblem

namespace Options

/-- Fields in the order of their names. -/
def byName (fields : Toml.Fields) : Toml.Fields := fields.mergeSort fun a b => a.1 ≤ b.1

mutual
/-- Whether every table whose first field is the one that stands for a date or time does stand for
    one. -/
def wellDated : Toml.Value → Bool
  | .table fields => tableWellDated fields
  | .array items => itemsWellDated items
  | _ => true

def itemsWellDated : List Toml.Value → Bool
  | [] => true
  | v :: rest => wellDated v && itemsWellDated rest

def fieldsWellDated : List (String × Toml.Value) → Bool
  | [] => true
  | (_, v) :: rest => wellDated v && fieldsWellDated rest

/-- Whether a table stands for a date or time, or has another first field and is well dated. -/
def tableWellDated : List (String × Toml.Value) → Bool
  | [] => true
  | (name, v) :: rest =>
    if name = Toml.dateTimeKey then
      match v with
      | .string s => (Toml.DateTime.ofText? s).isSome
      | _ => false
    else wellDated v && fieldsWellDated rest
end

/-- The fields of a value that is a table and does not stand for a date or time. -/
def tableFields? : Toml.Value → Option Toml.Fields
  | .table ((name, v) :: rest) => if name = Toml.dateTimeKey then none else some ((name, v) :: rest)
  | .table [] => some []
  | _ => none

/-- The fields of a section that have no known name, in the order of names. -/
def unknownFields (part : SectionSchema) (fields : Toml.Fields) : List OptionsProblem :=
  (byName fields).filterMap fun (name, _) =>
    if part.keys.contains name then none else some (.unknownField part.name name)

def sectionProblems (name : String) (v : Toml.Value) : List OptionsProblem :=
  match schema.find? (·.name = name) with
  | none => [.unknownSection name]
  | some part =>
    match tableFields? v with
    | none => [.notATable name]
    | some fields => unknownFields part fields

/-- What is wrong with the names of a document, in the order of names. -/
def nameProblems (document : Toml.Fields) : List OptionsProblem :=
  (byName document).flatMap fun (name, v) => sectionProblems name v

/-- What is wrong with a text: its names, then why it gives no options. -/
def validate (path : Path) (text : String) : Except ConfigError (List OptionsProblem) :=
  match Toml.read text with
  | none => .error (.parse path .malformed)
  | some document =>
    if fieldsWellDated document then
      match parse path text with
      | .ok _ => .ok (nameProblems document)
      | .error cause => .ok (nameProblems document ++ [.unusable cause])
    else .error (.parse path .malformed)

end Options

end LintRun
