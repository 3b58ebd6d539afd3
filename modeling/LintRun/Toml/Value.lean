import LintRun.Json.Value
import LintRun.Toml.DateTime

/-! TOML values. The fields of a table stand in the order in which the document introduces them. -/

namespace LintRun.Toml

inductive Value where
  | string (s : String)
  | integer (n : Int)
  | float (x : Float)
  | bool (b : Bool)
  | dateTime (d : DateTime)
  | array (items : List Value)
  | table (fields : List (String × Value))
  deriving Inhabited

/-- The fields of a table, in document order. -/
abbrev Fields := List (String × Value)

/-- The name of the one field of the table that stands for a date or time. -/
def dateTimeKey : String := "$__toml_private_datetime"

mutual
/-- A value as JSON. Floats that JSON cannot write are null, and a date or time is a table of one
    field. -/
def Value.toJson : Value → Json.Value
  | .string s => .string s
  | .integer n => .integer n
  | .float x => if x.isNaN || x.isInf then .null else .float x
  | .bool b => .bool b
  | .dateTime d => .object [(dateTimeKey, .string d.text)]
  | .array items => .array (Value.itemsToJson items)
  | .table fields => .object (Json.Fields.ofAssignments (Value.fieldsToJson fields))

def Value.itemsToJson : List Value → List Json.Value
  | [] => []
  | v :: rest => v.toJson :: Value.itemsToJson rest

/-- The fields of a table as JSON, still in document order. -/
def Value.fieldsToJson : List (String × Value) → List (String × Json.Value)
  | [] => []
  | (name, v) :: rest => (name, v.toJson) :: Value.fieldsToJson rest
end

end LintRun.Toml
