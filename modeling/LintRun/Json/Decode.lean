import LintRun.Json.Reader

/-! From the written form to values and to records.

    A value is built at most 127 levels deep. A record is an object, whose unknown fields are passed
    over, or an array of its fields in order. -/

namespace LintRun.Json

/-- The number of levels that values may be nested. -/
def maxDepth : Nat := 127

mutual
/-- How many levels of arrays and objects a document has. -/
def Written.depth : Written → Nat
  | .array items => Written.depthItems items + 1
  | .object fields => Written.depthFields fields + 1
  | _ => 0

def Written.depthItems : List Written → Nat
  | [] => 0
  | w :: rest => max w.depth (Written.depthItems rest)

def Written.depthFields : List (Option String × Written) → Nat
  | [] => 0
  | (_, w) :: rest => max w.depth (Written.depthFields rest)
end

mutual
/-- The value of a document. -/
def Written.build : Written → Option Value
  | .null => some .null
  | .bool b => some (.bool b)
  | .number n => n.value
  | .string text => text.map .string
  | .array items => (Written.buildItems items).map .array
  | .object fields =>
    (Written.buildFields fields).map fun pairs => .object (Fields.ofAssignments pairs)

def Written.buildItems : List Written → Option (List Value)
  | [] => some []
  | w :: rest => do return (← w.build) :: (← Written.buildItems rest)

def Written.buildFields : List (Option String × Written) → Option (List (String × Value))
  | [] => some []
  | (name, w) :: rest => do return (← name, ← w.build) :: (← Written.buildFields rest)
end

/-- The value of a document that may still be nested `levels` deep. -/
def Written.toValue (levels : Nat) (w : Written) : Option Value :=
  if w.depth ≤ levels then w.build else none

/-- The fields of a record, in the order in which an array gives them. Each is the document at its
    place, or `none` where it is missing. -/
def Written.record (names : List String) : Written → Option (List (Option Written))
  | .array items =>
    if items.length ≤ names.length then some ((names.zipIdx).map fun (_, i) => items[i]?) else none
  | .object fields => do
    let fields ← fields.mapM fun (name, w) => name.map (·, w)
    names.mapM fun name =>
      match fields.filter (·.1 = name) with
      | [] => some none
      | [(_, w)] => some (some w)
      | _ => none
  | _ => none

/-- A natural number below 2^64. -/
def Written.natural? : Written → Option Nat
  | .number n => n.natural?
  | _ => none

def Written.text? : Written → Option String
  | .string text => text
  | _ => none

/-- Reads a whole text as a value. -/
def Value.read (s : String) : Option Value := do (← Written.read s).toValue maxDepth

end LintRun.Json
