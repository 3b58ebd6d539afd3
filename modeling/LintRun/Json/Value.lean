/-! JSON values. Objects of free form are made by setting fields: these stand in the order of their
    names, each name once, so that two objects with the same fields are the same value. A record
    that is written as an object keeps its fields in an order of its own. -/

namespace LintRun.Json

/-- A JSON value. A number without fraction and exponent that fits 64 bits is an integer, every
    other number is a float. -/
inductive Value where
  | null
  | bool (b : Bool)
  | integer (n : Int)
  | float (x : Float)
  | string (s : String)
  | array (items : List Value)
  | object (fields : List (String × Value))
  deriving Inhabited

/-- The fields of an object. -/
abbrev Fields := List (String × Value)

/-- Sets a field of an object of free form. A field of that name is replaced, otherwise the new one
    takes its place in the order of names. -/
def Fields.set (name : String) (value : Value) : Fields → Fields
  | [] => [(name, value)]
  | (other, old) :: rest =>
    if name = other then (name, value) :: rest
    else if name < other then (name, value) :: (other, old) :: rest
    else (other, old) :: Fields.set name value rest

def Fields.get? (name : String) : Fields → Option Value
  | [] => none
  | (other, value) :: rest => if name = other then some value else Fields.get? name rest

/-- The fields of some assignments made one after the other: the last one for a name holds. -/
def Fields.ofAssignments (pairs : List (String × Value)) : Fields :=
  pairs.foldl (fun fields (name, value) => fields.set name value) []

theorem Fields.get?_set_self (name : String) (value : Value) (fields : Fields) :
    (fields.set name value).get? name = some value := by
  induction fields with
  | nil => simp [Fields.set, Fields.get?]
  | cons head rest ih =>
    obtain ⟨other, old⟩ := head
    by_cases h : name = other
    · simp [Fields.set, Fields.get?, h]
    · by_cases hlt : name < other
      · simp [Fields.set, Fields.get?, h, hlt]
      · simpa [Fields.set, Fields.get?, h, hlt] using ih

theorem Fields.get?_set_of_ne {name other : String} (h : other ≠ name) (value : Value)
    (fields : Fields) : (fields.set name value).get? other = fields.get? other := by
  induction fields with
  | nil => simp [Fields.set, Fields.get?, h]
  | cons head rest ih =>
    obtain ⟨n, old⟩ := head
    by_cases hn : name = n
    · subst hn
      simp [Fields.set, Fields.get?, h]
    · by_cases hlt : name < n
      · simp [Fields.set, Fields.get?, hn, hlt, h]
      · by_cases ho : other = n
        · simp [Fields.set, Fields.get?, hn, hlt, ho]
        · simpa [Fields.set, Fields.get?, hn, hlt, ho] using ih

end LintRun.Json
