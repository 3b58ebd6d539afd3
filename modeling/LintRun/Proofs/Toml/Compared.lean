import LintRun.Toml.Reader

/-! Comparing documents. Floats have no decidable equality, and so documents have none; but whether
    two of them are the same can be found out where they have no floats (`eq_of_same`). This tells
    to what document a given text is read (`read_eq_of_same`). -/

namespace LintRun.Toml

mutual
/-- Whether two values are found to be the same. Those with floats never are. -/
def Value.same : Value → Value → Bool
  | .string s, .string s' => s == s'
  | .integer n, .integer n' => n == n'
  | .bool b, .bool b' => b == b'
  | .dateTime d, .dateTime d' => d == d'
  | .array items, .array items' => Value.sameItems items items'
  | .table fields, .table fields' => Value.sameFields fields fields'
  | _, _ => false

/-- Whether two lists of items are found to be the same. -/
def Value.sameItems : List Value → List Value → Bool
  | [], [] => true
  | v :: rest, v' :: rest' => v.same v' && Value.sameItems rest rest'
  | _, _ => false

/-- Whether two lists of fields are found to be the same. -/
def Value.sameFields : List (String × Value) → List (String × Value) → Bool
  | [], [] => true
  | (name, v) :: rest, (name', v') :: rest' =>
    name == name' && v.same v' && Value.sameFields rest rest'
  | _, _ => false
end

mutual
theorem eq_of_same : ∀ {v v' : Value}, v.same v' = true → v = v'
  | .string s, v', h => by
    cases v' with
    | string s' => rw [beq_iff_eq.1 h]
    | _ => cases h
  | .integer n, v', h => by
    cases v' with
    | integer n' => rw [beq_iff_eq.1 h]
    | _ => cases h
  | .bool b, v', h => by
    cases v' with
    | bool b' => rw [beq_iff_eq.1 h]
    | _ => cases h
  | .dateTime d, v', h => by
    cases v' with
    | dateTime d' => rw [beq_iff_eq.1 h]
    | _ => cases h
  | .array items, v', h => by
    cases v' with
    | array items' => rw [eq_of_sameItems h]
    | _ => cases h
  | .table fields, v', h => by
    cases v' with
    | table fields' => rw [eq_of_sameFields h]
    | _ => cases h
  | .float _, _, h => by cases h

theorem eq_of_sameItems : ∀ {items items' : List Value},
    Value.sameItems items items' = true → items = items'
  | [], [], _ => rfl
  | v :: rest, v' :: rest', h => by
    obtain ⟨hv, hrest⟩ := Bool.and_eq_true_iff.1 h
    rw [eq_of_same hv, eq_of_sameItems hrest]

theorem eq_of_sameFields : ∀ {fields fields' : List (String × Value)},
    Value.sameFields fields fields' = true → fields = fields'
  | [], [], _ => rfl
  | (name, v) :: rest, (name', v') :: rest', h => by
    obtain ⟨hhead, hrest⟩ := Bool.and_eq_true_iff.1 h
    obtain ⟨hname, hv⟩ := Bool.and_eq_true_iff.1 hhead
    rw [beq_iff_eq.1 hname, eq_of_same hv, eq_of_sameFields hrest]
end

/-- A text is read to a document if the document that is read is found to be the same. -/
theorem read_eq_of_same {text : String} {document : Fields}
    (h : (read text).any (Value.sameFields · document) = true) : read text = some document := by
  obtain ⟨found, hread, hsame⟩ := (Option.any_eq_true _ _).1 h
  rw [hread, eq_of_sameFields hsame]

end LintRun.Toml
