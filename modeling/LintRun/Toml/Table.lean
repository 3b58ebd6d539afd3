import LintRun.Toml.Value

/-! Tables while a document is read.

    How a table came to be decides what may still be added to it: one that a header or braces opened
    is closed to dotted keys from elsewhere, one that is only implied by longer headers may still be
    opened, and one that dotted keys made may only grow by dotted keys. -/

namespace LintRun.Toml

/-- How a table came to be. -/
inductive Origin where
  | opened
  | implied
  | dotted
  deriving Repr, DecidableEq, Inhabited

/-- What stands under a key: a finished value, a table, or the tables of a repeated header. -/
inductive Node where
  | value (v : Value)
  | table (origin : Origin) (fields : List (String × Node))
  | series (tables : List (List (String × Node)))
  deriving Inhabited

/-- A table under construction, its fields in the order in which they were introduced. -/
structure Table where
  origin : Origin := .opened
  fields : List (String × Node) := []
  deriving Inhabited

mutual
def Node.toValue : Node → Value
  | .value v => v
  | .table _ fields => .table (Node.toFields fields)
  | .series tables => .array (Node.toTables tables)

def Node.toFields : List (String × Node) → Fields
  | [] => []
  | (key, node) :: rest => (key, node.toValue) :: Node.toFields rest

def Node.toTables : List (List (String × Node)) → List Value
  | [] => []
  | fields :: rest => .table (Node.toFields fields) :: Node.toTables rest
end

namespace Table

def finish (t : Table) : Fields := Node.toFields t.fields

/-- Puts a node under a key: in the place of the old one, or at the end. -/
def put (key : String) (node : Node) (t : Table) : Table :=
  if t.fields.any (·.1 = key) then
    { t with fields := t.fields.map fun (k, old) => if k = key then (k, node) else (k, old) }
  else { t with fields := t.fields ++ [(key, node)] }

/-- A table as the node it is in its parent. -/
def node (t : Table) : Node := .table t.origin t.fields

/-- Changes the table at the end of a path. Tables that are missing on the way come to be as
    `made`; of the tables of a repeated header the last one is meant; a finished value ends no
    path. Dotted keys do not pass through a table that was opened. -/
def descend (made : Origin) (change : Table → Option Table) : List String → Table → Option Table
  | [], t => change t
  | key :: path, t =>
    match t.fields.lookup key with
    | none => do return t.put key (← descend made change path { origin := made }).node
    | some (.value _) => none
    | some (.series tables) =>
      match tables.reverse with
      | [] => none
      | last :: earlier => do
        let last ← descend made change path { fields := last }
        return t.put key (.series (last.fields :: earlier).reverse)
    | some (.table origin fields) =>
      if made = .dotted && origin = .opened then none
      else do return t.put key (← descend made change path { origin, fields }).node

/-- Adds a value under a key that is new. At the end of a dotted path the table must be one that
    dotted keys made. -/
def insert (viaPath : Bool) (key : String) (v : Value) (t : Table) : Option Table :=
  if viaPath && t.origin != .dotted then none
  else if (t.fields.lookup key).isSome then none
  else some (t.put key (.value v))

/-- Adds a value under a dotted key. -/
def assign (path : List String) (key : String) (v : Value) (t : Table) : Option Table :=
  descend .dotted (insert (!path.isEmpty) key v) path t

/-- Opens the table of a header. It is new, or was implied so far, and stands last in its parent. -/
def openTable (key : String) (t : Table) : Option Table :=
  match t.fields.lookup key with
  | none => some (t.put key (.table .opened []))
  | some (.table .implied fields) =>
    let others := { t with fields := t.fields.filter (·.1 ≠ key) }
    some (others.put key (.table .opened fields))
  | _ => none

/-- Opens one more table of a repeated header. -/
def openNext (key : String) (t : Table) : Option Table :=
  match t.fields.lookup key with
  | none => some (t.put key (.series [[]]))
  | some (.series tables) => some (t.put key (.series (tables ++ [[]])))
  | _ => none

end Table

end LintRun.Toml
