import LintRun.Toml.Reader
import Mathlib.Data.List.Nodup

/-! Keys of a document. Whatever ways a table has come to be, by headers, by dotted keys or in
    braces, none of them gives it a key twice, so no table of a document that was read has one key
    twice (`distinct_of_read`). Every change of a table goes through `Table.put`, and that is where
    keys stay distinct. -/

namespace LintRun.Toml

/-! ### Values and nodes -/

/-- No table of a value has a key twice. -/
inductive Value.Distinct : Value → Prop where
  | string (s : String) : (Value.string s).Distinct
  | integer (n : Int) : (Value.integer n).Distinct
  | float (x : Float) : (Value.float x).Distinct
  | bool (b : Bool) : (Value.bool b).Distinct
  | dateTime (d : DateTime) : (Value.dateTime d).Distinct
  | array {items : List Value} (hitems : ∀ v ∈ items, v.Distinct) : (Value.array items).Distinct
  | table {fields : List (String × Value)} (hkeys : (fields.map (·.1)).Nodup)
      (hfields : ∀ f ∈ fields, f.2.Distinct) : (Value.table fields).Distinct

theorem Value.Distinct.keys {fields : Fields} (h : (Value.table fields).Distinct) :
    (fields.map (·.1)).Nodup := by
  cases h with
  | table hkeys _ => exact hkeys

theorem Value.Distinct.of_mem {fields : Fields} (h : (Value.table fields).Distinct) {name : String}
    {v : Value} (hmem : (name, v) ∈ fields) : v.Distinct := by
  cases h with
  | table _ hfields => exact hfields (name, v) hmem

/-- A table has one value for a key. -/
theorem Value.Distinct.unique {fields : Fields} (h : (Value.table fields).Distinct) {name : String}
    {v w : Value} (hv : (name, v) ∈ fields) (hw : (name, w) ∈ fields) : v = w :=
  congrArg Prod.snd (List.inj_on_of_nodup_map h.keys hv hw rfl)

/-- No table under a key, finished or not, has a key twice. -/
inductive Node.Distinct : Node → Prop where
  | value {v : Value} (hv : v.Distinct) : (Node.value v).Distinct
  | table {origin : Origin} {fields : List (String × Node)} (hkeys : (fields.map (·.1)).Nodup)
      (hfields : ∀ f ∈ fields, f.2.Distinct) : (Node.table origin fields).Distinct
  | series {tables : List (List (String × Node))}
      (hkeys : ∀ fields ∈ tables, (fields.map (·.1)).Nodup)
      (hfields : ∀ fields ∈ tables, ∀ f ∈ fields, f.2.Distinct) : (Node.series tables).Distinct

theorem toFields_eq_map (fields : List (String × Node)) :
    Node.toFields fields = fields.map fun f => (f.1, f.2.toValue) := by
  induction fields with
  | nil => rfl
  | cons f fields ih => rw [Node.toFields, ih]; rfl

theorem toTables_eq_map (tables : List (List (String × Node))) :
    Node.toTables tables = tables.map fun fields => .table (Node.toFields fields) := by
  induction tables with
  | nil => rfl
  | cons fields tables ih => rw [Node.toTables, ih]; rfl

theorem keys_toFields (fields : List (String × Node)) :
    (Node.toFields fields).map (·.1) = fields.map (·.1) := by
  simp [toFields_eq_map]

theorem distinct_toFields {fields : List (String × Node)}
    (h : ∀ f ∈ fields, f.2.toValue.Distinct) : ∀ f ∈ Node.toFields fields, f.2.Distinct := by
  rw [toFields_eq_map]
  exact List.forall_mem_map.2 h

/-- What a node stands for has distinct keys if the node has. -/
theorem Node.Distinct.toValue {node : Node} (h : node.Distinct) : node.toValue.Distinct := by
  induction h with
  | value hv => exact hv
  | table hkeys _ ih => exact .table (by rwa [keys_toFields]) (distinct_toFields ih)
  | series hkeys _ ih =>
    rw [Node.toValue, toTables_eq_map]
    refine .array (List.forall_mem_map.2 fun fields hmem => ?_)
    exact .table (by rw [keys_toFields]; exact hkeys fields hmem)
      (distinct_toFields (ih fields hmem))

/-! ### Tables -/

namespace Table

variable {t t' : Table} {key : String} {under : Node}

/-- Neither a table nor one under it has a key twice. -/
structure Distinct (t : Table) : Prop where
  keys : (t.fields.map (·.1)).Nodup
  fields : ∀ f ∈ t.fields, f.2.Distinct

theorem distinct_empty (origin : Origin) : Distinct { origin } where
  keys := List.nodup_nil
  fields := by simp

theorem Distinct.node (h : t.Distinct) : t.node.Distinct := .table h.keys h.fields

theorem mem_put {f : String × Node} (h : f ∈ (t.put key under).fields) :
    f ∈ t.fields ∨ f = (key, under) := by
  unfold put at h
  split at h
  · obtain ⟨⟨k, old⟩, hold, rfl⟩ := List.mem_map.1 h
    by_cases hk : k = key
    · exact .inr (by simp [hk])
    · exact .inl (by simpa [hk] using hold)
  · simpa using h

/-- A key that is put keeps its place, or comes last if it is new. -/
theorem keys_put (t : Table) (key : String) (under : Node) :
    (t.put key under).fields.map (·.1) =
      if key ∈ t.fields.map (·.1) then t.fields.map (·.1) else t.fields.map (·.1) ++ [key] := by
  have hany : t.fields.any (·.1 = key) = true ↔ key ∈ t.fields.map (·.1) := by simp
  unfold put
  split
  · next h =>
    rw [if_pos (hany.1 h), List.map_map]
    refine List.map_congr_left fun f _ => ?_
    by_cases hf : f.1 = key <;> simp [hf]
  · next h =>
    rw [if_neg fun hmem => h (hany.2 hmem), List.map_append]
    rfl

theorem Distinct.put (h : t.Distinct) (hunder : under.Distinct) : (t.put key under).Distinct where
  keys := by
    rw [keys_put]
    split
    · exact h.keys
    · next hnew =>
      refine List.nodup_append.2 ⟨h.keys, List.nodup_singleton key, fun k hk l hl hkl => ?_⟩
      exact hnew (List.mem_singleton.1 hl ▸ hkl ▸ hk)
  fields f hf := by
    rcases mem_put hf with hold | rfl
    · exact h.fields f hold
    · exact hunder

theorem Distinct.of_lookup (h : t.Distinct) (hlookup : t.fields.lookup key = some under) :
    under.Distinct := by
  obtain ⟨before, after, hfields, -⟩ := List.lookup_eq_some_iff.1 hlookup
  exact h.fields (key, under) (by simp [hfields])

theorem distinct_series_iff {tables : List (List (String × Node))} :
    (Node.series tables).Distinct ↔ ∀ fields ∈ tables, Distinct { fields } := by
  constructor
  · rintro (_ | _ | ⟨hkeys, hfields⟩) fields hmem
    exact ⟨hkeys fields hmem, hfields fields hmem⟩
  · exact fun h => .series (fun fields hmem => (h fields hmem).keys)
      fun fields hmem => (h fields hmem).fields

/-- A change at the end of a path keeps all keys distinct if it does so in the table there. -/
theorem Distinct.descend {made : Origin} {change : Table → Option Table}
    (hchange : ∀ {t t'}, Distinct t → change t = some t' → t'.Distinct) :
    ∀ (path : List String) {t t' : Table}, t.Distinct →
      Table.descend made change path t = some t' → t'.Distinct
  | [], _, _, ht, h => hchange ht h
  | key :: path, t, t', ht, h => by
    -- Whatever stands under the key, the changed child is put back in its place.
    rw [Table.descend] at h
    split at h
    · obtain ⟨child, hchild, hput⟩ := Option.bind_eq_some_iff.1 h
      cases hput
      exact ht.put (Distinct.descend hchange path (distinct_empty made) hchild).node
    · cases h
    · next tables hlookup =>
      have hseries := distinct_series_iff.1 (ht.of_lookup hlookup)
      split at h
      · cases h
      · next last earlier hreverse =>
        -- Only the last table changes; the earlier ones are as they were.
        have hmem {fields : List (String × Node)} :
            fields ∈ tables ↔ fields = last ∨ fields ∈ earlier := by
          rw [← List.mem_reverse, hreverse, List.mem_cons]
        obtain ⟨child, hchild, hput⟩ := Option.bind_eq_some_iff.1 h
        cases hput
        have hlast := Distinct.descend hchange path (hseries last (hmem.2 (.inl rfl))) hchild
        refine ht.put (distinct_series_iff.2 fun fields hfields => ?_)
        rcases List.mem_cons.1 (List.mem_reverse.1 hfields) with rfl | hearlier
        · exact ⟨hlast.keys, hlast.fields⟩
        · exact hseries fields (hmem.2 (.inr hearlier))
    · next origin fields hlookup =>
      split at h
      · cases h
      · obtain ⟨child, hchild, hput⟩ := Option.bind_eq_some_iff.1 h
        cases hput
        cases ht.of_lookup hlookup with
        | table hkeys hfields =>
          exact ht.put (Distinct.descend hchange path ⟨hkeys, hfields⟩ hchild).node

/-- A value that is added stands under a new key, at the end of any dotted path. -/
theorem Distinct.assign {path : List String} {v : Value} (ht : t.Distinct) (hv : v.Distinct)
    (h : Table.assign path key v t = some t') : t'.Distinct := by
  refine ht.descend ?_ path h
  intro t t' ht hinsert
  unfold insert at hinsert
  split at hinsert
  · cases hinsert
  · split at hinsert
    · cases hinsert
    · cases hinsert
      exact ht.put (.value hv)

/-- A table that is opened by its header and was implied so far comes last. -/
theorem Distinct.openTable (ht : t.Distinct) (h : Table.openTable key t = some t') :
    t'.Distinct := by
  unfold Table.openTable at h
  split at h
  · cases h
    exact ht.put (distinct_empty .opened).node
  · next fields hlookup =>
    cases h
    have hothers : Distinct { t with fields := t.fields.filter (·.1 ≠ key) } :=
      ⟨ht.keys.sublist (List.filter_sublist.map _),
        fun f hf => ht.fields f (List.mem_filter.1 hf).1⟩
    cases ht.of_lookup hlookup with
    | table hkeys hfields => exact hothers.put (.table hkeys hfields)
  · cases h

theorem Distinct.openNext (ht : t.Distinct) (h : Table.openNext key t = some t') :
    t'.Distinct := by
  have hnew : Distinct { fields := [] } := distinct_empty .opened
  unfold Table.openNext at h
  split at h
  · cases h
    exact ht.put (distinct_series_iff.2 (by simpa using hnew))
  · next tables hlookup =>
    cases h
    have hseries := distinct_series_iff.1 (ht.of_lookup hlookup)
    refine ht.put (distinct_series_iff.2 fun fields hfields => ?_)
    rcases List.mem_append.1 hfields with hold | hlast
    · exact hseries fields hold
    · rwa [List.mem_singleton.1 hlast]
  · cases h

end Table

/-! ### Reading -/

theorem distinct_integerOf {n : Int} {v : Value} (h : integerOf n = some v) : v.Distinct := by
  unfold integerOf at h
  split at h
  · cases h
    exact .integer n
  · cases h

theorem distinct_floatOf {negative : Bool} {digits : List Nat} {power : Int} {v : Value}
    (h : floatOf negative digits power = some v) : v.Distinct := by
  simp only [floatOf] at h
  split at h
  · cases h
  · cases h
    exact .float _

theorem distinct_readBased {base : Nat} {s rest : List Char} {v : Value}
    (h : readBased base s = some (v, rest)) : v.Distinct := by
  simp only [readBased, Option.bind_eq_bind, Option.bind_eq_some_iff] at h
  obtain ⟨⟨ds, s'⟩, -, n, hn, hpair⟩ := h
  cases hpair
  exact distinct_integerOf hn

theorem distinct_readDecimal {negative : Bool} {s rest : List Char} {v : Value}
    (h : readDecimal negative s = some (v, rest)) : v.Distinct := by
  simp only [readDecimal, Option.bind_eq_bind, Option.bind_eq_some_iff] at h
  obtain ⟨⟨whole, after⟩, -, h⟩ := h
  rcases after with - | ⟨c, after⟩
  · obtain ⟨n, hn, hpair⟩ := Option.bind_eq_some_iff.1 h
    cases hpair
    exact distinct_integerOf hn
  · split at h
    · simp only [Option.bind_eq_some_iff] at h
      obtain ⟨⟨fraction, _⟩, -, ⟨power, _⟩, -, x, hx, hpair⟩ := h
      cases hpair
      exact distinct_floatOf hx
    · dsimp only at h
      split at h
      · simp only [Option.bind_eq_some_iff] at h
        obtain ⟨⟨power, _⟩, -, x, hx, hpair⟩ := h
        cases hpair
        exact distinct_floatOf hx
      · obtain ⟨n, hn, hpair⟩ := Option.bind_eq_some_iff.1 h
        cases hpair
        exact distinct_integerOf hn

theorem distinct_readNumber {s rest : List Char} {v : Value}
    (h : readNumber s = some (v, rest)) : v.Distinct := by
  unfold readNumber at h
  split at h
  · exact distinct_readBased h
  · exact distinct_readBased h
  · exact distinct_readBased h
  · dsimp only at h
    split at h
    · cases h
      exact .float _
    · cases h
      exact .float _
    · exact distinct_readDecimal h

theorem distinct_readScalar {s rest : List Char} {v : Value}
    (h : readScalar s = some (v, rest)) : v.Distinct := by
  unfold readScalar at h
  split at h
  · cases h
    exact .dateTime _
  · exact distinct_readNumber h

/-- What the three readers of values promise with some bound on the parts they read. -/
structure ReadsDistinct (fuel : Nat) : Prop where
  value {levels : Nat} {s rest : List Char} {v : Value}
    (h : readValue fuel levels s = some (v, rest)) : v.Distinct
  items {levels : Nat} {s rest : List Char} {items : List Value}
    (h : readItems fuel levels s = some (items, rest)) : ∀ v ∈ items, v.Distinct
  pairs {levels : Nat} {t t' : Table} {s rest : List Char} (ht : t.Distinct)
    (h : readPairs fuel levels t s = some (t', rest)) : t'.Distinct

theorem distinct_finish {t : Table} (ht : t.Distinct) : (Value.table t.finish).Distinct :=
  ht.node.toValue

theorem readsDistinct_succ {fuel : Nat} (ih : ReadsDistinct fuel) : ReadsDistinct (fuel + 1) where
  value {levels s rest v} h := by
    rw [readValue.eq_def] at h
    dsimp only at h
    split at h
    · obtain ⟨⟨text, _⟩, -, hpair⟩ := Option.map_eq_some_iff.1 h
      cases hpair
      exact .string text
    · obtain ⟨⟨text, _⟩, -, hpair⟩ := Option.map_eq_some_iff.1 h
      cases hpair
      exact .string text
    · cases h
      exact .bool true
    · cases h
      exact .bool false
    · split at h
      · obtain ⟨⟨items, _⟩, hitems, hpair⟩ := Option.map_eq_some_iff.1 h
        cases hpair
        exact .array (ih.items hitems)
      · cases h
    · split at h
      · split at h
        · cases h
          exact distinct_finish (Table.distinct_empty .opened)
        · obtain ⟨⟨table, _⟩, htable, hpair⟩ := Option.map_eq_some_iff.1 h
          cases hpair
          exact distinct_finish (ih.pairs (Table.distinct_empty .opened) htable)
      · cases h
    · exact distinct_readScalar h
  items {levels s rest items} h := by
    rw [readItems.eq_def] at h
    dsimp only at h
    split at h
    · cases h
      simp
    · obtain ⟨⟨item, s'⟩, hitem, h⟩ := Option.bind_eq_some_iff.1 h
      dsimp only at h
      split at h
      · obtain ⟨⟨more, s''⟩, hmore, hpair⟩ := Option.bind_eq_some_iff.1 h
        cases hpair
        exact List.forall_mem_cons.2 ⟨ih.value hitem, ih.items hmore⟩
      · cases h
        simpa using ih.value hitem
      · cases h
  pairs {levels t t' s rest} ht h := by
    rw [readPairs.eq_def] at h
    obtain ⟨⟨key, s'⟩, -, h⟩ := Option.bind_eq_some_iff.1 h
    dsimp only at h
    split at h
    · simp only [Option.bind_eq_bind, Option.bind_eq_some_iff] at h
      obtain ⟨⟨value, s''⟩, hvalue, t'', hassign, h⟩ := h
      have ht'' : t''.Distinct := ht.assign (ih.value hvalue) hassign
      split at h
      · exact ih.pairs ht'' h
      · cases h
        exact ht''
      · cases h
    · cases h

theorem readsDistinct : ∀ fuel, ReadsDistinct fuel
  | 0 => ⟨by simp [readValue], by simp [readItems], by simp [readPairs]⟩
  | fuel + 1 => readsDistinct_succ (readsDistinct fuel)

/-! ### Documents -/

/-- A value that a statement assigns has distinct keys. -/
def Statement.Distinct : Statement → Prop
  | .assign _ v => v.Distinct
  | _ => True

theorem distinct_readStatement {s rest : List Char} {statement : Statement}
    (h : readStatement s = some (statement, rest)) : statement.Distinct := by
  unfold readStatement at h
  split at h
  · obtain ⟨⟨key, s'⟩, -, h⟩ := Option.bind_eq_some_iff.1 h
    split at h <;> cases h
    trivial
  · obtain ⟨⟨key, s'⟩, -, h⟩ := Option.bind_eq_some_iff.1 h
    split at h <;> cases h
    trivial
  · obtain ⟨⟨key, s'⟩, -, h⟩ := Option.bind_eq_some_iff.1 h
    dsimp only at h
    split at h
    · obtain ⟨⟨value, _⟩, hvalue, hpair⟩ := Option.bind_eq_some_iff.1 h
      cases hpair
      exact (readsDistinct _).value hvalue
    · cases h

theorem distinct_readStatements {fuel : Nat} {done statements : List Statement} {s : List Char}
    (hdone : ∀ statement ∈ done, statement.Distinct)
    (h : readStatements fuel done s = some statements) :
    ∀ statement ∈ statements, statement.Distinct := by
  induction fuel generalizing done s with
  | zero => cases h
  | succ fuel ih =>
    rw [readStatements] at h
    split at h
    · cases h
      exact fun statement hmem => hdone statement (List.mem_reverse.1 hmem)
    · split at h
      · exact ih hdone h
      · simp only [Option.bind_eq_bind, Option.bind_eq_some_iff] at h
        obtain ⟨⟨statement, s'⟩, hstatement, rest, -, h⟩ := h
        exact ih (List.forall_mem_cons.2 ⟨distinct_readStatement hstatement, hdone⟩) h

/-- Carrying out a statement keeps the keys of all tables distinct. -/
theorem Draft.distinct_add {d d' : Draft} {statement : Statement} (hd : d.root.Distinct)
    (hstatement : statement.Distinct) (h : d.add statement = some d') : d'.root.Distinct := by
  cases statement with
  | header key =>
    obtain ⟨root, hroot, hd'⟩ := Option.bind_eq_some_iff.1 h
    cases hd'
    exact hd.descend Table.Distinct.openTable key.path hroot
  | repeated key =>
    obtain ⟨root, hroot, hd'⟩ := Option.bind_eq_some_iff.1 h
    cases hd'
    exact hd.descend Table.Distinct.openNext key.path hroot
  | assign key value =>
    obtain ⟨root, hroot, hd'⟩ := Option.bind_eq_some_iff.1 h
    cases hd'
    exact hd.descend (fun ht => ht.assign hstatement) d.path hroot

theorem Draft.distinct_addAll {statements : List Statement} {d d' : Draft} (hd : d.root.Distinct)
    (hstatements : ∀ statement ∈ statements, statement.Distinct)
    (h : d.addAll statements = some d') : d'.root.Distinct := by
  induction statements generalizing d with
  | nil =>
    cases h
    exact hd
  | cons statement statements ih =>
    obtain ⟨hstatement, hstatements⟩ := List.forall_mem_cons.1 hstatements
    obtain ⟨next, hnext, h⟩ := Option.bind_eq_some_iff.1 h
    exact ih (distinct_add hd hstatement hnext) hstatements h

/-- No table of a document has a key twice, the document itself included. -/
theorem distinct_of_read {text : String} {document : Fields} (h : read text = some document) :
    (Value.table document).Distinct := by
  simp only [read, Option.bind_eq_bind, Option.bind_eq_some_iff] at h
  obtain ⟨statements, hstatements, d, hd, hdocument⟩ := h
  cases hdocument
  have hassigned := distinct_readStatements (by simp) hstatements
  exact distinct_finish (Draft.distinct_addAll (Table.distinct_empty .opened) hassigned hd)

end LintRun.Toml
