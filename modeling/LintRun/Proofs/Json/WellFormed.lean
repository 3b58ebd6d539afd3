import LintRun.Json.Decode
import LintRun.Proofs.Json.Fields
import LintRun.Proofs.Json.Numeral

/-! Values that are read from a text, and texts that are printed from a value.

    Every value that was read is well-formed (`wellFormed_of_read`). Of a well-formed value without
    floats, the printed text is read back unless it is nested too deep (`read_print_eq`), and two
    such values with the same text are the same value (`print_injective`). -/

namespace LintRun.Json

/-! ### What a value is made of -/

/-- A value that can be held: its integers fit 64 bits, and the fields of each object stand in the
    order of their names. -/
inductive Value.WellFormed : Value → Prop
  | null : WellFormed .null
  | bool (b : Bool) : WellFormed (.bool b)
  | integer {n : Int} (h : Fits n) : WellFormed (.integer n)
  | float (x : Float) : WellFormed (.float x)
  | string (s : String) : WellFormed (.string s)
  | array {items : List Value} (h : ∀ v ∈ items, WellFormed v) : WellFormed (.array items)
  | object {fields : Fields} (hsorted : fields.Sorted) (h : ∀ f ∈ fields, WellFormed f.2) :
    WellFormed (.object fields)

/-- A value without floats. -/
inductive Value.FloatFree : Value → Prop
  | null : FloatFree .null
  | bool (b : Bool) : FloatFree (.bool b)
  | integer (n : Int) : FloatFree (.integer n)
  | string (s : String) : FloatFree (.string s)
  | array {items : List Value} (h : ∀ v ∈ items, FloatFree v) : FloatFree (.array items)
  | object {fields : Fields} (h : ∀ f ∈ fields, FloatFree f.2) : FloatFree (.object fields)

mutual
/-- How many levels of arrays and objects a value has. -/
def Value.depth : Value → Nat
  | .array items => Value.depthItems items + 1
  | .object fields => Value.depthFields fields + 1
  | _ => 0

/-- The most levels among some items. -/
def Value.depthItems : List Value → Nat
  | [] => 0
  | v :: rest => max v.depth (Value.depthItems rest)

/-- The most levels among some fields. -/
def Value.depthFields : List (String × Value) → Nat
  | [] => 0
  | (_, v) :: rest => max v.depth (Value.depthFields rest)
end

theorem Value.depthFields_le_iff {fields : Fields} {n : Nat} :
    depthFields fields ≤ n ↔ ∀ f ∈ fields, f.2.depth ≤ n := by
  induction fields with
  | nil => simp [depthFields]
  | cons f rest ih =>
    obtain ⟨name, v⟩ := f
    rw [depthFields, Nat.max_le, ih, List.forall_mem_cons]

/-! ### Values that were read -/

theorem wellFormed_of_value {n : Numeral} {v : Value} (h : n.value = some v) : v.WellFormed := by
  obtain ⟨m, hfits, rfl⟩ | ⟨x, rfl⟩ := Numeral.value_cases h
  · exact .integer hfits
  · exact .float x

mutual
/-- The value of a document is well-formed. -/
theorem wellFormed_of_build {v : Value} : ∀ {w : Written}, w.build = some v → v.WellFormed
  | .null, h => by
    cases h
    exact .null
  | .bool b, h => by
    cases h
    exact .bool b
  | .number n, h => wellFormed_of_value h
  | .string text, h => by
    obtain ⟨s, -, rfl⟩ := Option.map_eq_some_iff.1 h
    exact .string s
  | .array items, h => by
    rw [Written.build, Option.map_eq_some_iff] at h
    obtain ⟨vs, hvs, rfl⟩ := h
    exact .array (wellFormed_of_buildItems hvs)
  | .object fields, h => by
    rw [Written.build, Option.map_eq_some_iff] at h
    obtain ⟨pairs, hpairs, rfl⟩ := h
    exact .object (Fields.sorted_ofAssignments pairs) fun f hf =>
      wellFormed_of_buildFields hpairs f (Fields.mem_ofAssignments hf)

theorem wellFormed_of_buildItems {vs : List Value} :
    ∀ {ws : List Written}, Written.buildItems ws = some vs → ∀ v ∈ vs, v.WellFormed
  | [], h => by
    cases h
    exact List.forall_mem_nil _
  | w :: rest, h => by
    simp only [Written.buildItems, Option.bind_eq_bind, Option.bind_eq_some_iff, Option.pure_def,
      Option.some.injEq] at h
    obtain ⟨v, hv, vs, hvs, rfl⟩ := h
    exact List.forall_mem_cons.2 ⟨wellFormed_of_build hv, wellFormed_of_buildItems hvs⟩

theorem wellFormed_of_buildFields {pairs : List (String × Value)} :
    ∀ {ws : List (Option String × Written)}, Written.buildFields ws = some pairs →
      ∀ f ∈ pairs, f.2.WellFormed
  | [], h => by
    cases h
    exact List.forall_mem_nil _
  | (name, w) :: rest, h => by
    simp only [Written.buildFields, Option.bind_eq_bind, Option.bind_eq_some_iff, Option.pure_def,
      Option.some.injEq] at h
    obtain ⟨name, -, v, hv, pairs, hpairs, rfl⟩ := h
    exact List.forall_mem_cons.2 ⟨wellFormed_of_build hv, wellFormed_of_buildFields hpairs⟩
end

/-- A value that was read from a text is well-formed. -/
theorem wellFormed_of_read {s : String} {v : Value} (h : Value.read s = some v) :
    v.WellFormed := by
  simp only [Value.read, Option.bind_eq_bind, Option.bind_eq_some_iff, Written.toValue] at h
  obtain ⟨w, -, h⟩ := h
  split_ifs at h
  exact wellFormed_of_build h

/-! ### Values that were printed -/

/-- The document that a value is written as is as deep and has this value. -/
structure Value.WritesAs (v : Value) (w : Written) : Prop where
  written : v.written? = some w
  build : w.build = some v
  depth : w.depth = v.depth

theorem exists_writtenItems? {items : List Value} (h : ∀ v ∈ items, ∃ w, v.WritesAs w) :
    ∃ ws, Value.writtenItems? items = some ws ∧ Written.buildItems ws = some items ∧
      Written.depthItems ws = Value.depthItems items := by
  induction items with
  | nil => exact ⟨[], rfl, rfl, rfl⟩
  | cons v rest ih =>
    obtain ⟨⟨w, hw⟩, hrest⟩ := List.forall_mem_cons.1 h
    obtain ⟨ws, hwritten, hbuild, hdepth⟩ := ih hrest
    refine ⟨w :: ws, ?_, ?_, ?_⟩
    · simp [Value.writtenItems?, hw.written, hwritten]
    · simp [Written.buildItems, hw.build, hbuild]
    · rw [Written.depthItems, Value.depthItems, hw.depth, hdepth]

theorem exists_writtenFields? {fields : Fields} (h : ∀ f ∈ fields, ∃ w, f.2.WritesAs w) :
    ∃ ws, Value.writtenFields? fields = some ws ∧ Written.buildFields ws = some fields ∧
      Written.depthFields ws = Value.depthFields fields := by
  induction fields with
  | nil => exact ⟨[], rfl, rfl, rfl⟩
  | cons f rest ih =>
    obtain ⟨name, v⟩ := f
    obtain ⟨⟨w, hw⟩, hrest⟩ := List.forall_mem_cons.1 h
    obtain ⟨ws, hwritten, hbuild, hdepth⟩ := ih hrest
    refine ⟨(some name, w) :: ws, ?_, ?_, ?_⟩
    · simp [Value.writtenFields?, hw.written, hwritten]
    · simp [Written.buildFields, hw.build, hbuild]
    · rw [Written.depthFields, Value.depthFields, hw.depth, hdepth]

/-- A well-formed value without floats is written as a document that has this value. -/
theorem exists_writesAs {v : Value} (hv : v.WellFormed) (hfree : v.FloatFree) :
    ∃ w, v.WritesAs w := by
  induction hfree with
  | null => exact ⟨.null, rfl, rfl, rfl⟩
  | bool b => exact ⟨.bool b, rfl, rfl, rfl⟩
  | integer n =>
    cases hv with
    | integer hfits => exact ⟨.number (.ofInt n), rfl, Numeral.value_ofInt hfits, rfl⟩
  | string s => exact ⟨.string (some s), rfl, rfl, rfl⟩
  | @array items _ ih =>
    cases hv with
    | array hitems =>
      obtain ⟨ws, hwritten, hbuild, hdepth⟩ :=
        exists_writtenItems? fun v hmem => ih v hmem (hitems v hmem)
      exact ⟨.array ws, by rw [Value.written?, hwritten]; rfl, by rw [Written.build, hbuild]; rfl,
        by rw [Written.depth, Value.depth, hdepth]⟩
  | @object fields _ ih =>
    cases hv with
    | object hsorted hfields =>
      obtain ⟨ws, hwritten, hbuild, hdepth⟩ :=
        exists_writtenFields? fun f hmem => ih f hmem (hfields f hmem)
      refine ⟨.object ws, by rw [Value.written?, hwritten]; rfl, ?_,
        by rw [Written.depth, Value.depth, hdepth]⟩
      rw [Written.build, hbuild, Option.map_some, Fields.ofAssignments_of_sorted hsorted]

theorem Value.WritesAs.read_print {v : Value} {w : Written} (h : v.WritesAs w) :
    Written.read v.print = some w :=
  Json.read_print h.written

theorem Value.WritesAs.toValue {v : Value} {w : Written} (h : v.WritesAs w) (levels : Nat) :
    w.toValue levels = if v.depth ≤ levels then some v else none := by
  rw [Written.toValue, h.depth, h.build]

/-- The text of a value is read back unless the value is nested too deep. -/
theorem read_print_eq {v : Value} (hv : v.WellFormed) (hfree : v.FloatFree) :
    Value.read v.print = if v.depth ≤ maxDepth then some v else none := by
  obtain ⟨w, hw⟩ := exists_writesAs hv hfree
  rw [Value.read, hw.read_print]
  exact hw.toValue maxDepth

/-- Two values with the same text are the same, however deep they are nested. -/
theorem print_injective {u v : Value} (hu : u.WellFormed) (hufree : u.FloatFree)
    (hv : v.WellFormed) (hvfree : v.FloatFree) (h : u.print = v.print) : u = v := by
  obtain ⟨wu, hwu⟩ := exists_writesAs hu hufree
  obtain ⟨wv, hwv⟩ := exists_writesAs hv hvfree
  have hsame : wu = wv :=
    Option.some.inj (hwu.read_print.symm.trans (h ▸ hwv.read_print))
  exact Option.some.inj (hwu.build.symm.trans (hsame ▸ hwv.build))

end LintRun.Json
