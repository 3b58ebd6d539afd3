import LintRun.Json.Value
import Mathlib.Data.List.Induction
import Mathlib.Data.List.Nodup
import Mathlib.Data.List.Pairwise
import Mathlib.Data.String.Basic

/-! Fields that were set one after the other.

    They stand in the order of their names, each name once (`sorted_ofAssignments`), and each holds
    the last value that was set under its name (`get?_ofAssignments`). There is one such list for
    the same values under the same names (`Fields.Sorted.ext`), so the order in which fields were
    set is forgotten, and setting the fields of a list in its order makes the same list
    (`ofAssignments_of_sorted`). -/

namespace LintRun.Json.Fields

variable {fields others : Fields} {pairs pairs' : List (String × Value)} {name : String}
  {value : Value} {f : String × Value}

/-- Fields in the order of their names, each name once. -/
def Sorted (fields : Fields) : Prop := fields.Pairwise fun f g => f.1 < g.1

/-! ### Setting a field -/

theorem mem_set (h : f ∈ fields.set name value) : f = (name, value) ∨ f ∈ fields := by
  induction fields with
  | nil => exact .inl (List.mem_singleton.1 h)
  | cons head rest ih =>
    obtain ⟨other, old⟩ := head
    rw [set] at h
    split_ifs at h
    · exact (List.mem_cons.1 h).imp_right (List.mem_cons_of_mem _)
    · exact List.mem_cons.1 h
    · rcases List.mem_cons.1 h with rfl | h
      · exact .inr List.mem_cons_self
      · exact (ih h).imp_right (List.mem_cons_of_mem _)

theorem Sorted.set (h : Sorted fields) : Sorted (fields.set name value) := by
  induction fields with
  | nil => exact List.pairwise_singleton _ _
  | cons head rest ih =>
    obtain ⟨other, old⟩ := head
    obtain ⟨hhead, hrest⟩ := List.pairwise_cons.1 h
    rw [Fields.set]
    split_ifs with heq hlt
    · subst heq
      exact List.pairwise_cons.2 ⟨hhead, hrest⟩
    · refine List.pairwise_cons.2 ⟨fun f hf => ?_, h⟩
      rcases List.mem_cons.1 hf with rfl | hf
      · exact hlt
      · exact hlt.trans (hhead f hf)
    · refine List.pairwise_cons.2 ⟨fun f hf => ?_, ih hrest⟩
      rcases mem_set hf with rfl | hf
      · exact lt_of_le_of_ne (not_lt.1 hlt) (Ne.symm heq)
      · exact hhead f hf

/-- A field whose name comes after all others stands last. -/
theorem set_of_forall_lt (h : ∀ f ∈ fields, f.1 < name) :
    fields.set name value = fields ++ [(name, value)] := by
  induction fields with
  | nil => rfl
  | cons head rest ih =>
    obtain ⟨other, old⟩ := head
    obtain ⟨hother, hrest⟩ := List.forall_mem_cons.1 h
    rw [set, if_neg hother.ne', if_neg hother.not_gt, ih hrest, List.cons_append]

theorem get?_set (other : String) : (fields.set name value).get? other =
    if other = name then some value else fields.get? other := by
  split_ifs with h
  · rw [h, get?_set_self]
  · exact get?_set_of_ne h value fields

theorem mem_of_get? (h : fields.get? name = some value) : (name, value) ∈ fields := by
  induction fields with
  | nil => cases h
  | cons head rest ih =>
    obtain ⟨other, old⟩ := head
    rw [get?] at h
    split_ifs at h with heq
    · cases h
      rw [heq]
      exact List.mem_cons_self
    · exact List.mem_cons_of_mem _ (ih h)

theorem Sorted.get?_of_mem (h : Sorted fields) (hmem : (name, value) ∈ fields) :
    fields.get? name = some value := by
  induction fields with
  | nil => cases hmem
  | cons head rest ih =>
    obtain ⟨other, old⟩ := head
    obtain ⟨hhead, hrest⟩ := List.pairwise_cons.1 h
    rw [get?]
    rcases List.mem_cons.1 hmem with heq | hmem
    · obtain ⟨rfl, rfl⟩ := Prod.mk.inj heq
      rw [if_pos rfl]
    · rw [if_neg (hhead _ hmem).ne', ih hrest hmem]

/-- There is one sorted list of the same values under the same names. -/
theorem Sorted.ext (h : Sorted fields) (h' : Sorted others)
    (hget : ∀ name, fields.get? name = others.get? name) : fields = others := by
  have hmem : ∀ f, f ∈ fields ↔ f ∈ others := fun f =>
    ⟨fun hf => mem_of_get? ((hget f.1).symm.trans (h.get?_of_mem hf)),
      fun hf => mem_of_get? ((hget f.1).trans (h'.get?_of_mem hf))⟩
  have hnodup {l : Fields} (hl : Sorted l) : l.Nodup :=
    hl.imp fun hlt heq => hlt.ne (congrArg Prod.fst heq)
  exact ((List.perm_ext_iff_of_nodup (hnodup h) (hnodup h')).2 hmem).eq_of_pairwise
    (fun a b _ _ hab hba => absurd hab hba.not_gt) h h'

/-! ### Setting fields one after the other -/

theorem ofAssignments_concat (pairs : List (String × Value)) (f : String × Value) :
    ofAssignments (pairs ++ [f]) = (ofAssignments pairs).set f.1 f.2 := by
  rw [ofAssignments, List.foldl_append]
  rfl

theorem sorted_ofAssignments (pairs : List (String × Value)) : Sorted (ofAssignments pairs) := by
  induction pairs using List.reverseRecOn with
  | nil => exact List.Pairwise.nil
  | append_singleton pairs f ih =>
    rw [ofAssignments_concat]
    exact ih.set

theorem mem_ofAssignments (h : f ∈ ofAssignments pairs) : f ∈ pairs := by
  induction pairs using List.reverseRecOn with
  | nil => exact h
  | append_singleton pairs g ih =>
    rw [ofAssignments_concat] at h
    rw [List.mem_append, List.mem_singleton]
    exact (mem_set h).symm.imp_left ih

/-- A name has the last value that was set under it. -/
theorem get?_ofAssignments (pairs : List (String × Value)) (name : String) :
    (ofAssignments pairs).get? name = pairs.reverse.lookup name := by
  induction pairs using List.reverseRecOn with
  | nil => rfl
  | append_singleton pairs f ih =>
    obtain ⟨other, value⟩ := f
    rw [ofAssignments_concat, get?_set, ih, List.reverse_concat, List.lookup_cons]
    by_cases h : name = other
    · simp [h]
    · rw [if_neg h, beq_false_of_ne h]

/-- Fields that are in order already are what setting them makes. -/
theorem ofAssignments_of_sorted (h : Sorted fields) : ofAssignments fields = fields := by
  induction fields using List.reverseRecOn with
  | nil => rfl
  | append_singleton fields f ih =>
    obtain ⟨hfields, -, hlast⟩ := List.pairwise_append.1 h
    rw [ofAssignments_concat, ih hfields]
    exact set_of_forall_lt fun g hg => hlast g hg f List.mem_cons_self

theorem ofAssignments_eq_iff : ofAssignments pairs = ofAssignments pairs' ↔
    ∀ name, pairs.reverse.lookup name = pairs'.reverse.lookup name := by
  simp only [← get?_ofAssignments]
  exact ⟨fun h name => by rw [h],
    (sorted_ofAssignments pairs).ext (sorted_ofAssignments pairs')⟩

/-- Among names that are all different, each is found wherever it stands. -/
theorem lookup_reverse_eq_some_iff (h : (pairs.map (·.1)).Nodup) :
    pairs.reverse.lookup name = some value ↔ (name, value) ∈ pairs := by
  rw [← List.mem_reverse]
  constructor
  · intro hlookup
    obtain ⟨before, after, heq, -⟩ := List.lookup_eq_some_iff.1 hlookup
    simp [heq]
  · intro hmem
    obtain ⟨before, after, heq⟩ := List.append_of_mem hmem
    have hnodup : (pairs.reverse.map (·.1)).Nodup := by simpa using h
    rw [heq, List.map_append, List.map_cons] at hnodup
    refine List.lookup_eq_some_iff.2 ⟨before, after, heq, fun f hf => ?_⟩
    have hne : f.1 ≠ name := fun hname => List.disjoint_of_nodup_append hnodup
      (List.mem_map_of_mem hf) (hname ▸ List.mem_cons_self)
    exact bne_iff_ne.2 hne.symm

/-- Where each name is set once, the order in which that is done does not count. -/
theorem ofAssignments_perm (hperm : pairs.Perm pairs') (hnodup : (pairs.map (·.1)).Nodup) :
    ofAssignments pairs = ofAssignments pairs' := by
  have hnodup' : (pairs'.map (·.1)).Nodup := (hperm.map _).nodup_iff.1 hnodup
  refine ofAssignments_eq_iff.2 fun name => Option.ext fun value => ?_
  rw [lookup_reverse_eq_some_iff hnodup, lookup_reverse_eq_some_iff hnodup', hperm.mem_iff]

end LintRun.Json.Fields
