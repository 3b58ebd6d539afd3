import LintRun.Proofs.Findings

/-! The index of findings is the inverse of the list of records (`Indexed`): a path leads to a place
    exactly if the record there is the one of the path, so no path has two records. Placing a path
    keeps this whether or not the path is new (`Indexed.place`), and so does a change that leaves the
    path of a record alone (`Indexed.modify`). Hence each place that is looked up is that of a
    record, and a note changes the record of its own path only (`ofHistory_indexed`). -/

namespace LintRun.Findings

variable {f : Findings} {p : String} {i j : Nat} {record : FileFindings}

/-- The index is the inverse of the list of records. -/
structure Indexed (f : Findings) : Prop where
  lookup_iff : ∀ p i, f.index.lookup p = some i ↔
    ∃ record, f.files[i]? = some record ∧ record.path = p

theorem indexed_empty : Indexed empty := ⟨fun p i => by simp [empty]⟩

/-! ### Placing a path -/

/-- A path that has a place is placed there, and nothing changes. -/
theorem place_of_lookup (hp : f.index.lookup p = some i) : f.place p = (f, i) := by
  rw [place, hp]

/-- A path that has no place gets an empty record behind all others. -/
theorem place_of_unplaced (hp : f.index.lookup p = none) : f.place p =
    ({ files := f.files ++ [{ path := p }], index := f.index ++ [(p, f.files.length)] },
      f.files.length) := by
  rw [place, hp]

theorem lookup_concat_eq_some_iff {index : List (String × Nat)} {q : String} {n : Nat}
    (hp : index.lookup p = none) : (index ++ [(p, n)]).lookup q = some j ↔
      index.lookup q = some j ∨ p = q ∧ n = j := by
  rw [List.lookup_append, Option.or_eq_some_iff, List.lookup_cons, List.lookup_nil]
  refine or_congr_right ?_
  by_cases hq : q = p
  · simp [hq, hp]
  · simp [beq_false_of_ne hq, Ne.symm hq]

theorem getElem?_concat_eq_some_iff {files : List FileFindings} {new : FileFindings} :
    (files ++ [new])[j]? = some record ↔
      files[j]? = some record ∨ files.length = j ∧ new = record := by
  grind

/-- No other record moves or changes when a path is placed. -/
theorem getElem?_place_of_ne (hj : j ≠ (f.place p).2) :
    (f.place p).1.files[j]? = f.files[j]? := by
  cases hp : f.index.lookup p with
  | some i => rw [place_of_lookup hp]
  | none =>
    rw [place_of_unplaced hp] at hj ⊢
    refine Option.ext fun record => ?_
    rw [getElem?_concat_eq_some_iff]
    exact or_iff_left fun hnew => hj hnew.1.symm

/-- After a path is placed, it leads to its place. -/
theorem lookup_place (p : String) :
    (f.place p).1.index.lookup p = some (f.place p).2 := by
  cases hp : f.index.lookup p with
  | some i => rwa [place_of_lookup hp]
  | none =>
    rw [place_of_unplaced hp, lookup_concat_eq_some_iff hp]
    exact Or.inr ⟨rfl, rfl⟩

namespace Indexed

/-- No path has two records, since it leads to one place only. -/
theorem nodup (h : Indexed f) : (f.files.map (·.path)).Nodup := by
  rw [List.nodup_iff_getElem?_ne_getElem?]
  intro i j hij hj hsame
  obtain ⟨path, hpath⟩ : ∃ path, (f.files.map (·.path))[j]? = some path :=
    ⟨_, List.getElem?_eq_getElem hj⟩
  rw [hpath] at hsame
  rw [List.getElem?_map, Option.map_eq_some_iff, ← h.lookup_iff path] at hsame hpath
  exact Nat.ne_of_lt hij (Option.some.inj (hsame.symm.trans hpath))

/-- Placing a path keeps the index in step with the records. -/
theorem place (h : Indexed f) (p : String) : Indexed (f.place p).1 := by
  cases hp : f.index.lookup p with
  | some i => rwa [place_of_lookup hp]
  | none =>
    rw [place_of_unplaced hp]
    refine ⟨fun q j => ?_⟩
    rw [lookup_concat_eq_some_iff hp, h.lookup_iff]
    simp only [getElem?_concat_eq_some_iff, or_and_right, exists_or]
    refine or_congr_right ⟨?_, ?_⟩
    · rintro ⟨rfl, hj⟩
      exact ⟨_, ⟨hj, rfl⟩, rfl⟩
    · rintro ⟨record, ⟨hj, rfl⟩, hpath⟩
      exact ⟨hpath, hj⟩

/-- The path that is placed has its record at its place: the one it had, or an empty one. -/
theorem getElem?_place (h : Indexed f) (p : String) :
    (f.place p).1.files[(f.place p).2]? = some ((f.get? p).getD { path := p }) := by
  cases hp : f.index.lookup p with
  | some i =>
    obtain ⟨record, hrecord, -⟩ := (h.lookup_iff p i).1 hp
    rw [place_of_lookup hp, get?, hp]
    simp [hrecord]
  | none =>
    rw [place_of_unplaced hp, get?, hp]
    simp

/-- A change that leaves the path of a record alone keeps the index in step with the records. -/
theorem modify (h : Indexed f) (i : Nat) {change : FileFindings → FileFindings}
    (hchange : ∀ record, (change record).path = record.path) :
    Indexed { f with files := f.files.modify i change } := by
  refine ⟨fun p j => (h.lookup_iff p j).trans ?_⟩
  simp only [List.getElem?_modify]
  cases f.files[j]? with
  | none => simp
  | some record => by_cases hij : i = j <;> simp [hij, hchange]

/-- One more note keeps the index in step with the records. -/
theorem apply (h : Indexed f) (n : Note) : Indexed (f.apply n) := by
  cases n with
  | mention p => exact h.place p
  | add p v => exact (h.place p).modify _ fun _ => rfl

theorem foldl (h : Indexed f) (notes : List Note) : Indexed (notes.foldl Findings.apply f) := by
  induction notes generalizing f with
  | nil => exact h
  | cons n notes ih => exact ih (h.apply n)

/-- A path that has a place leads to the record there. -/
theorem exists_getElem (h : Indexed f) (hp : f.index.lookup p = some i) :
    ∃ hi : i < f.files.length, f.get? p = some f.files[i] ∧ f.files[i].path = p := by
  obtain ⟨record, hrecord, hpath⟩ := (h.lookup_iff p i).1 hp
  obtain ⟨hi, rfl⟩ := List.getElem?_eq_some_iff.1 hrecord
  refine ⟨hi, ?_, hpath⟩
  rw [get?, hp]
  exact hrecord

end Indexed

theorem indexed_ofHistory (notes : List Note) : Indexed (ofHistory notes) :=
  indexed_empty.foldl notes

/-- What the index is for. Whatever was noted before, a path leads to a place exactly if there is a
    record there and it is that of the path, and no two records have the same path. So the record
    that is read at the place of a path is there. A path that is placed has its record at its place,
    the one from before if there was one, and all other records are as they were, also after a
    violation is put into that record. -/
theorem ofHistory_inverse (notes : List Note) :
    let f := ofHistory notes
    (∀ p i, f.index.lookup p = some i ↔ ∃ _ : i < f.files.length, f.files[i].path = p) ∧
      (f.files.map (·.path)).Nodup ∧
      (∀ p i, f.index.lookup p = some i →
        ∃ _ : i < f.files.length, f.get? p = some f.files[i]) ∧
      ∀ p, let placed := f.place p
        ∃ _ : placed.2 < placed.1.files.length,
          placed.1.files[placed.2].path = p ∧
          placed.1.get? p = some placed.1.files[placed.2] ∧
          placed.1.files[placed.2] = (f.get? p).getD ⟨p, []⟩ ∧
          (∀ j ≠ placed.2, placed.1.files[j]? = f.files[j]?) ∧
          ∀ v, (f.add p v).files[placed.2]? = some (placed.1.files[placed.2].add v) ∧
            ∀ j ≠ placed.2, (f.add p v).files[j]? = f.files[j]? := by
  intro f
  have h : Indexed f := indexed_ofHistory notes
  refine ⟨fun p i => ⟨fun hp => ?_, ?_⟩, h.nodup, fun p i hp => ?_, fun p => ?_⟩
  · obtain ⟨hi, -, hpath⟩ := h.exists_getElem hp
    exact ⟨hi, hpath⟩
  · rintro ⟨hi, hpath⟩
    exact (h.lookup_iff p i).2 ⟨_, List.getElem?_eq_getElem hi, hpath⟩
  · obtain ⟨hi, hget, -⟩ := h.exists_getElem hp
    exact ⟨hi, hget⟩
  · obtain ⟨hi, hget, hpath⟩ := (h.place p).exists_getElem (lookup_place p)
    have hrecord := h.getElem?_place p
    rw [List.getElem?_eq_getElem hi, Option.some.injEq] at hrecord
    refine ⟨hi, hpath, hget, hrecord, fun j hj => getElem?_place_of_ne hj, fun v => ⟨?_, ?_⟩⟩
    · simp [add, List.getElem?_eq_getElem hi]
    · intro j hj
      rw [← getElem?_place_of_ne hj]
      simp [add, Ne.symm hj]

end LintRun.Findings
