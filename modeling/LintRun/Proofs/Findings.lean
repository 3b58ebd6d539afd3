import LintRun.Findings
import Mathlib.Algebra.BigOperators.Group.List.Basic
import Mathlib.Algebra.GroupWithZero.Nat
import Mathlib.Data.Finset.Card
import Mathlib.Data.List.Induction

/-! Findings as the history of what was noted in them. Whatever the order of the notes, the records
    are the paths in the order of their first mention, each with the violations noted under it, and
    the index is the inverse of that list: `reflects_ofHistory`. The counts follow from it, and what
    is found under a path (`ofHistory_grouped`). -/

namespace LintRun

/-- One thing that is noted in the course of a run. -/
inductive Note where
  | mention (path : String)
  | add (path : String) (v : Violation)

namespace Note

/-- The file that a note is about. -/
def path : Note → String
  | .mention p => p
  | .add p _ => p

/-- The violation that a note adds to a file, if it does. -/
def addedTo (path : String) : Note → Option Violation
  | .mention _ => none
  | .add p v => if p = path then some v else none

/-- Whether a note adds a violation. -/
def adds : Note → Bool
  | .mention _ => false
  | .add _ _ => true

end Note

namespace Findings

/-- Findings with one more note. -/
def apply (f : Findings) : Note → Findings
  | .mention p => f.mention p
  | .add p v => f.add p v

/-- The findings after some notes. -/
def ofHistory (notes : List Note) : Findings := notes.foldl apply empty

/-- The paths of some notes, in the order of their first mention. -/
def mentioned (notes : List Note) : List String := (notes.map (·.path)).eraseDups

/-- The violations that some notes add to a file. -/
def under (notes : List Note) (path : String) : List Violation :=
  notes.filterMap (·.addedTo path)

/-- The record that some notes give a file. -/
def recordOf (notes : List Note) (path : String) : FileFindings := ⟨path, under notes path⟩

/-- The records of findings are those of a history, and the index is their inverse. -/
structure Reflects (f : Findings) (notes : List Note) : Prop where
  files : f.files = (mentioned notes).map (recordOf notes)
  index : f.index = (mentioned notes).zipIdx

theorem eraseDups_concat (l : List String) (a : String) :
    (l ++ [a]).eraseDups = if a ∈ l then l.eraseDups else l.eraseDups ++ [a] := by
  rw [List.eraseDups_append]
  by_cases ha : a ∈ l <;> simp [List.removeAll, ha, List.eraseDups_cons]

theorem nodup_eraseDups (l : List String) : l.eraseDups.Nodup := by
  induction l using List.reverseRecOn with
  | nil => exact List.nodup_nil
  | append_singleton l a ih =>
    rw [eraseDups_concat]
    split
    · exact ih
    · next ha =>
      rw [← List.concat_eq_append]
      exact ih.concat (mt List.mem_eraseDups.1 ha)

theorem eraseDups_of_nodup {l : List String} (h : l.Nodup) : l.eraseDups = l := by
  induction l using List.reverseRecOn with
  | nil => rfl
  | append_singleton l a ih =>
    obtain ⟨hl, -, hdisjoint⟩ := List.nodup_append'.1 h
    have ha : a ∉ l := fun ha => hdisjoint ha (List.mem_singleton_self a)
    rw [eraseDups_concat, if_neg ha, ih hl]

/-- Without its repetitions a list has the order in which its members first stand in it. -/
theorem pairwise_idxOf_eraseDups (l : List String) :
    l.eraseDups.Pairwise fun p q => l.idxOf p < l.idxOf q := by
  induction l using List.reverseRecOn with
  | nil => exact List.Pairwise.nil
  | append_singleton l a ih =>
    have hkept : l.eraseDups.Pairwise fun p q => (l ++ [a]).idxOf p < (l ++ [a]).idxOf q := by
      refine ih.imp_of_mem fun hp hq hlt => ?_
      rwa [List.idxOf_append_of_mem (List.mem_eraseDups.1 hp),
        List.idxOf_append_of_mem (List.mem_eraseDups.1 hq)]
    rw [eraseDups_concat]
    split
    · exact hkept
    · next ha =>
      refine List.pairwise_append.2 ⟨hkept, List.pairwise_singleton _ _, fun p hp q hq => ?_⟩
      have hpl : p ∈ l := List.mem_eraseDups.1 hp
      obtain rfl := List.mem_singleton.1 hq
      rw [List.idxOf_append_of_mem hpl, List.idxOf_append_of_notMem ha]
      exact Nat.lt_add_right _ (List.idxOf_lt_length_of_mem hpl)

theorem nodup_mentioned (notes : List Note) : (mentioned notes).Nodup := nodup_eraseDups _

theorem mem_mentioned {notes : List Note} {p : String} :
    p ∈ mentioned notes ↔ ∃ n ∈ notes, n.path = p := by
  simp [mentioned]

theorem mentioned_concat (notes : List Note) (n : Note) :
    mentioned (notes ++ [n]) =
      if n.path ∈ mentioned notes then mentioned notes else mentioned notes ++ [n.path] := by
  simp only [mentioned, List.map_append, List.map_singleton, eraseDups_concat, List.mem_eraseDups]

theorem under_concat (notes : List Note) (n : Note) (p : String) :
    under (notes ++ [n]) p = under notes p ++ (n.addedTo p).toList := by
  cases h : n.addedTo p <;> simp [under, List.filterMap_append, h]

theorem under_eq_nil_iff {notes : List Note} {p : String} :
    under notes p = [] ↔ ∀ n ∈ notes, n.adds = true → n.path ≠ p := by
  rw [under, List.filterMap_eq_nil_iff]
  refine forall₂_congr fun n _ => ?_
  cases n <;> simp [Note.addedTo, Note.adds, Note.path]

theorem under_of_not_mem {notes : List Note} {p : String} (h : p ∉ mentioned notes) :
    under notes p = [] :=
  under_eq_nil_iff.2 fun n hn _ hp => h (mem_mentioned.2 ⟨n, hn, hp⟩)

/-- An index that numbers paths finds a path where it first stands. -/
theorem lookup_zipIdx (l : List String) (p : String) (k : Nat) :
    (l.zipIdx k).lookup p = if p ∈ l then some (l.idxOf p + k) else none := by
  induction l generalizing k with
  | nil => rfl
  | cons q l ih =>
    rw [List.zipIdx_cons, List.lookup_cons, ih]
    by_cases hq : p = q
    · simp [hq]
    · simp [hq, beq_false_of_ne hq, List.idxOf_cons_ne l (Ne.symm hq), Nat.add_right_comm,
        Nat.add_assoc]

/-- Changing the record at the place of a path changes that of the path alone. -/
theorem modify_map_idxOf {l : List String} {p : String} (hl : l.Nodup) (hp : p ∈ l)
    (record : String → FileFindings) (change : FileFindings → FileFindings) :
    (l.map record).modify (l.idxOf p) change =
      l.map fun q => if q = p then change (record q) else record q := by
  induction l with
  | nil => simp at hp
  | cons q l ih =>
    obtain ⟨hq, hl⟩ := List.nodup_cons.1 hl
    by_cases hqp : q = p
    · have hrest : ∀ r ∈ l, r ≠ p := fun r hr hrp => hq (by rwa [hqp, ← hrp])
      simp only [hqp, List.idxOf_cons_self, List.map_cons, List.modify_zero_cons, if_true]
      exact congrArg _ (List.map_congr_left fun r hr => (if_neg (hrest r hr)).symm)
    · have hp' : p ∈ l := (List.mem_cons.1 hp).resolve_left (Ne.symm hqp)
      simp only [List.idxOf_cons_ne l hqp, List.map_cons, List.modify_succ_cons, if_neg hqp,
        ih hl hp']

namespace Reflects

variable {f : Findings} {notes : List Note}

/-- Placing the path of a note gives it a record, which has what earlier notes have added. -/
theorem place (h : Reflects f notes) (n : Note) :
    f.place n.path =
      ({ files := (mentioned (notes ++ [n])).map (recordOf notes)
         index := (mentioned (notes ++ [n])).zipIdx },
        (mentioned (notes ++ [n])).idxOf n.path) := by
  rw [Findings.place, h.index, lookup_zipIdx, mentioned_concat]
  by_cases hn : n.path ∈ mentioned notes
  · simp only [if_pos hn, Nat.add_zero]
    rw [← h.files, ← h.index]
  · simp only [if_neg hn]
    rw [h.files, List.length_map, List.zipIdx_append, List.map_append, List.idxOf_append_of_notMem hn]
    simp [recordOf, under_of_not_mem hn]

/-- One more note keeps records and index in step. -/
theorem step (h : Reflects f notes) (n : Note) : Reflects (f.apply n) (notes ++ [n]) := by
  have hmem : n.path ∈ mentioned (notes ++ [n]) := mem_mentioned.2 ⟨n, by simp, rfl⟩
  cases n with
  | mention p =>
    have hplace := h.place (.mention p)
    refine ⟨?_, congrArg (·.1.index) hplace⟩
    refine (congrArg (·.1.files) hplace).trans (List.map_congr_left fun q _ => ?_)
    simp [recordOf, under_concat, Note.addedTo]
  | add p v =>
    have hplace := h.place (.add p v)
    simp only [Note.path] at hplace hmem
    rw [apply, add, hplace]
    refine ⟨?_, rfl⟩
    simp only
    rw [modify_map_idxOf (nodup_mentioned _) hmem]
    refine List.map_congr_left fun q _ => ?_
    by_cases hq : q = p
    · simp [hq, recordOf, FileFindings.add, under_concat, Note.addedTo]
    · simp [hq, Ne.symm hq, recordOf, under_concat, Note.addedTo]

theorem foldl (h : Reflects f notes) (more : List Note) :
    Reflects (more.foldl apply f) (notes ++ more) := by
  induction more generalizing f notes with
  | nil => simpa using h
  | cons n more ih => simpa using ih (h.step n)

end Reflects

/-! ### Counts -/

theorem sum_indicator {l : List String} {p : String} (hl : l.Nodup) (hp : p ∈ l) :
    (l.map fun q => if p = q then 1 else 0).sum = 1 := by
  induction l with
  | nil => simp at hp
  | cons q l ih =>
    obtain ⟨hq, hl⟩ := List.nodup_cons.1 hl
    rcases List.mem_cons.1 hp with rfl | hp
    · have hrest : ∀ r ∈ l, (if p = r then 1 else 0) = 0 := by
        rintro r hr
        exact if_neg fun hpr => hq (by rwa [hpr])
      simp [List.map_congr_left hrest]
    · have hne : p ≠ q := fun hpq => hq (hpq ▸ hp)
      simp [hne, ih hl hp]

/-- Each violation that is noted is in the record of one path. -/
theorem length_flatMap_under {l : List String} (hl : l.Nodup) {notes : List Note}
    (hmem : ∀ n ∈ notes, n.path ∈ l) :
    (l.flatMap (under notes)).length = notes.countP Note.adds := by
  rw [List.length_flatMap]
  induction notes with
  | nil => simp [under]
  | cons n notes ih =>
    have hrest := ih fun m hm => hmem m (List.mem_cons_of_mem n hm)
    cases n with
    | mention p => simpa [under, Note.addedTo, Note.adds] using hrest
    | add p v =>
      have hp : p ∈ l := hmem _ List.mem_cons_self
      have hsplit : ∀ q, (under (.add p v :: notes) q).length =
          (if p = q then 1 else 0) + (under notes q).length := by
        intro q
        by_cases hq : p = q <;> simp [under, Note.addedTo, hq, Nat.add_comm]
      rw [List.countP_cons_of_pos rfl]
      simp only [hsplit, List.sum_map_add, sum_indicator hl hp, hrest, Nat.add_comm]

namespace Reflects

variable {f : Findings} {notes : List Note}

theorem processedCount_eq (h : Reflects f notes) :
    f.processedCount = (notes.map (·.path)).toFinset.card := by
  have hset : (mentioned notes).toFinset = (notes.map (·.path)).toFinset := by
    ext p
    simp [mentioned]
  rw [processedCount, h.files, List.length_map, ← hset,
    List.toFinset_card_of_nodup (nodup_mentioned notes)]

theorem violatingCount_eq (h : Reflects f notes) :
    f.violatingCount = ((notes.filter Note.adds).map (·.path)).toFinset.card := by
  have hset : ((mentioned notes).filter fun p => !(under notes p).isEmpty).toFinset =
      ((notes.filter Note.adds).map (·.path)).toFinset := by
    ext p
    simp only [List.mem_toFinset, List.mem_filter, List.mem_map, mem_mentioned, Bool.not_eq_true',
      List.isEmpty_eq_false_iff, ne_eq, under_eq_nil_iff]
    grind
  rw [violatingCount, violating, h.files, List.filter_map, List.length_map, ← hset,
    List.toFinset_card_of_nodup ((nodup_mentioned notes).filter _)]
  rfl

theorem violationCount_eq (h : Reflects f notes) :
    f.violationCount = notes.countP Note.adds := by
  rw [violationCount, h.files, List.flatMap_map]
  exact length_flatMap_under (nodup_mentioned notes) fun n hn => mem_mentioned.2 ⟨n, hn, rfl⟩

end Reflects

/-- Findings reflect their history. -/
theorem reflects_ofHistory (notes : List Note) : Reflects (ofHistory notes) notes := by
  have hempty : Reflects empty [] := ⟨rfl, rfl⟩
  exact hempty.foldl notes

/-- A path leads to its record, and one that was never mentioned leads nowhere. -/
theorem Reflects.get?_eq {f : Findings} {notes : List Note} (h : Reflects f notes) (p : String) :
    f.get? p = if p ∈ mentioned notes then some (recordOf notes p) else none := by
  rw [get?, h.index, lookup_zipIdx, h.files]
  by_cases hp : p ∈ mentioned notes
  · simp [hp, List.getElem?_idxOf hp]
  · simp [hp]

/-- Findings are their history grouped by path: the paths once each, in the order of their first
    mention, each with what was added under it in the order of the history. -/
theorem ofHistory_grouped (notes : List Note) :
    let f := ofHistory notes
    let paths := notes.map (·.path)
    f.files = paths.eraseDups.map (fun p => ⟨p, notes.filterMap (·.addedTo p)⟩) ∧
      (paths.eraseDups.Nodup ∧ (∀ p, p ∈ paths.eraseDups ↔ p ∈ paths) ∧
        paths.eraseDups.Pairwise fun p q => paths.idxOf p < paths.idxOf q) ∧
      (∀ p, f.get? p = if p ∈ paths then some ⟨p, notes.filterMap (·.addedTo p)⟩ else none) ∧
      f.processedCount = paths.toFinset.card ∧
      f.violatingCount = ((notes.filter Note.adds).map (·.path)).toFinset.card ∧
      f.violationCount = notes.countP Note.adds ∧
      f.totals = ⟨f.processedCount, f.violatingCount, f.violationCount⟩ := by
  intro f paths
  have hreflects : Reflects f notes := reflects_ofHistory notes
  refine ⟨hreflects.files, ⟨nodup_eraseDups paths, fun p => List.mem_eraseDups,
    pairwise_idxOf_eraseDups paths⟩, fun p => ?_, hreflects.processedCount_eq,
    hreflects.violatingCount_eq, hreflects.violationCount_eq, rfl⟩
  have hmem : p ∈ mentioned notes ↔ p ∈ paths := List.mem_eraseDups
  simp only [hreflects.get?_eq, hmem]
  rfl

end Findings

end LintRun
