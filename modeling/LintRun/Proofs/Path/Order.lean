import LintRun.Path.Basic
import Mathlib.Data.Prod.Lex
import Mathlib.Data.String.Basic

/-! The order of paths is linear, up to paths that are the same.

    A component comes before another one if its rank is less, or if both are names and its text is:
    that is the order of pairs (`Component.precedes_iff`). Lists of components are ordered by the
    first place at which they differ (`componentsLE_cons`), so what holds of components holds of
    paths. -/

namespace LintRun

namespace Component

/-- The rank of a component, and the text if it is a name. -/
def key (c : Component) : ℕ ×ₗ String :=
  toLex (c.rank, match c with | .name s => s | _ => "")

theorem key_injective : Function.Injective key := by
  intro a b h
  cases a <;> cases b <;> simp_all [key, rank]

theorem precedes_iff (a b : Component) : a.precedes b = true ↔ a.key < b.key := by
  cases a <;> cases b <;> simp [precedes, key, rank, Prod.Lex.toLex_lt_toLex]

end Component

namespace Path

variable {a b : Component} {as bs cs : List Component}

theorem componentsLE_cons : componentsLE (a :: as) (b :: bs) = true ↔
    a.key < b.key ∨ a.key = b.key ∧ componentsLE as bs = true := by
  by_cases hab : a = b
  · simp [componentsLE, hab]
  · simp [componentsLE, hab, Component.precedes_iff, Component.key_injective.eq_iff]

theorem componentsLE_trans (h : componentsLE as bs = true) (h' : componentsLE bs cs = true) :
    componentsLE as cs = true := by
  induction as generalizing bs cs with
  | nil => rfl
  | cons a as ih =>
    rcases bs with - | ⟨b, bs⟩
    · cases h
    rcases cs with - | ⟨c, cs⟩
    · cases h'
    rw [componentsLE_cons] at *
    rcases h with hab | ⟨hab, has⟩ <;> rcases h' with hbc | ⟨hbc, hbs⟩
    · exact .inl (hab.trans hbc)
    · exact .inl (hbc ▸ hab)
    · exact .inl (hab ▸ hbc)
    · exact .inr ⟨hab.trans hbc, ih has hbs⟩

theorem componentsLE_total (as bs : List Component) :
    componentsLE as bs = true ∨ componentsLE bs as = true := by
  induction as generalizing bs with
  | nil => exact .inl rfl
  | cons a as ih =>
    rcases bs with - | ⟨b, bs⟩
    · exact .inr rfl
    rw [componentsLE_cons, componentsLE_cons]
    rcases lt_trichotomy a.key b.key with hlt | heq | hgt
    · exact .inl (.inl hlt)
    · exact (ih bs).imp (fun h => .inr ⟨heq, h⟩) fun h => .inr ⟨heq.symm, h⟩
    · exact .inr (.inl hgt)

theorem componentsLE_antisymm (h : componentsLE as bs = true) (h' : componentsLE bs as = true) :
    as = bs := by
  induction as generalizing bs with
  | nil =>
    rcases bs with - | ⟨b, bs⟩
    · rfl
    · cases h'
  | cons a as ih =>
    rcases bs with - | ⟨b, bs⟩
    · cases h
    rw [componentsLE_cons] at h h'
    rcases h with hab | ⟨hab, has⟩ <;> rcases h' with hba | ⟨hba, hbs⟩
    · exact absurd hab hba.asymm
    · exact absurd hba hab.ne'
    · exact absurd hab hba.ne'
    · rw [Component.key_injective hab, ih has hbs]

theorem le_of_le_of_le (p q r : Path) (h : p.le q = true) (h' : q.le r = true) :
    p.le r = true := componentsLE_trans h h'

theorem le_or_le (p q : Path) : (p.le q || q.le p) = true := by
  rw [Bool.or_eq_true]
  exact componentsLE_total _ _

theorem same_of_le_of_le {p q : Path} (h : p.le q = true) (h' : q.le p = true) : p.Same q :=
  componentsLE_antisymm h h'

theorem le_of_same {p q : Path} (h : p.Same q) : p.le q = true := by
  rw [le, show p.components = q.components from h]
  exact (componentsLE_total _ _).elim id id

/-! ### Sorted paths -/

/-- Paths in their order. Those that are the same stay in the order that they had. -/
structure Sorted (paths sorted : List Path) : Prop where
  perm : sorted.Perm paths
  ordered : sorted.Pairwise fun p q => p.le q = true
  stable : ∀ p : Path, sorted.filter (p.Same ·) = paths.filter (p.Same ·)

theorem sorted_mergeSort (paths : List Path) : Sorted paths (paths.mergeSort le) := by
  have hperm : (paths.mergeSort le).Perm paths := List.mergeSort_perm ..
  refine ⟨hperm, List.pairwise_mergeSort le_of_le_of_le le_or_le paths, fun p => ?_⟩
  -- however they stand, paths that are the same are in order, so sorting leaves them as they stand
  have hordered : (paths.filter (p.Same ·)).Pairwise fun q r => q.le r = true := by
    refine List.pairwise_of_forall_mem_list fun q hq r hr => le_of_same ?_
    exact (of_decide_eq_true (List.mem_filter.1 hq).2).symm.trans
      (of_decide_eq_true (List.mem_filter.1 hr).2)
  have hkept := (List.sublist_mergeSort le_of_le_of_le le_or_le hordered
    List.filter_sublist).filter (p.Same ·)
  rw [List.filter_filter] at hkept
  simp only [Bool.and_self] at hkept
  exact (hkept.eq_of_length (hperm.filter _).length_eq.symm).symm

/-- There is one way to sort paths. -/
theorem Sorted.unique {paths ps qs : List Path} (hp : Sorted paths ps) (hq : Sorted paths qs) :
    ps = qs := by
  have hperm := hp.perm.trans hq.perm.symm
  have hstable (r : Path) := (hp.stable r).trans (hq.stable r).symm
  replace hp := hp.ordered
  replace hq := hq.ordered
  induction ps generalizing qs with
  | nil => exact hperm.nil_eq
  | cons p ps ih =>
    rcases qs with - | ⟨q, qs⟩
    · exact hperm.eq_nil
    -- each head is in both lists, so neither comes before the other
    have hpq : p.le q = true := by
      rcases List.mem_cons.1 (hperm.mem_iff.2 List.mem_cons_self) with rfl | hmem
      · exact le_of_same rfl
      · exact List.rel_of_pairwise_cons hp hmem
    have hqp : q.le p = true := by
      rcases List.mem_cons.1 (hperm.mem_iff.1 List.mem_cons_self) with rfl | hmem
      · exact le_of_same rfl
      · exact List.rel_of_pairwise_cons hq hmem
    have hself : p.Same p := rfl
    have hsame : p.Same q := same_of_le_of_le hpq hqp
    have hhead := hstable p
    simp only [List.filter_cons, hself, hsame, decide_true, if_true, List.cons.injEq] at hhead
    obtain ⟨rfl, -⟩ := hhead
    refine congrArg _ (ih hperm.cons_inv (fun r => ?_) hp.of_cons hq.of_cons)
    have hrest := hstable r
    by_cases hr : r.Same p <;> simpa [hr] using hrest

end Path

end LintRun
