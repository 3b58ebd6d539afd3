import LintRun.Report.Escape
import LintRun.Proofs.Report.Delimited

/-! Escaped text, character by character. The replacements, though made one after the other, put one
    text for each character (`toList_escape`): an entity, or the character itself. Of the entities
    only the table is used: each is an ampersand with harmless characters, and none begins another. -/

namespace LintRun.Report

/-- What stands for a character in escaped text. -/
def entityOf (c : Char) : List Char := ((entities.lookup c).map String.toList).getD [c]

/-! ### The table -/

theorem entityOf_of_mem : ∀ rule ∈ entities, entityOf rule.1 = rule.2.toList := by decide

theorem foldl_replaceChar_of_mem :
    ∀ rule ∈ entities, entities.foldl replaceChar [rule.1] = rule.2.toList := by decide

theorem head?_of_mem_entities : ∀ rule ∈ entities, rule.2.toList.head? = some '&' := by decide

theorem all_tail_of_mem_entities :
    ∀ rule ∈ entities, (rule.2.toList.tail.all fun c => !isSpecial c) = true := by decide

theorem eq_of_prefix_of_mem_entities :
    ∀ rule ∈ entities, ∀ other ∈ entities, rule.2.toList <+: other.2.toList → rule = other := by
  decide

/-- A character has a meaning in markup and is written as its entity, or it has none and stands for
    itself. -/
theorem entityOf_cases (c : Char) :
    (∃ e, (c, e) ∈ entities ∧ entityOf c = e.toList) ∨ isSpecial c = false ∧ entityOf c = [c] := by
  rcases h : entities.lookup c with - | e
  · right
    refine ⟨List.any_eq_false.2 fun rule hrule => ?_, by rw [entityOf, h]; rfl⟩
    have hne : c ≠ rule.1 := by simpa using List.lookup_eq_none_iff.1 h rule hrule
    simpa using hne.symm
  · left
    obtain ⟨first, rest, hentities, -⟩ := List.lookup_eq_some_iff.1 h
    have hmem : (c, e) ∈ entities := by simp [hentities]
    exact ⟨e, hmem, entityOf_of_mem _ hmem⟩

/-! ### Escaping -/

/-- Replacements treat each character by itself. -/
theorem foldl_replaceChar (rules : List (Char × String)) (cs : List Char) :
    rules.foldl replaceChar cs = cs.flatMap fun c => rules.foldl replaceChar [c] := by
  induction rules generalizing cs with
  | nil => exact (List.flatMap_singleton' cs).symm
  | cons rule rules ih =>
    rw [List.foldl_cons, ih, replaceChar, List.flatMap_assoc]
    refine List.flatMap_congr fun c _ => ?_
    rw [List.foldl_cons, ih (replaceChar [c] rule), replaceChar, List.flatMap_singleton]

theorem foldl_replaceChar_of_ne {rules : List (Char × String)} {c : Char}
    (h : ∀ rule ∈ rules, c ≠ rule.1) : rules.foldl replaceChar [c] = [c] := by
  induction rules with
  | nil => rfl
  | cons rule rules ih =>
    have hkept : replaceChar [c] rule = [c] := by simp [replaceChar, h rule]
    rw [List.foldl_cons, hkept, ih fun r hr => h r (List.mem_cons_of_mem _ hr)]

theorem foldl_replaceChar_entities (c : Char) : entities.foldl replaceChar [c] = entityOf c := by
  rcases entityOf_cases c with ⟨e, he, hc⟩ | ⟨hplain, hc⟩
  · rw [hc]
    exact foldl_replaceChar_of_mem (c, e) he
  · rw [hc]
    refine foldl_replaceChar_of_ne fun rule hrule => ?_
    have hne : rule.1 ≠ c := by simpa using List.any_eq_false.1 hplain rule hrule
    exact hne.symm

/-- Escaping writes one text for each character. -/
theorem toList_escape (s : String) : (escape s).toList = s.toList.flatMap entityOf := by
  rw [escape]
  split
  · rw [String.toList_ofList, foldl_replaceChar]
    exact List.flatMap_congr fun c _ => foldl_replaceChar_entities c
  · next hplain =>
    rw [Bool.not_eq_true, List.any_eq_false] at hplain
    refine ((List.flatMap_congr fun c hc => ?_).trans (List.flatMap_singleton' _)).symm
    rcases entityOf_cases c with ⟨e, he, -⟩ | ⟨-, hself⟩
    · exact absurd (List.any_eq_true.2 ⟨_, he, by simp⟩) (hplain c hc)
    · exact hself

/-! ### What escaped text may hold -/

/-- An entity is an ampersand and what has no meaning in markup. -/
theorem exists_body_of_mem_entities {rule : Char × String} (h : rule ∈ entities) :
    ∃ body, rule.2.toList = '&' :: body ∧ ∀ c ∈ body, isSpecial c = false := by
  obtain ⟨body, hbody⟩ := List.head?_eq_some_iff.1 (head?_of_mem_entities rule h)
  have htail := all_tail_of_mem_entities rule h
  rw [hbody, List.tail_cons] at htail
  exact ⟨body, hbody, by simpa using htail⟩

theorem isSpecial_of_mem_escape {s : String} {c : Char} (hc : c ∈ (escape s).toList)
    (hne : c ≠ '&') : isSpecial c = false := by
  rw [toList_escape, List.mem_flatMap] at hc
  obtain ⟨d, -, hd⟩ := hc
  rcases entityOf_cases d with ⟨e, he, hwritten⟩ | ⟨hplain, hwritten⟩
  · obtain ⟨body, hbody, hbodyPlain⟩ := exists_body_of_mem_entities he
    rw [hwritten, hbody, List.mem_cons] at hd
    exact hbodyPlain c (hd.resolve_left hne)
  · rw [hwritten, List.mem_singleton] at hd
    rwa [hd]

/-- Every ampersand of a text begins an entity. -/
def Escaped (cs : List Char) : Prop :=
  ∀ before rest, cs = before ++ '&' :: rest → ∃ rule ∈ entities, rule.2.toList <+: '&' :: rest

theorem escaped_of_notMem {cs : List Char} (h : '&' ∉ cs) : Escaped cs := by
  rintro before rest rfl
  exact absurd (by simp) h

namespace Escaped

theorem append {as bs : List Char} (ha : Escaped as) (hb : Escaped bs) : Escaped (as ++ bs) := by
  intro before rest h
  rcases List.append_eq_append_iff.1 h with ⟨mid, -, hbs⟩ | ⟨mid, has, hrest⟩
  · exact hb mid rest hbs
  rcases mid with - | ⟨c, mid⟩
  · exact hb [] rest hrest.symm
  · obtain ⟨rfl, rfl⟩ := List.cons.inj hrest
    obtain ⟨rule, hrule, hbegins⟩ := ha before mid has
    exact ⟨rule, hrule, hbegins.trans (List.prefix_append ('&' :: mid) bs)⟩

theorem flatMap {α : Type} {f : α → List Char} {l : List α} (h : ∀ a ∈ l, Escaped (f a)) :
    Escaped (l.flatMap f) := by
  induction l with
  | nil => exact escaped_of_notMem List.not_mem_nil
  | cons a l ih =>
    rw [List.flatMap_cons]
    exact (h a List.mem_cons_self).append (ih fun b hb => h b (List.mem_cons_of_mem a hb))

end Escaped

theorem escaped_entityOf (c : Char) : Escaped (entityOf c) := by
  have hamp : isSpecial '&' = true := by decide
  rcases entityOf_cases c with ⟨e, he, hc⟩ | ⟨hplain, hc⟩
  · obtain ⟨body, hbody, hplain⟩ := exists_body_of_mem_entities he
    simp only at hbody
    rw [hc]
    rintro (- | ⟨d, before⟩) rest h
    · exact ⟨(c, e), he, h ▸ List.prefix_rfl⟩
    · rw [hbody] at h
      have hmem : '&' ∈ body := by simp [(List.cons.inj h).2]
      simp [hplain '&' hmem] at hamp
  · rw [hc]
    refine escaped_of_notMem fun h => ?_
    rw [← List.mem_singleton.1 h, hamp] at hplain
    cases hplain

theorem escaped_escape (s : String) : Escaped (escape s).toList := by
  rw [toList_escape]
  exact Escaped.flatMap fun c _ => escaped_entityOf c

/-! ### Reading escaped text -/

/-- What stands for a character with a meaning in markup is not to be taken for one without. -/
theorem entity_append_ne {c d : Char} {e : String} (he : (c, e) ∈ entities)
    (hd : isSpecial d = false) (x y : List Char) : e.toList ++ x ≠ d :: y := by
  obtain ⟨body, hbody, -⟩ := exists_body_of_mem_entities he
  simp only at hbody
  rw [hbody]
  intro h
  rw [← (List.cons.inj h).1] at hd
  exact absurd hd (by decide)

theorem delimited_entityOf : Delimited entityOf := by
  intro c d x y h
  rcases entityOf_cases c with ⟨e, he, hc⟩ | ⟨hplain, hc⟩ <;>
    rcases entityOf_cases d with ⟨e', he', hd⟩ | ⟨hplain', hd⟩ <;> rw [hc, hd] at h
  · have hsame : (c, e) = (d, e') := by
      rcases List.prefix_or_prefix_of_prefix (List.prefix_append e.toList x)
        (h ▸ List.prefix_append e'.toList y) with hle | hle
      · exact eq_of_prefix_of_mem_entities (c, e) he (d, e') he' hle
      · exact (eq_of_prefix_of_mem_entities (d, e') he' (c, e) he hle).symm
    obtain ⟨rfl, rfl⟩ := Prod.mk.inj hsame
    exact ⟨rfl, List.append_cancel_left h⟩
  · exact absurd h (entity_append_ne he hplain' x y)
  · exact absurd h.symm (entity_append_ne he' hplain y x)
  · exact List.cons.inj h

/-- Escaped text, up to the next tag. -/
theorem delimited_escape {stop : List Char} (hstop : stop.head? = some '<') :
    Delimited fun s : String => (escape s).toList ++ stop := by
  obtain ⟨rest, rfl⟩ := List.head?_eq_some_iff.1 hstop
  have hlt : isSpecial '<' = true := by decide
  have hends : ∀ c x y, entityOf c ++ x ≠ '<' :: rest ++ y := by
    intro c x y h
    rcases entityOf_cases c with ⟨e, he, hc⟩ | ⟨hplain, hc⟩ <;> rw [hc] at h
    · obtain ⟨body, hbody, -⟩ := exists_body_of_mem_entities he
      simp only at hbody
      rw [hbody] at h
      exact absurd (List.cons.inj h).1 (by decide)
    · rw [(List.cons.inj h).1, hlt] at hplain
      cases hplain
  simp only [toList_escape]
  exact (delimited_entityOf.flatMap hends).comp fun _ _ => String.toList_injective

theorem escape_injective : Function.Injective escape := by
  intro s t h
  have hread : Delimited fun s : String => (escape s).toList ++ ['<'] := delimited_escape rfl
  exact hread.injective (by simp only [h])

end LintRun.Report
