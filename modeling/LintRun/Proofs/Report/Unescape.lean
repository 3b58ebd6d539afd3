import LintRun.Proofs.Report.Escape

/-! Escaped text as one substitution, and the way back.

    The replacements that are made one after the other write for each character what a single pass
    writes (`entityOf_eq_written`): an entity for each of the five special ones and any other one as
    it is. A reader that goes over such text once, from left to right, finds the characters again,
    whether or not the text held entities before it was escaped (`decode_entityOf_append`). -/

namespace LintRun.Report

/-- What a single pass writes for a character. -/
def written : Char → List Char
  | '&' => "&amp;".toList
  | '<' => "&lt;".toList
  | '>' => "&gt;".toList
  | '"' => "&quot;".toList
  | '\'' => "&apos;".toList
  | c => [c]

/-- Reads characters once from left to right, with one for each entity. -/
def decode : List Char → List Char
  | '&' :: 'a' :: 'm' :: 'p' :: ';' :: rest => '&' :: decode rest
  | '&' :: 'l' :: 't' :: ';' :: rest => '<' :: decode rest
  | '&' :: 'g' :: 't' :: ';' :: rest => '>' :: decode rest
  | '&' :: 'q' :: 'u' :: 'o' :: 't' :: ';' :: rest => '"' :: decode rest
  | '&' :: 'a' :: 'p' :: 'o' :: 's' :: ';' :: rest => '\'' :: decode rest
  | c :: rest => c :: decode rest
  | [] => []

/-- The text that escaped text stands for. -/
def unescape (s : String) : String := String.ofList (decode s.toList)

/-! ### One pass -/

theorem written_of_mem : ∀ rule ∈ entities, written rule.1 = rule.2.toList := by decide

theorem entityOf_eq_written (c : Char) : entityOf c = written c := by
  rcases entityOf_cases c with ⟨e, he, hc⟩ | ⟨hplain, hc⟩
  · rw [hc, written_of_mem (c, e) he]
  · rw [hc]
    unfold written
    -- the special characters are not plain, and any other one is written as it is
    split <;> first | rfl | exact absurd hplain (by decide)

/-- An ampersand is written for each special character, and only there. -/
theorem count_entityOf (c : Char) : (entityOf c).count '&' = if isSpecial c then 1 else 0 := by
  have hamp : isSpecial '&' = true := by decide
  rcases entityOf_cases c with ⟨e, he, hc⟩ | ⟨hplain, hc⟩
  · obtain ⟨body, hbody, hbodyPlain⟩ := exists_body_of_mem_entities he
    have hnone : '&' ∉ body := fun hmem => by simp [hbodyPlain '&' hmem] at hamp
    have hspecial : isSpecial c = true := List.any_eq_true.2 ⟨(c, e), he, by simp⟩
    rw [hc, hbody, List.count_cons_self, List.count_eq_zero.2 hnone, if_pos hspecial]
  · have hne : c ≠ '&' := by
      rintro rfl
      rw [hplain] at hamp
      cases hamp
    rw [hc, List.count_singleton, hplain]
    simpa using hne

theorem count_escape (s : String) :
    (escape s).toList.count '&' = s.toList.countP isSpecial := by
  rw [toList_escape]
  induction s.toList with
  | nil => rfl
  | cons c cs ih =>
    rw [List.flatMap_cons, List.count_append, ih, count_entityOf, List.countP_cons, Nat.add_comm]

/-! ### The way back -/

theorem decode_of_mem :
    ∀ rule ∈ entities, ∀ rest, decode (rule.2.toList ++ rest) = rule.1 :: decode rest := by
  simp only [entities, List.forall_mem_cons, List.not_mem_nil, false_imp_iff, implies_true,
    and_true]
  exact ⟨fun _ => rfl, fun _ => rfl, fun _ => rfl, fun _ => rfl, fun _ => rfl⟩

theorem decode_cons {c : Char} (hc : c ≠ '&') (rest : List Char) :
    decode (c :: rest) = c :: decode rest := by
  rw [decode] <;> simp_all

/-- What is written for a character is read as that character, whatever follows it. -/
theorem decode_entityOf_append (c : Char) (rest : List Char) :
    decode (entityOf c ++ rest) = c :: decode rest := by
  rcases entityOf_cases c with ⟨e, he, hc⟩ | ⟨hplain, hc⟩
  · rw [hc]
    exact decode_of_mem (c, e) he rest
  · rw [hc]
    refine decode_cons ?_ rest
    rintro rfl
    exact absurd hplain (by decide)

theorem decode_flatMap (cs : List Char) : decode (cs.flatMap entityOf) = cs := by
  induction cs with
  | nil => rfl
  | cons c cs ih => rw [List.flatMap_cons, decode_entityOf_append, ih]

/-- Escaping, for all that it goes over a text five times or not at all, writes for each character
    what a single pass writes, and one reading gives the text back. So no two texts are escaped
    alike, and no entity is escaped that escaping has put in: the escaped text has one ampersand for
    each special character. -/
theorem escape_decodes (s : String) :
    (escape s).toList = s.toList.flatMap written ∧
    unescape (escape s) = s ∧
    Function.Injective escape ∧
    (escape s).toList.count '&' = s.toList.countP isSpecial := by
  refine ⟨?_, ?_, escape_injective, count_escape s⟩
  · rw [toList_escape]
    exact congrArg (s.toList.flatMap ·) (funext entityOf_eq_written)
  · rw [unescape, toList_escape, decode_flatMap, String.ofList_toList]

/-- A text that holds an entity already. -/
example : escape "&lt; & 'a'" = "&amp;lt; &amp; &apos;a&apos;" ∧
    unescape "&amp;lt; &amp; &apos;a&apos;" = "&lt; & 'a'" := by decide

end LintRun.Report
