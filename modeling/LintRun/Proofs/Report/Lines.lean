import LintRun.Proofs.Report.Delimited
import LintRun.Proofs.Report.Layout

/-! What a report in plain text tells of its findings.

    Nothing is escaped, so a path or a message may look like the words that follow it. But a report
    is read back line by line: an empty line ends a block, the number in a heading is that of the
    lines below it, and the numbers of a violation are the last ones of its line. So two reports of
    one time are the same exactly if they count the same files and tell the same of the same
    violations, as long as no path and no message goes over a line (`render_text_eq_iff`). -/

namespace LintRun.Report

/-- Rows that each end in a stop which none of them holds: all together they tell each of them. -/
theorem flatMap_concat_inj {α : Type} [DecidableEq α] {stop : α} {l m : List (List α)}
    (hl : ∀ as ∈ l, stop ∉ as) (hm : ∀ as ∈ m, stop ∉ as)
    (h : l.flatMap (· ++ [stop]) = m.flatMap (· ++ [stop])) : l = m := by
  have hkind {as : List α} (has : stop ∉ as) : ∀ a ∈ as, (a != stop) = true := by
    intro a ha
    exact bne_iff_ne.2 fun hstop => has (hstop ▸ ha)
  induction l generalizing m with
  | nil =>
    cases m with
    | nil => rfl
    | cons bs m => simp at h
  | cons as l ih =>
    cases m with
    | nil => simp at h
    | cons bs m =>
      obtain ⟨has, hrestl⟩ := List.forall_mem_cons.1 hl
      obtain ⟨hbs, hrestm⟩ := List.forall_mem_cons.1 hm
      simp only [List.flatMap_cons, List.append_assoc, List.singleton_append] at h
      obtain ⟨rfl, hrest⟩ := append_cons_inj_of_forall (p := (· != stop)) (hkind has) (hkind hbs)
        (by simp) (by simp) h
      rw [ih hrestl hrestm (List.cons.inj hrest).2]

/-- A number at the end of a text, after a character that is no digit. -/
theorem append_toString_inj {a b : List Char} {c : Char} {m n : Nat} (hc : c.isDigit = false)
    (h : a ++ c :: (toString m).toList = b ++ c :: (toString n).toList) : a = b ∧ m = n := by
  have hreverse := congrArg List.reverse h
  simp only [List.reverse_append, List.reverse_cons, List.append_assoc,
    List.singleton_append] at hreverse
  obtain ⟨hdigits, hrest⟩ := append_cons_inj_of_forall (p := Char.isDigit)
    (fun _ he => isDigit_of_mem_toString (List.mem_reverse.1 he))
    (fun _ he => isDigit_of_mem_toString (List.mem_reverse.1 he)) hc hc hreverse
  refine ⟨List.reverse_injective (List.cons.inj hrest).2, ?_⟩
  have hread : Delimited fun n : Nat => (toString n).toList ++ [c] := delimited_toString rfl hc
  exact hread.injective (by simp only [List.reverse_injective hdigits])

namespace Text

/-- What the text tells of a violation: its place and its message. -/
abbrev Told := Nat × Nat × String

/-- What the text tells of a file: its path and its violations. -/
def told (r : FileFindings) : String × List Told :=
  (r.path, r.violations.map fun v => (v.line, v.column, v.message))

/-! ### The lines of a report -/

/-- The line of a violation. -/
def itemLine : Told → List Char
  | (line, column, message) =>
    "    ".toList ++ (message.toList ++ (" (line".toList ++ ' ' :: ((toString line).toList ++
      (" character".toList ++ ' ' :: ((toString column).toList ++ [')'])))))

/-- The line above the violations of a file. -/
def headLine (path : String) (count : Nat) : List Char :=
  path.toList ++ (" (".toList ++ ((toString count).toList ++ " violations)".toList))

/-- The lines of a file that are not empty. -/
def fileLines (t : String × List Told) : List (List Char) :=
  headLine t.1 t.2.length :: t.2.map itemLine

/-- The lines of all files. An empty one ends each of them. -/
def blockLines (files : List (String × List Told)) : List (List Char) :=
  (files.map fileLines).flatMap (· ++ [[]])

/-- The characters of some lines. -/
def unlines (lines : List (List Char)) : List Char := lines.flatMap (· ++ ['\n'])

theorem toList_violation (v : Violation) :
    (violation v).toList = itemLine (v.line, v.column, v.message) ++ ['\n'] := by
  have hline : " (line ".toList = " (line".toList ++ [' '] := by simp
  have hcharacter : " character ".toList = " character".toList ++ [' '] := by simp
  have hend : ")\n".toList = [')', '\n'] := by simp
  delta violation
  simp only [itemLine, String.toList_append, List.append_assoc, List.cons_append, List.nil_append]
  change _ ++ (_ ++ (" (line ".toList ++ (_ ++ (" character ".toList ++ (_ ++ ")\n".toList))))) = _
  rw [hline, hcharacter, hend]
  simp only [List.append_assoc, List.cons_append, List.nil_append]
  rfl

theorem toList_file (r : FileFindings) :
    (file r).toList = unlines (fileLines (told r) ++ [[]]) := by
  have hhead : " violations)\n".toList = " violations)".toList ++ ['\n'] := by simp
  delta file
  simp only [unlines, fileLines, told, headLine, String.toList_append, String.toList_join,
    List.flatMap_append, List.flatMap_cons, List.flatMap_map, List.length_map, List.append_assoc,
    ← toList_violation]
  change _ ++ (_ ++ (_ ++ (" violations)\n".toList ++ _))) = _
  rw [hhead]
  simp only [List.append_assoc, List.nil_append]
  rfl

/-- A report in plain text: what stands above the counts, the counts, and the lines of all files. -/
theorem toList_render (f : Findings) (generated : Timestamp) :
    (Format.text.render f generated).toList =
      s!"{title}\nGenerated {generated.text}\n\n".toList ++
        ((toString f.processedCount).toList ++ (" processed files\n".toList ++
          ((toString f.violatingCount).toList ++ (" violating files\n".toList ++
            ((toString f.violationCount).toList ++ (" total violations\n\n".toList ++
              unlines (blockLines (f.violating.map told)))))))) := by
  have hfiles : (String.join (f.violating.map file)).toList =
      unlines (blockLines (f.violating.map told)) := by
    simp only [unlines, blockLines, String.toList_join, List.flatMap_map, List.flatMap_assoc]
    exact List.flatMap_congr fun r _ => toList_file r
  rw [Format.render, String.toList_append, hfiles]
  delta header
  simp only [String.toList_append, List.append_assoc]
  rfl

/-! ### Reading a report back -/

/-- A line of a violation ends in its numbers, whatever its message looks like. -/
theorem itemLine_injective : Function.Injective itemLine := by
  rintro ⟨line, column, message⟩ ⟨line', column', message'⟩ h
  simp only [itemLine, ← List.append_assoc, ← List.cons_append, List.append_cancel_right_eq] at h
  obtain ⟨hrest, rfl⟩ := append_toString_inj (by decide) h
  simp only [List.append_cancel_right_eq] at hrest
  obtain ⟨hmessage, rfl⟩ := append_toString_inj (by decide) hrest
  simp only [List.append_cancel_right_eq, List.append_cancel_left_eq] at hmessage
  rw [String.toList_injective hmessage]

/-- The lines of a file tell all that is told of it: below its heading stand as many lines as the
    heading says, so what is left of the heading is the path. -/
theorem fileLines_injective : Function.Injective fileLines := by
  rintro ⟨path, items⟩ ⟨path', items'⟩ h
  obtain ⟨hhead, hitems⟩ := List.cons.inj h
  obtain rfl := List.map_injective_iff.2 itemLine_injective hitems
  simp only [headLine, List.append_cancel_right_eq] at hhead
  rw [String.toList_injective hhead]

/-- No line of a file is empty. -/
theorem nil_notMem_fileLines (t : String × List Told) : [] ∉ fileLines t := by
  simp [fileLines, headLine, itemLine]

theorem blockLines_injective : Function.Injective blockLines := by
  intro files files' h
  have hnil (files : List (String × List Told)) : ∀ lines ∈ files.map fileLines, [] ∉ lines :=
    List.forall_mem_map.2 fun t _ => nil_notMem_fileLines t
  have hlines := flatMap_concat_inj (hnil files) (hnil files') h
  exact List.map_injective_iff.2 fileLines_injective hlines

theorem newline_notMem_toString (n : Nat) : '\n' ∉ (toString n).toList := fun h =>
  absurd (isDigit_of_mem_toString h) (by decide)

theorem newline_notMem_fileLines {t : String × List Told} (hpath : '\n' ∉ t.1.toList)
    (hitems : ∀ i ∈ t.2, '\n' ∉ i.2.2.toList) : ∀ line ∈ fileLines t, '\n' ∉ line := by
  refine List.forall_mem_cons.2 ⟨?_, List.forall_mem_map.2 fun i hi => ?_⟩
  · simp [headLine, hpath, newline_notMem_toString, -Nat.toString_eq_repr]
  · simp [itemLine, hitems i hi, newline_notMem_toString, -Nat.toString_eq_repr]

/-- Findings in which no path and no message goes over a line. -/
def OneLine (f : Findings) : Prop :=
  ∀ r ∈ f.files, '\n' ∉ r.path.toList ∧ ∀ v ∈ r.violations, '\n' ∉ v.message.toList

instance (f : Findings) : Decidable (OneLine f) :=
  inferInstanceAs (Decidable (∀ r ∈ f.files,
    '\n' ∉ r.path.toList ∧ ∀ v ∈ r.violations, '\n' ∉ v.message.toList))

theorem OneLine.newline_notMem {f : Findings} (h : OneLine f) :
    ∀ line ∈ blockLines (f.violating.map told), '\n' ∉ line := by
  intro line hline
  simp only [blockLines, List.map_map, List.mem_flatMap, List.mem_map, List.mem_append,
    List.mem_singleton] at hline
  obtain ⟨_, ⟨r, hr, rfl⟩, hline | rfl⟩ := hline
  · obtain ⟨hpath, hmessages⟩ := h r (List.mem_of_mem_filter hr)
    have hitems : ∀ i ∈ (told r).2, '\n' ∉ i.2.2.toList := List.forall_mem_map.2 hmessages
    exact newline_notMem_fileLines hpath hitems line hline
  · exact List.not_mem_nil

/-- What is told of the files with violations decides two of the counts. -/
theorem counts_of_told {f g : Findings} (h : f.violating.map told = g.violating.map told) :
    f.violatingCount = g.violatingCount ∧ f.violationCount = g.violationCount := by
  have hlengths (f : Findings) : f.violating.map (·.violations.length) =
      (f.violating.map told).map fun t => t.2.length := by
    simp [told, Function.comp_def]
  constructor
  · simpa [Findings.violatingCount] using congrArg List.length h
  · rw [f.violationCount_eq_sum, g.violationCount_eq_sum, hlengths, hlengths, h]

/-- Two reports in plain text are the same if and only if they count the same files and tell the
    same of the files with violations: their paths, and the place and the message of each
    violation. -/
theorem render_text_eq_iff {f g : Findings} (hf : OneLine f) (hg : OneLine g)
    (generated : Timestamp) :
    Format.text.render f generated = Format.text.render g generated ↔
      f.processedCount = g.processedCount ∧ f.violating.map told = g.violating.map told := by
  rw [← String.toList_inj, toList_render, toList_render]
  constructor
  · intro h
    have hcount (stop : String) (hstop : stop.toList.head? = some ' ') :
        Delimited fun n : Nat => (toString n).toList ++ stop.toList :=
      delimited_toString hstop (by decide)
    have hcounts := (hcount " processed files\n" (by simp)).pair
      ((hcount " violating files\n" (by simp)).pair (hcount " total violations\n\n" (by simp)))
    have hread := List.append_cancel_left h
    simp only [← List.append_assoc] at hread
    obtain ⟨hsame, hlines⟩ := hcounts (a := (_, _, _)) (b := (_, _, _))
      (by simpa only [List.append_assoc] using hread)
    have hblocks := flatMap_concat_inj hf.newline_notMem hg.newline_notMem hlines
    exact ⟨congrArg Prod.fst hsame, blockLines_injective hblocks⟩
  · rintro ⟨hprocessed, htold⟩
    obtain ⟨hviolating, hviolations⟩ := counts_of_told htold
    rw [hprocessed, hviolating, hviolations, htold]

/-- A path that looks like a heading and a message that ends like a line are told apart from these;
    evidence is not told. -/
theorem render_text_eq_iff_mimicry :
    let found (path message : String) (evidence : Option String) : Findings :=
      (Findings.empty.mention "clean.js").add path ⟨1, 2, message, evidence⟩
    let f := found "x (1 violations)" "m (line 1 character 2)" none
    let g := found "x (1 violations)" "m (line 1 character 2)" (some "e")
    let k := found "x" "m (line 1 character 2)" none
    (OneLine f ∧ OneLine g ∧ OneLine k) ∧
      Format.text.render f default = Format.text.render g default ∧
      Format.text.render f default ≠ Format.text.render k default := by
  intro found f g k
  have hf : OneLine f := by decide
  have hg : OneLine g := by decide
  have hk : OneLine k := by decide
  refine ⟨⟨hf, hg, hk⟩, (render_text_eq_iff hf hg default).2 (by decide), fun h => ?_⟩
  exact absurd ((render_text_eq_iff hf hk default).1 h) (by decide)

end Text

end LintRun.Report
