import LintRun.Proofs.Report.Escape
import LintRun.Proofs.Report.Layout
import LintRun.Proofs.Report.Template

/-! What a page of HTML tells of the findings on it.

    Pages can be read back: an item tells its violation, a block its file with all violations, and a
    page its totals and all blocks. So two pages of one time are the same exactly if the same number
    of files was processed and the same was found in the same files (`render_html_eq_iff`). -/

namespace LintRun.Report.Html

/-- Evidence, up to the end of its item. Evidence that is missing is not evidence that is empty. -/
theorem delimited_evidence :
    Delimited fun e : Option String => written (evidencePieces e) ++ "</li>\n".toList := by
  have htext : Delimited fun s : String => "<pre class=\"evidence\">".toList ++
      ((escape s).toList ++ ("</pre>".toList ++ "</li>\n".toList)) :=
    (delimited_escape (by simp)).before _
  intro a b x y h
  rcases a with - | s <;> rcases b with - | t
  · exact ⟨rfl, List.append_cancel_left h⟩
  · simp [evidencePieces, Piece.text] at h
  · simp [evidencePieces, Piece.text] at h
  · simp only [evidencePieces, written_cons, written_nil, Piece.text, List.append_nil,
      List.append_assoc] at h
    obtain ⟨rfl, hrest⟩ := htext (by simpa only [List.append_assoc] using h)
    exact ⟨rfl, hrest⟩

theorem delimited_violation : Delimited fun v : Violation => written (itemPieces v) := by
  have hmessage : Delimited fun s : String => (escape s).toList ++
      ("</span> <span class=\"position\">".toList ++ "(line ".toList) :=
    delimited_escape (by simp)
  have hline : Delimited fun n : Nat => (toString n).toList ++ " character ".toList :=
    delimited_toString (c := ' ') (by simp) (by decide)
  have hcolumn : Delimited fun n : Nat => (toString n).toList ++ ")</span>".toList :=
    delimited_toString (c := ')') (by simp) (by decide)
  have hfields : Function.Injective fun v : Violation =>
      (v.message, v.line, v.column, v.evidence) := by
    rintro ⟨_, _, _, _⟩ ⟨_, _, _, _⟩ h
    cases h
    rfl
  have hwritten := ((hmessage.pair (hline.pair (hcolumn.pair delimited_evidence))).before
    "<li><span class=\"message\">".toList).comp hfields
  simpa only [itemPieces, written_append, written_cons, written_nil, Piece.text, List.append_nil,
    List.append_assoc] using hwritten

/-- The heading of a block, up to its closing tag. -/
def heading (path : String) (count : Nat) : List Char :=
  (escape path).toList ++ (" (".toList ++ ((toString count).toList ++ " violations)".toList))

theorem ne_lt_of_mem_heading {path : String} {count : Nat} :
    ∀ c ∈ heading path count, (c != '<') = true := by
  intro c hc
  rw [bne_iff_ne]
  rintro rfl
  simp only [heading, List.mem_append] at hc
  rcases hc with hpath | hopen | hcount | hclose
  · exact absurd (isSpecial_of_mem_escape hpath (by decide)) (by decide)
  · simp at hopen
  · exact absurd (isDigit_of_mem_toString hcount) (by decide)
  · simp at hclose

theorem written_filePieces (f : FileFindings) :
    written (filePieces f) = "<div class=\"file\">\n<h2>".toList ++
      (heading f.path f.violations.length ++ '<' :: ("/h2>\n".toList ++ ("<ol>\n".toList ++
        (f.violations.flatMap (fun v => written (itemPieces v)) ++
          "</ol>\n</div>\n".toList)))) := by
  have hclose : " violations)</h2>\n".toList = " violations)".toList ++ '<' :: "/h2>\n".toList := by
    simp
  simp only [filePieces, written_append, written_cons, written_nil, written_flatMap, Piece.text,
    heading, hclose, List.append_assoc, List.append_nil, List.nil_append, List.cons_append]

/-- A block of a file. Its path might hold anything, the words with which the heading goes on as
    well; but the heading ends at a tag, and the number in it is that of the items that follow. -/
theorem delimited_file : Delimited fun f : FileFindings => written (filePieces f) := by
  have hitems : Delimited fun vs : List Violation =>
      vs.flatMap (fun v => written (itemPieces v)) ++ "</ol>\n</div>\n".toList := by
    refine delimited_violation.flatMap fun v x y h => ?_
    simp [itemPieces, Piece.text] at h
  intro f g x y h
  simp only [written_filePieces, List.append_assoc, List.append_cancel_left_eq,
    List.cons_append] at h
  obtain ⟨hheading, hrest⟩ := append_cons_inj_of_forall (p := (· != '<')) ne_lt_of_mem_heading
    ne_lt_of_mem_heading rfl rfl h
  simp only [List.cons.injEq, true_and, List.append_cancel_left_eq] at hrest
  obtain ⟨hviolations, hend⟩ := hitems (by simpa only [List.append_assoc] using hrest)
  rw [heading, heading, hviolations, List.append_cancel_right_eq] at hheading
  have hpath := escape_injective (String.toList_injective hheading)
  refine ⟨?_, hend⟩
  cases f
  cases g
  simp_all

theorem delimited_counts : Delimited fun t : Totals => written (countPieces t) := by
  have hcount (stop : String) (hstop : stop.toList.head? = some '<') :
      Delimited fun n : Nat => (toString n).toList ++ stop.toList :=
    delimited_toString hstop (by decide)
  have hfields : Function.Injective fun t : Totals => (t.processed, t.violating, t.violations) := by
    rintro ⟨_, _, _⟩ ⟨_, _, _⟩ h
    cases h
    rfl
  have hprocessed := (hcount "</li>\n" (by simp)).before "<li>Processed files: ".toList
  have hviolating := (hcount "</li>\n" (by simp)).before "<li>Violating files: ".toList
  have hviolations := (hcount "</li>\n</ul>\n" (by simp)).before "<li>Total violations: ".toList
  have hwritten := (hprocessed.pair (hviolating.pair hviolations)).comp hfields
  simpa only [countPieces, written_cons, written_nil, Piece.text, List.append_nil,
    List.append_assoc] using hwritten

theorem delimited_blocks : Delimited fun files : List FileFindings =>
    files.flatMap (fun f => written (filePieces f)) ++ footer.toList := by
  refine delimited_file.flatMap fun f x y h => ?_
  simp [filePieces, Piece.text, footer] at h

/-- A page tells the totals and the records with violations. -/
theorem eq_of_render_eq {f g : Findings} {generated : Timestamp}
    (h : Format.html.render f generated = Format.html.render g generated) :
    f.totals = g.totals ∧ f.violating = g.violating := by
  have hwritten := congrArg String.toList h
  simp only [toList_render, pagePieces, written_append, written_cons, written_nil,
    written_flatMap, Piece.text, List.append_nil, List.append_assoc,
    List.append_cancel_left_eq] at hwritten
  obtain ⟨htotals, hrest⟩ := delimited_counts hwritten
  exact ⟨htotals, delimited_blocks.injective hrest⟩

/-- Two pages are the same if and only if they count the same files and list the same records. Then
    the texts are the same as well; and of the files without violations every report tells nothing
    but their number. -/
theorem render_html_eq_iff (f g : Findings) (generated : Timestamp) :
    (Format.html.render f generated = Format.html.render g generated ↔
      f.processedCount = g.processedCount ∧ f.violating = g.violating) ∧
    (Format.html.render f generated = Format.html.render g generated →
      Format.text.render f generated = Format.text.render g generated) ∧
    ∀ format : Format, f.violating = g.violating →
      f.files.countP (·.violations.isEmpty) = g.files.countP (·.violations.isEmpty) →
        format.render f generated = format.render g generated := by
  have hread (h : Format.html.render f generated = Format.html.render g generated) :
      f.processedCount = g.processedCount ∧ f.violating = g.violating := by
    obtain ⟨htotals, hviolating⟩ := eq_of_render_eq h
    exact ⟨congrArg Totals.processed htotals, hviolating⟩
  refine ⟨⟨hread, ?_⟩, ?_, ?_⟩
  · rintro ⟨hprocessed, hviolating⟩
    exact Format.html.render_congr generated hprocessed hviolating
  · intro h
    obtain ⟨hprocessed, hviolating⟩ := hread h
    exact Format.text.render_congr generated hprocessed hviolating
  · intro format hviolating hclean
    refine format.render_congr generated ?_ hviolating
    rw [f.processedCount_eq_add, g.processedCount_eq_add, hviolating, hclean]

end LintRun.Report.Html
