import LintRun.Proofs.Json.Numeral
import LintRun.Proofs.Text.Utf8
import LintRun.Task.Workspace

/-! The format in which a linter command hands its violations over. A list of violations that was
    printed is read back (`readList_printList`), whatever blanks a command puts around it
    (`textOf_padded`). So a command loses none of its findings on the way, and the answer to a call
    is a list of violations only if the command has printed this list, or nothing at all before it
    ended well (`lintWith_wire`). -/

namespace LintRun

/-! ### Violations -/

namespace Violation

/-- The written form of a violation. Evidence has a field only if there is some. -/
def written (v : Violation) : Json.Written :=
  .object ([(some "line", .number (.ofInt v.line)), (some "column", .number (.ofInt v.column)),
    (some "message", .string (some v.message))] ++
    (v.evidence.map fun e => (some "evidence", Json.Written.string (some e))).toList)

theorem written?_fields (v : Violation) :
    (Json.Value.object v.fields).written? = some v.written := by
  obtain ⟨line, column, message, evidence⟩ := v
  cases evidence <;> rfl

theorem writtenItems?_map_fields (vs : List Violation) :
    Json.Value.writtenItems? (vs.map fun v => .object v.fields) = some (vs.map written) := by
  induction vs with
  | nil => rfl
  | cons v vs ih =>
    rw [List.map_cons, Json.Value.writtenItems?, written?_fields, ih]
    rfl

/-- The numbers of a violation are read if they fit 64 bits. -/
def Fits (v : Violation) : Prop := v.line < 2 ^ 64 ∧ v.column < 2 ^ 64

theorem ofWritten_written {v : Violation} (hv : v.Fits) : ofWritten v.written = some v := by
  obtain ⟨line, column, message, evidence⟩ := v
  have hline : (Json.Numeral.ofInt line).natural? = some line := Json.natural?_ofInt hv.1
  have hcolumn : (Json.Numeral.ofInt column).natural? = some column := Json.natural?_ofInt hv.2
  cases evidence <;>
    simp [ofWritten, written, Json.Written.record, evidenceOf, Json.Written.natural?,
      Json.Written.text?, hline, hcolumn]

theorem mapM_ofWritten {vs : List Violation} (hvs : ∀ v ∈ vs, v.Fits) :
    (vs.map written).mapM ofWritten = some vs := by
  induction vs with
  | nil => rfl
  | cons v vs ih =>
    obtain ⟨hv, hvs⟩ := List.forall_mem_cons.1 hvs
    simp [ofWritten_written hv, ih hvs]

/-- A printed list of violations is read back. -/
theorem readList_printList {vs : List Violation} (hvs : ∀ v ∈ vs, v.Fits) :
    readList (printList vs) = some vs := by
  have hwritten : (Json.Value.array (vs.map fun v => .object v.fields)).written? =
      some (.array (vs.map written)) := by
    rw [Json.Value.written?, writtenItems?_map_fields]
    rfl
  rw [readList, printList, Json.read_print hwritten]
  exact mapM_ofWritten hvs

/-- No text at all is no list of violations. -/
theorem readList_empty : readList "" = none := rfl

end Violation

/-! ### Blanks around a text -/

namespace Text

/-- Of a text in brackets, blanks before and after are trimmed and nothing else. -/
theorem trim_padded {before after : List Char} (hbefore : ∀ c ∈ before, isBlank c = true)
    (hafter : ∀ c ∈ after, isBlank c = true) {first last : Char} (hfirst : isBlank first = false)
    (hlast : isBlank last = false) (inner : List Char) :
    trim (String.ofList (before ++ (first :: (inner ++ [last])) ++ after)) =
      String.ofList (first :: (inner ++ [last])) := by
  have hreverse : ∀ c ∈ after.reverse, isBlank c = true := fun c hc =>
    hafter c (List.mem_reverse.1 hc)
  have hstart : (before ++ (first :: (inner ++ [last])) ++ after).dropWhile isBlank =
      first :: (inner ++ [last]) ++ after := by
    rw [List.append_assoc, List.dropWhile_append_of_pos hbefore]
    simp [hfirst]
  have hend : trimEnd (first :: (inner ++ [last]) ++ after) = first :: (inner ++ [last]) := by
    rw [trimEnd, List.reverse_append, List.dropWhile_append_of_pos hreverse]
    simp [hlast]
  rw [trim, String.toList_ofList, hstart, hend]

end Text

namespace Linter

theorem exists_printList_eq (vs : List Violation) :
    ∃ inner, (Violation.printList vs).toList = '[' :: (inner ++ [']']) :=
  ⟨_, Json.toList_print_array _⟩

/-- The text of an output that is a printed list, with blanks around it. -/
theorem textOf_padded {before after : List Char} (hbefore : ∀ c ∈ before, Text.isBlank c = true)
    (hafter : ∀ c ∈ after, Text.isBlank c = true) (vs : List Violation) :
    Child.textOf (Text.Utf8.encode
      (String.ofList (before ++ (Violation.printList vs).toList ++ after))) =
        Violation.printList vs := by
  obtain ⟨inner, hprint⟩ := exists_printList_eq vs
  rw [Child.textOf, Text.Utf8.lossy_encode, hprint,
    Text.trim_padded hbefore hafter (by decide) (by decide), ← hprint, String.ofList_toList]

/-! ### Answers -/

/-- The input did not fail: the command took all of it, or ended before it had. -/
def InputEnd.Taken (e : InputEnd) : Prop := e = .whole ∨ e = .brokenPipe

theorem Child.answer_of_taken {c : Child} (hc : c.input.Taken) (program : String) :
    c.answer program = c.violations program := by
  rcases hc with h | h <;> rw [Child.answer, h]

theorem Child.taken_of_answer {c : Child} {program : String} {vs : List Violation}
    (h : c.answer program = .ok vs) : c.input.Taken := by
  rcases hinput : c.input with - | - | cause
  · exact .inl rfl
  · exact .inr rfl
  · rw [Child.answer, hinput] at h
    cases h

/-- The output of a child is a list that it has printed, or no text at all from a child that ended
    well. -/
def Child.Gives (c : Child) (vs : List Violation) : Prop :=
  Violation.readList (textOf c.stdout) = some vs ∨
    textOf c.stdout = "" ∧ c.status = some 0 ∧ vs = []

/-- The answer of a child in all cases. Its status only counts where the output does not decode. -/
theorem Child.violations_eq (program : String) (c : Child) :
    c.violations program =
      match Violation.readList (textOf c.stdout) with
      | some vs => .ok vs
      | none =>
        if c.status = some 0 then
          if textOf c.stdout = "" then .ok [] else .error (.output program)
        else .error (.exit program (c.status.getD (-1)) (textOf c.stderr)) := by
  -- No text is no list, so the early answer to it takes nothing away from the reader.
  by_cases hblank : textOf c.stdout = ""
  · by_cases hstatus : c.status = some 0 <;>
      simp [Child.violations, Child.success, hblank, hstatus, Violation.readList_empty]
  · have hempty : (textOf c.stdout).isEmpty = false := by
      simpa using hblank
    by_cases hstatus : c.status = some 0 <;> cases hread : Violation.readList (textOf c.stdout) <;>
      simp [Child.violations, Child.success, hblank, hempty, hstatus, hread]

theorem Child.violations_eq_ok_iff {program : String} {c : Child} {vs : List Violation} :
    c.violations program = .ok vs ↔ c.Gives vs := by
  rw [Child.violations_eq, Child.Gives]
  cases hread : Violation.readList (textOf c.stdout) with
  | some us =>
    have htext : textOf c.stdout ≠ "" := by
      intro h
      rw [h, Violation.readList_empty] at hread
      cases hread
    simp [htext]
  | none =>
    by_cases hstatus : c.status = some 0
    · by_cases htext : textOf c.stdout = "" <;> simp [hstatus, htext, eq_comm]
    · simp [hstatus]

/-- A printed list is the answer, whatever the status of the child that has printed it. -/
theorem Child.violations_padded {c : Child} {vs : List Violation} {before after : List Char}
    (hfits : ∀ v ∈ vs, v.Fits) (hbefore : ∀ b ∈ before, Text.isBlank b = true)
    (hafter : ∀ a ∈ after, Text.isBlank a = true)
    (hstdout : c.stdout = Text.Utf8.encode
      (String.ofList (before ++ (Violation.printList vs).toList ++ after))) (program : String) :
    c.violations program = .ok vs := by
  rw [Child.violations_eq, hstdout, textOf_padded hbefore hafter,
    Violation.readList_printList hfits]

theorem answer_eq_ok_iff {program : String} {started : Except OsError Child}
    {vs : List Violation} :
    answer program started = .ok vs ↔ ∃ c, started = .ok c ∧ c.input.Taken ∧ c.Gives vs := by
  constructor
  · intro h
    rcases started with cause | c
    · cases h
    · have htaken : c.input.Taken := Child.taken_of_answer h
      rw [answer, Child.answer_of_taken htaken] at h
      exact ⟨c, rfl, htaken, Child.violations_eq_ok_iff.1 h⟩
  · rintro ⟨c, rfl, htaken, hgives⟩
    rw [answer, Child.answer_of_taken htaken]
    exact Child.violations_eq_ok_iff.2 hgives

/-- A call of a linter command. Violations with numbers below 2^64 that it prints, with any blanks
    around them and whatever its exit status, are the answer. It is the answer only if it was
    printed, or if it is empty and a command that ended well printed nothing. An output that cannot
    be read is an error of the command's status, or of the output if that status is a success. -/
theorem lintWith_wire (start : Starter) (program : String) (arguments : List String) (t : FileTree)
    (source : String) (options : LintOptions) (isScript : Bool) :
    let started := (start t (call ⟨program, arguments⟩ source options isScript)).1
    let answer := (Task.lintWith start (program :: arguments) t source options isScript).1
    (∀ (c : Child) (vs : List Violation) (before after : List Char),
      started = .ok c → c.input.Taken → (∀ v ∈ vs, v.line < 2 ^ 64 ∧ v.column < 2 ^ 64) →
      (∀ b ∈ before, Text.isBlank b = true) → (∀ a ∈ after, Text.isBlank a = true) →
      c.stdout = Text.Utf8.encode
        (String.ofList (before ++ (Violation.printList vs).toList ++ after)) →
      answer = .ok vs) ∧
    (∀ vs, answer = .ok vs ↔ ∃ c, started = .ok c ∧ c.input.Taken ∧
      (Violation.readList (Child.textOf c.stdout) = some vs ∨
        Child.textOf c.stdout = "" ∧ c.status = some 0 ∧ vs = [])) ∧
    (∀ c, started = .ok c → c.input.Taken → Violation.readList (Child.textOf c.stdout) = none →
      (c.status = some 0 → Child.textOf c.stdout ≠ "" → answer = .error (.output program)) ∧
      (c.status ≠ some 0 → answer =
        .error (.exit program (c.status.getD (-1)) (Child.textOf c.stderr)))) ∧
    (∀ c, started = .ok c → c.input.Taken → Child.textOf c.stdout = "" → c.status ≠ some 0 →
      answer = .error (.exit program (c.status.getD (-1)) (Child.textOf c.stderr))) := by
  intro started answer
  have hchild {c : Child} (hc : started = .ok c) (htaken : c.input.Taken) :
      answer = c.violations program := by
    change Linter.answer program started = _
    rw [hc, Linter.answer, Child.answer_of_taken htaken]
  refine ⟨?_, fun vs => answer_eq_ok_iff, ?_, ?_⟩
  · intro c vs before after hc htaken hfits hbefore hafter hstdout
    rw [hchild hc htaken, Child.violations_padded hfits hbefore hafter hstdout]
  · intro c hc htaken hread
    rw [hchild hc htaken, Child.violations_eq, hread]
    exact ⟨fun hstatus htext => by simp [hstatus, htext], fun hstatus => by simp [hstatus]⟩
  · intro c hc htaken htext hstatus
    rw [hchild hc htaken, Child.violations_eq, htext, Violation.readList_empty]
    simp [hstatus]

/-- A command that has left some of its input unread and failed, with blanks around two
    violations: one has the largest number and a message of escapes, one has empty evidence. -/
theorem lintWith_wire_brokenPipe :
    let vs : List Violation :=
      [⟨18446744073709551615, 1, "\"\n\x01\\ 😀", none⟩, ⟨0, 7, "", some ""⟩]
    let child : Child :=
      { input := .brokenPipe, status := some 3, stderr := []
        stdout := Text.Utf8.encode
          (String.ofList (['\u3000', '\n'] ++ (Violation.printList vs).toList ++ ['\u00A0'])) }
    (Task.lintWith (fun t _ => (.ok child, t)) ["lint", "-q"] {} "" default true).1 = .ok vs := by
  intro vs child
  have hfits : ∀ v ∈ vs, v.line < 2 ^ 64 ∧ v.column < 2 ^ 64 := by simp [vs]
  have hbefore : ∀ b ∈ ['\u3000', '\n'], Text.isBlank b = true := by simp [Text.isBlank]
  have hafter : ∀ a ∈ ['\u00A0'], Text.isBlank a = true := by simp [Text.isBlank]
  exact (lintWith_wire (fun t _ => (.ok child, t)) "lint" ["-q"] {} "" default true).1 child vs
    ['\u3000', '\n'] ['\u00A0'] rfl (.inr rfl) hfits hbefore hafter (by dsimp only [child])

end Linter

end LintRun
