import LintRun.Proofs.Report.Escape
import LintRun.Proofs.Report.Template

/-! Which markup a page of HTML has. No text that is filled into the template holds an angle bracket,
    and every part of the template closes the tags that it opens, so the tags of a page are those of
    the template. Which parts of it are written, and how often, depends on the shape of the findings
    alone (`tags_render_html`). -/

namespace LintRun.Report.Html

/-! ### Tags -/

/-- A text up to its first `>` and with it. -/
def throughGt : List Char → List Char
  | [] => []
  | c :: rest => if c = '>' then [c] else c :: throughGt rest

/-- The tags of a text: its spans from each `<` to the next `>`. -/
def tags : List Char → List (List Char)
  | [] => []
  | c :: rest => if c = '<' then (c :: throughGt rest) :: tags rest else tags rest

/-- Whether every `<` of a text has a `>` behind it. -/
def closed : List Char → Bool
  | [] => true
  | c :: rest => (c != '<' || rest.contains '>') && closed rest

theorem throughGt_append {as : List Char} (h : '>' ∈ as) (bs : List Char) :
    throughGt (as ++ bs) = throughGt as := by
  induction as with
  | nil => simp at h
  | cons c as ih =>
    by_cases hc : c = '>'
    · simp [throughGt, hc]
    · have hrest : '>' ∈ as := (List.mem_cons.1 h).resolve_left (Ne.symm hc)
      simp [throughGt, hc, ih hrest]

/-- A text that closes its tags has them whatever follows. -/
theorem tags_append {as : List Char} (h : closed as = true) (bs : List Char) :
    tags (as ++ bs) = tags as ++ tags bs := by
  induction as with
  | nil => rfl
  | cons c as ih =>
    simp only [closed, Bool.and_eq_true, Bool.or_eq_true, bne_iff_ne] at h
    obtain ⟨hhead, hrest⟩ := h
    by_cases hc : c = '<'
    · have hgt : '>' ∈ as := by simpa using hhead.resolve_left (not_not_intro hc)
      simp [tags, hc, throughGt_append hgt, ih hrest]
    · simp [tags, hc, ih hrest]

theorem tags_of_notMem {cs : List Char} (h : '<' ∉ cs) : tags cs = [] := by
  induction cs with
  | nil => rfl
  | cons c cs ih =>
    obtain ⟨hc, hrest⟩ := not_or.1 (mt List.mem_cons.2 h)
    simp [tags, Ne.symm hc, ih hrest]

theorem closed_of_notMem {cs : List Char} (h : '<' ∉ cs) : closed cs = true := by
  induction cs with
  | nil => rfl
  | cons c cs ih =>
    obtain ⟨hc, hrest⟩ := not_or.1 (mt List.mem_cons.2 h)
    simp [closed, Ne.symm hc, ih hrest]

/-! ### Sound pieces -/

/-- A part of the template closes its tags and has no ampersand; what is filled in has no angle
    bracket, and ampersands only at the beginning of entities. -/
inductive Piece.Sound : Piece → Prop where
  | markup {text : String} (hclosed : closed text.toList = true) (hamp : '&' ∉ text.toList) :
      Sound (.markup text)
  | slot {text : String} (hlt : '<' ∉ text.toList) (hgt : '>' ∉ text.toList)
      (hescaped : Escaped text.toList) : Sound (.slot text)

/-- A part of the template, by its characters. A literal is a text of the characters that unification
    finds, which is quicker than to compute them. -/
theorem sound_ofList {cs : List Char} (hclosed : closed cs = true)
    (hamp : cs.contains '&' = false) : (Piece.markup (String.ofList cs)).Sound := by
  refine .markup ?_ ?_
  · rwa [String.toList_ofList]
  · rw [String.toList_ofList]
    simpa using hamp

/-- The tags of sound pieces are those of the template. -/
theorem tags_written {pieces : List Piece} (h : ∀ p ∈ pieces, p.Sound) :
    tags (written pieces) = (pieces.map Piece.blank).flatMap fun p => tags p.text.toList := by
  induction pieces with
  | nil => rfl
  | cons p pieces ih =>
    have hrest := ih fun q hq => h q (List.mem_cons_of_mem p hq)
    rw [written_cons, List.map_cons, List.flatMap_cons, ← hrest]
    cases h p List.mem_cons_self with
    | markup hclosed _ => exact tags_append hclosed _
    | slot hlt _ _ =>
      rw [Piece.text, tags_append (closed_of_notMem hlt), tags_of_notMem hlt]
      rfl

theorem escaped_written {pieces : List Piece} (h : ∀ p ∈ pieces, p.Sound) :
    Escaped (written pieces) := by
  refine Escaped.flatMap fun p hp => ?_
  cases h p hp with
  | markup _ hamp => exact escaped_of_notMem hamp
  | slot _ _ hescaped => exact hescaped

theorem sound_escape (s : String) : (Piece.slot (escape s)).Sound := by
  refine .slot (fun h => ?_) (fun h => ?_) (escaped_escape s)
  · exact absurd (isSpecial_of_mem_escape h (by decide)) (by decide)
  · exact absurd (isSpecial_of_mem_escape h (by decide)) (by decide)

/-- A text without characters that have a meaning in markup. -/
def Plain (s : String) : Prop := (s.toList.all fun c => !isSpecial c) = true

theorem plain_iff {s : String} : Plain s ↔ ∀ c ∈ s.toList, isSpecial c = false := by
  simp [Plain]

theorem Plain.append {s t : String} (hs : Plain s) (ht : Plain t) : Plain (s ++ t) := by
  rw [plain_iff, String.toList_append, List.forall_mem_append]
  exact ⟨plain_iff.1 hs, plain_iff.1 ht⟩

theorem plain_ofList {cs : List Char} (h : (cs.all fun c => !isSpecial c) = true) :
    Plain (String.ofList cs) := by
  rwa [Plain, String.toList_ofList]

theorem plain_style : Plain style := by
  have hbody : Plain "body \x7b font-family: sans-serif; margin: 2em; \x7d\n" := plain_ofList rfl
  have hheading : Plain "h2 \x7b font-size: 1.1em; border-bottom: 1px solid #ccc; \x7d\n" :=
    plain_ofList rfl
  have hposition : Plain ".position \x7b color: #666; \x7d\n" := plain_ofList rfl
  have hevidence : Plain
      "pre.evidence \x7b background: #f6f6f6; padding: 0.3em; margin: 0.2em 0 0.6em; \x7d" :=
    plain_ofList rfl
  exact ((hbody.append hheading).append hposition).append hevidence

theorem Plain.notMem {s : String} (hs : Plain s) {c : Char} (hc : isSpecial c = true) :
    c ∉ s.toList := by
  intro hmem
  rw [plain_iff.1 hs c hmem] at hc
  cases hc

theorem Plain.sound_slot {s : String} (hs : Plain s) : (Piece.slot s).Sound :=
  .slot (hs.notMem (by decide)) (hs.notMem (by decide)) (escaped_of_notMem (hs.notMem (by decide)))

theorem Plain.sound_markup {s : String} (hs : Plain s) : (Piece.markup s).Sound :=
  .markup (closed_of_notMem (hs.notMem (by decide))) (hs.notMem (by decide))

theorem isSpecial_of_isDigit {c : Char} (hc : c.isDigit = true) : isSpecial c = false := by
  have hnone : ∀ rule ∈ entities, rule.1.isDigit = false := by decide
  refine List.any_eq_false.2 fun rule hrule h => ?_
  rw [← of_decide_eq_true h, hnone rule hrule] at hc
  cases hc

theorem plain_toString (n : Nat) : Plain (toString n) :=
  plain_iff.2 fun _ hc => isSpecial_of_isDigit (isDigit_of_mem_toString hc)

theorem plain_padded (width n : Nat) : Plain (Decimal.padded width n) := by
  rw [plain_iff, Decimal.padded, String.toList_ofList, List.forall_mem_append]
  refine ⟨fun c hc => ?_, plain_iff.1 (plain_toString n)⟩
  rw [(List.mem_replicate.1 hc).2]
  decide

theorem plain_yearText (year : Int) : Plain (Timestamp.yearText year) := by
  refine Plain.append ?_ (plain_padded 4 _)
  split_ifs <;> exact plain_ofList rfl

theorem plain_timestamp (t : Timestamp) : Plain t.text := by
  have hdash : Plain "-" := plain_ofList rfl
  have hcolon : Plain ":" := plain_ofList rfl
  have hdate := (((plain_yearText t.year).append hdash).append (plain_padded 2 t.month)).append
    hdash |>.append (plain_padded 2 t.day)
  have hhour := hdate.append (plain_ofList rfl : Plain "T") |>.append (plain_padded 2 t.hour)
  exact ((hhour.append hcolon).append (plain_padded 2 t.minute)).append hcolon |>.append
    (plain_padded 2 t.second)

/-! ### The pieces of a page -/

theorem sound_evidencePieces (e : Option String) : ∀ p ∈ evidencePieces e, p.Sound := by
  cases e with
  | none => exact List.forall_mem_nil _
  | some text =>
    simp only [evidencePieces, List.forall_mem_cons]
    exact ⟨sound_ofList rfl rfl, sound_escape text, sound_ofList rfl rfl, List.forall_mem_nil _⟩

theorem sound_itemPieces (v : Violation) : ∀ p ∈ itemPieces v, p.Sound := by
  simp only [itemPieces, List.forall_mem_append, List.forall_mem_cons]
  exact ⟨⟨⟨sound_ofList rfl rfl, sound_escape v.message, sound_ofList rfl rfl,
      sound_ofList rfl rfl, (plain_toString v.line).sound_slot, sound_ofList rfl rfl,
      (plain_toString v.column).sound_slot, sound_ofList rfl rfl, List.forall_mem_nil _⟩,
    sound_evidencePieces v.evidence⟩, sound_ofList rfl rfl, List.forall_mem_nil _⟩

theorem sound_flatMap {α : Type} {pieces : α → List Piece} (h : ∀ a, ∀ p ∈ pieces a, p.Sound)
    (l : List α) : ∀ p ∈ l.flatMap pieces, p.Sound := by
  intro p hp
  obtain ⟨a, -, ha⟩ := List.mem_flatMap.1 hp
  exact h a p ha

theorem sound_filePieces (f : FileFindings) : ∀ p ∈ filePieces f, p.Sound := by
  simp only [filePieces, List.forall_mem_append, List.forall_mem_cons]
  exact ⟨⟨⟨sound_ofList rfl rfl, sound_escape f.path, sound_ofList rfl rfl,
      (plain_toString f.violations.length).sound_slot, sound_ofList rfl rfl, sound_ofList rfl rfl,
      List.forall_mem_nil _⟩,
    sound_flatMap sound_itemPieces f.violations⟩, sound_ofList rfl rfl, List.forall_mem_nil _⟩

theorem sound_leadPieces (generated : Timestamp) : ∀ p ∈ leadPieces generated, p.Sound := by
  have htitle : Plain title := plain_ofList rfl
  simp only [leadPieces, List.forall_mem_cons]
  exact ⟨sound_ofList rfl rfl, sound_ofList rfl rfl, htitle.sound_slot, sound_ofList rfl rfl,
    plain_style.sound_markup, sound_ofList rfl rfl, htitle.sound_slot, sound_ofList rfl rfl,
    sound_ofList rfl rfl, sound_ofList rfl rfl, (plain_timestamp generated).sound_slot,
    sound_ofList rfl rfl, sound_ofList rfl rfl, List.forall_mem_nil _⟩

theorem sound_countPieces (totals : Totals) : ∀ p ∈ countPieces totals, p.Sound := by
  simp only [countPieces, List.forall_mem_cons]
  exact ⟨sound_ofList rfl rfl, (plain_toString totals.processed).sound_slot, sound_ofList rfl rfl,
    sound_ofList rfl rfl, (plain_toString totals.violating).sound_slot, sound_ofList rfl rfl,
    sound_ofList rfl rfl, (plain_toString totals.violations).sound_slot, sound_ofList rfl rfl,
    List.forall_mem_nil _⟩

/-- Every piece of a page is sound, whatever was found. -/
theorem sound_pagePieces (f : Findings) (generated : Timestamp) :
    ∀ p ∈ pagePieces f generated, p.Sound := by
  simp only [pagePieces, List.forall_mem_append, List.forall_mem_cons]
  exact ⟨⟨⟨sound_leadPieces generated, sound_countPieces f.totals⟩,
    sound_flatMap sound_filePieces f.violating⟩, sound_ofList rfl rfl, List.forall_mem_nil _⟩

/-! ### The shape of findings -/

/-- What decides which parts of the template are written: for each record with violations, which of
    them have evidence. -/
def shape (f : Findings) : List (List Bool) :=
  f.violating.map fun r => r.violations.map (·.evidence.isSome)

/-- A violation without any text, save evidence that is empty. -/
def bareViolation (evident : Bool) : Violation := ⟨0, 0, "", if evident then some "" else none⟩

/-- The record of a file without a name, with violations without any text. -/
def bareFile (items : List Bool) : FileFindings := ⟨"", items.map bareViolation⟩

theorem blank_itemPieces (v : Violation) :
    (itemPieces v).map Piece.blank =
      (itemPieces (bareViolation v.evidence.isSome)).map Piece.blank := by
  rcases v with ⟨_, _, _, - | _⟩ <;>
    simp only [itemPieces, bareViolation, evidencePieces, List.map_append, List.map_cons,
      List.map_nil, Piece.blank, Option.isSome_none, Option.isSome_some, if_true, if_false,
      Bool.false_eq_true]

theorem blank_filePieces (f : FileFindings) :
    (filePieces f).map Piece.blank =
      (filePieces (bareFile (f.violations.map (·.evidence.isSome)))).map Piece.blank := by
  have hitems : (f.violations.flatMap itemPieces).map Piece.blank =
      (((f.violations.map (·.evidence.isSome)).map bareViolation).flatMap itemPieces).map
        Piece.blank := by
    simp only [List.map_flatMap, List.flatMap_map]
    exact List.flatMap_congr fun v _ => blank_itemPieces v
  simp only [filePieces, bareFile, List.map_append, List.map_cons, List.map_nil, Piece.blank, hitems]

/-- Findings of one shape have the same template. -/
theorem blank_pagePieces {f g : Findings} (h : shape f = shape g) (generated later : Timestamp) :
    (pagePieces f generated).map Piece.blank = (pagePieces g later).map Piece.blank := by
  have hblocks (f : Findings) : (f.violating.flatMap filePieces).map Piece.blank =
      (shape f).flatMap fun items => (filePieces (bareFile items)).map Piece.blank := by
    rw [shape, List.map_flatMap, List.flatMap_map]
    exact List.flatMap_congr fun r _ => blank_filePieces r
  simp only [pagePieces, leadPieces, countPieces, List.map_append, List.map_cons, List.map_nil,
    Piece.blank, hblocks, h]

/-- No text of a user changes the markup of a page. Its tags depend on the shape of the findings
    alone; it is written from pieces, of which the shape decides all but what is filled in, and only
    the template has angle brackets; and its ampersands are those of escaped characters. -/
theorem tags_render_html (f : Findings) (generated : Timestamp) :
    (∀ g later, shape f = shape g → tags (Format.html.render f generated).toList =
      tags (Format.html.render g later).toList) ∧
    (Format.html.render f generated = String.join ((pagePieces f generated).map (·.text)) ∧
      (∀ g later, shape f = shape g →
        (pagePieces f generated).map Piece.blank = (pagePieces g later).map Piece.blank) ∧
      ∀ text, .slot text ∈ pagePieces f generated → '<' ∉ text.toList ∧ '>' ∉ text.toList) ∧
    ∀ before rest, (Format.html.render f generated).toList = before ++ '&' :: rest →
      ∃ rule ∈ entities, rule.2.toList <+: '&' :: rest := by
  have hsound := sound_pagePieces f generated
  refine ⟨fun g later h => ?_, ⟨?_, fun g later h => blank_pagePieces h generated later, ?_⟩, ?_⟩
  · rw [toList_render, toList_render, tags_written hsound, tags_written (sound_pagePieces g later),
      blank_pagePieces h generated later]
  · apply String.toList_injective
    rw [toList_render, String.toList_join, List.flatMap_map, written]
  · intro text htext
    cases hsound _ htext with
    | slot hlt hgt _ => exact ⟨hlt, hgt⟩
  · rw [toList_render]
    exact escaped_written hsound

end LintRun.Report.Html
