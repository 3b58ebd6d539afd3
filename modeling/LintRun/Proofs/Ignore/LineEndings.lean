import LintRun.Proofs.Ignore.Spans

/-! The ignore sections of a text do not depend on how its lines end.

    A carriage return before each line feed makes a line longer, but only behind all its other
    characters, and the line feed leads to the same place with it as without
    (`Position.next_return`). A marker that lies within a line is found where it was before. So the
    two scans go on in step: each search comes to the same place, and has behind it what is left of
    its own text (`Section.seek_returned`). -/

namespace LintRun

/-- Characters with a carriage return before every line feed. -/
def returned (cs : List Char) : List Char :=
  cs.flatMap fun c => if c = '\n' then ['\r', '\n'] else [c]

/-- The text whose lines end with carriage return and line feed in place of a line feed. -/
def withReturns (s : String) : String := String.ofList (returned s.toList)

/-- Characters of which none ends a line. -/
def WithinLine (cs : List Char) : Prop := '\n' ∉ cs ∧ '\r' ∉ cs

instance (cs : List Char) : Decidable (WithinLine cs) :=
  inferInstanceAs (Decidable ('\n' ∉ cs ∧ '\r' ∉ cs))

/-! ### Texts -/

section
variable {marker cs : List Char}

theorem returned_lineFeed (cs : List Char) :
    returned ('\n' :: cs) = '\r' :: '\n' :: returned cs := rfl

theorem returned_cons {c : Char} (hc : c ≠ '\n') (cs : List Char) :
    returned (c :: cs) = c :: returned cs := by
  rw [returned, List.flatMap_cons, if_neg hc, List.singleton_append, returned]

theorem returned_append (as bs : List Char) : returned (as ++ bs) = returned as ++ returned bs :=
  List.flatMap_append

namespace WithinLine

theorem returned_eq (h : WithinLine cs) : returned cs = cs := by
  have hkept : ∀ c ∈ cs, (if c = '\n' then ['\r', '\n'] else [c]) = [c] := by
    intro c hc
    refine if_neg ?_
    rintro rfl
    exact h.1 hc
  rw [returned, List.flatMap_def, List.map_congr_left hkept, ← List.flatMap_def,
    List.flatMap_singleton']

theorem tail {c : Char} (h : WithinLine (c :: cs)) : WithinLine cs :=
  ⟨List.not_mem_of_not_mem_cons h.1, List.not_mem_of_not_mem_cons h.2⟩

/-- No marker within a line begins where a line ends. -/
theorem not_prefix (h : WithinLine marker) (hne : marker ≠ []) {c : Char}
    (hc : c = '\n' ∨ c = '\r') : ¬ marker <+: c :: cs := by
  intro hbegins
  obtain ⟨m, rest, rfl⟩ := List.exists_cons_of_ne_nil hne
  obtain ⟨rfl, -⟩ := List.cons_prefix_cons.1 hbegins
  rcases hc with rfl | rfl
  · exact h.1 List.mem_cons_self
  · exact h.2 List.mem_cons_self

/-- A marker within a line begins the one text where it begins the other. -/
theorem prefix_returned_iff (h : WithinLine marker) :
    marker <+: returned cs ↔ marker <+: cs := by
  induction cs generalizing marker with
  | nil => rfl
  | cons c cs ih =>
    rcases marker with - | ⟨m, marker⟩
    · simp
    by_cases hc : c = '\n'
    · subst hc
      have hne := List.cons_ne_nil m marker
      rw [returned_lineFeed]
      exact iff_of_false (h.not_prefix hne (.inr rfl)) (h.not_prefix hne (.inl rfl))
    · rw [returned_cons hc, List.cons_prefix_cons, List.cons_prefix_cons, ih h.tail]

/-- What follows it in the one text is what follows it in the other, with returns. -/
theorem drop_returned (h : WithinLine marker) (hbegins : marker <+: cs) :
    (returned cs).drop marker.length = returned (cs.drop marker.length) := by
  obtain ⟨rest, rfl⟩ := hbegins
  rw [returned_append, h.returned_eq, List.drop_left, List.drop_left]

end WithinLine

end

/-! ### Scans -/

/-- A line feed leads to the next line from behind a carriage return as from before it. -/
theorem Position.next_return (p : Position) : (p.next '\r').next '\n' = p.next '\n' := rfl

namespace Section

variable {marker start stop : List Char}

/-- A marker is found at the same place, with what is left of the text behind it. -/
theorem seek_returned (hne : marker ≠ []) (h : WithinLine marker) (p : Position) (cs : List Char) :
    seek marker p (returned cs) =
      (seek marker p cs).map fun found => (found.1, returned found.2) := by
  induction cs generalizing p with
  | nil => rfl
  | cons c cs ih =>
    by_cases hc : c = '\n'
    · subst hc
      rw [returned_lineFeed, seek_cons_past (h.not_prefix hne (.inr rfl)),
        seek_cons_past (h.not_prefix hne (.inl rfl)), Position.next_return,
        seek_cons_past (h.not_prefix hne (.inl rfl)), ih]
    by_cases hp : marker <+: c :: cs
    · have hp' := h.prefix_returned_iff.2 hp
      have hdrop := h.drop_returned hp
      rw [returned_cons hc] at hp' hdrop ⊢
      rw [seek_cons_found hp', seek_cons_found hp, hdrop]
      rfl
    · have hp' := mt h.prefix_returned_iff.1 hp
      rw [returned_cons hc] at hp' ⊢
      rw [seek_cons_past hp', seek_cons_past hp, ih]

section
variable {p q q' : Position} {text inside rest : List Char}
variable (hstart : start ≠ []) (hstop : stop ≠ [])

theorem scanFrom_of_none (h : seek start p text = none) :
    scanFrom start stop hstart hstop p text = [] := by
  rw [scanFrom]
  split
  · rfl
  · next hopened => cases h.symm.trans hopened

theorem scanFrom_of_unclosed (h : seek start p text = some (q, inside))
    (h' : seek stop (q.after start) inside = none) :
    scanFrom start stop hstart hstop p text = [⟨q, none⟩] := by
  rw [scanFrom]
  split
  · next hopened => cases h.symm.trans hopened
  next hopened =>
  cases h.symm.trans hopened
  split
  · rfl
  · next hclosed => cases h'.symm.trans hclosed

theorem scanFrom_of_closed (h : seek start p text = some (q, inside))
    (h' : seek stop (q.after start) inside = some (q', rest)) :
    scanFrom start stop hstart hstop p text =
      ⟨q, some (q'.after stop.dropLast)⟩ ::
        scanFrom start stop hstart hstop (q'.after stop) rest := by
  rw [scanFrom]
  split
  · next hopened => cases h.symm.trans hopened
  next hopened =>
  cases h.symm.trans hopened
  split
  · next hclosed => cases h'.symm.trans hclosed
  next hclosed =>
  cases h'.symm.trans hclosed
  rfl

/-- From any place on the sections are the same. -/
theorem scanFrom_returned (hs : WithinLine start) (he : WithinLine stop) (p : Position)
    (text : List Char) :
    scanFrom start stop hstart hstop p (returned text) =
      scanFrom start stop hstart hstop p text := by
  induction p, text using scanFrom.induct start stop hstart hstop with
  | case1 p text hnone =>
    have hnone' : seek start p (returned text) = none := by
      rw [seek_returned hstart hs, hnone, Option.map_none]
    rw [scanFrom_of_none hstart hstop hnone, scanFrom_of_none hstart hstop hnone']
  | case2 p text q inside hopened hclosed =>
    have hopened' : seek start p (returned text) = some (q, returned inside) := by
      rw [seek_returned hstart hs, hopened, Option.map_some]
    have hclosed' : seek stop (q.after start) (returned inside) = none := by
      rw [seek_returned hstop he, hclosed, Option.map_none]
    rw [scanFrom_of_unclosed hstart hstop hopened hclosed,
      scanFrom_of_unclosed hstart hstop hopened' hclosed']
  | case3 p text q inside hopened q' rest hclosed ih =>
    have hopened' : seek start p (returned text) = some (q, returned inside) := by
      rw [seek_returned hstart hs, hopened, Option.map_some]
    have hclosed' : seek stop (q.after start) (returned inside) = some (q', returned rest) := by
      rw [seek_returned hstop he, hclosed, Option.map_some]
    rw [scanFrom_of_closed hstart hstop hopened hclosed,
      scanFrom_of_closed hstart hstop hopened' hclosed', ih]

end

end Section

/-- A text whose lines end with carriage return and line feed has the sections that it has with line
    feeds alone, if both markers stay within a line, so the same places are ignored. -/
theorem scan_withReturns (markers : Markers) (content : String)
    (hstart : WithinLine markers.start.toList) (hstop : WithinLine markers.stop.toList) :
    Section.scan markers (withReturns content) = Section.scan markers content ∧
      ∀ p, isIgnored (Section.scan markers (withReturns content)) p =
        isIgnored (Section.scan markers content) p := by
  have hscan : Section.scan markers (withReturns content) = Section.scan markers content := by
    by_cases hne : markers.start.toList ≠ [] ∧ markers.stop.toList ≠ []
    · rw [Section.scan, Section.scan, dif_pos hne, dif_pos hne, withReturns, String.toList_ofList]
      exact Section.scanFrom_returned hne.1 hne.2 hstart hstop .origin content.toList
    · rw [Section.scan, Section.scan, dif_neg hne, dif_neg hne]
  exact ⟨hscan, fun p => by rw [hscan]⟩

/-- Markers at the ends of lines, and a section without an end. -/
theorem scan_withReturns_lineEnds :
    (WithinLine "[".toList ∧ WithinLine "]".toList) ∧
    Section.scan ⟨"[", "]"⟩ "x[\r\nb]\r\n[c\r\n" = [⟨⟨1, 2⟩, some ⟨2, 2⟩⟩, ⟨⟨3, 1⟩, none⟩] ∧
    ∀ p, isIgnored (Section.scan ⟨"[", "]"⟩ "x[\r\nb]\r\n[c\r\n") p =
      isIgnored (Section.scan ⟨"[", "]"⟩ "x[\nb]\n[c\n") p := by
  have hlines : withReturns "x[\nb]\n[c\n" = "x[\r\nb]\r\n[c\r\n" := by decide
  obtain ⟨hscan, hignored⟩ :=
    scan_withReturns ⟨"[", "]"⟩ "x[\nb]\n[c\n" (by decide) (by decide)
  rw [hlines] at hscan hignored
  exact ⟨by decide, hscan.trans (by decide +kernel), hignored⟩

end LintRun
