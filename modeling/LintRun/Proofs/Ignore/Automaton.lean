import LintRun.Proofs.Ignore.Spans

/-! The ignore sections of a text as an automaton emits them that reads it offset by offset and
    knows no search: it stands outside of all sections or inside of one, and jumps only over a marker
    that stands right where it is.

        outside i  ── start at i ──▶  inside i (i + |start|)
           ▲ i + 1 ↺                    │ i + 1 ↺
           └── stop at j: emit ◀────────┘

    A step is a function, so a text leaves the automaton no choice (`Emits.unique`). Up to the next
    marker it goes on one character at a time (`Emits.of_skips`), which makes its sections those
    that the search for markers finds (`Spans.emits`) and `scan_emits` the result for every text. -/

namespace LintRun

/-- Where the automaton stands: outside of all sections, or in the one that opened at an offset. -/
inductive Scanner where
  | outside (offset : Nat)
  | inside (opened offset : Nat)
  deriving Repr, DecidableEq

namespace Scanner

variable {start stop text : List Char} {s s' : Scanner} {k i : Nat} {out : List Section}

/-- One step, with the section that it completes. There is none at the end of the text. -/
def step (start stop text : List Char) : Scanner → Option (Scanner × Option Section)
  | outside i =>
    if OccursAt start text i then some (inside i (i + start.length), none)
    else if i < text.length then some (outside (i + 1), none)
    else none
  | inside opened i =>
    if OccursAt stop text i then
      some (outside (i + stop.length),
        some ⟨.ofOffset text opened, some (.ofOffset text (i + stop.length - 1))⟩)
    else if i < text.length then some (inside opened (i + 1), none)
    else none

/-- The section that the end of the text leaves without an end. -/
def unended (text : List Char) : Scanner → List Section
  | outside _ => []
  | inside opened _ => [⟨.ofOffset text opened, none⟩]

/-- The sections that the automaton emits on its way to the end of the text, in their order. -/
inductive Emits (start stop text : List Char) : Scanner → List Section → Prop where
  | ended {s : Scanner} (hend : s.step start stop text = none) :
      Emits start stop text s (s.unended text)
  | stepped {s s' : Scanner} {emitted : Option Section} {rest : List Section}
      (hstep : s.step start stop text = some (s', emitted))
      (hrest : Emits start stop text s' rest) : Emits start stop text s (emitted.toList ++ rest)

/-! ### Steps -/

theorem step_open (h : OccursAt start text i) :
    (outside i).step start stop text = some (inside i (i + start.length), none) := if_pos h

theorem step_close (h : OccursAt stop text i) :
    (inside k i).step start stop text = some (outside (i + stop.length),
      some ⟨.ofOffset text k, some (.ofOffset text (i + stop.length - 1))⟩) := if_pos h

theorem step_outside (h : ¬ OccursAt start text i) (hi : i < text.length) :
    (outside i).step start stop text = some (outside (i + 1), none) := by
  rw [step, if_neg h, if_pos hi]

theorem step_inside (h : ¬ OccursAt stop text i) (hi : i < text.length) :
    (inside k i).step start stop text = some (inside k (i + 1), none) := by
  rw [step, if_neg h, if_pos hi]

theorem step_outside_end (h : ¬ OccursAt start text i) (hi : text.length ≤ i) :
    (outside i).step start stop text = none := by
  rw [step, if_neg h, if_neg (Nat.not_lt.2 hi)]

theorem step_inside_end (h : ¬ OccursAt stop text i) (hi : text.length ≤ i) :
    (inside k i).step start stop text = none := by
  rw [step, if_neg h, if_neg (Nat.not_lt.2 hi)]

/-! ### Runs -/

namespace Emits

/-- What is emitted is told by where the automaton stands. -/
theorem unique {as bs : List Section} (ha : Emits start stop text s as)
    (hb : Emits start stop text s bs) : as = bs := by
  induction ha generalizing bs with
  | ended hend =>
    cases hb with
    | ended => rfl
    | stepped hstep => rw [hend] at hstep; cases hstep
  | stepped hstep _ ih =>
    cases hb with
    | ended hend => rw [hend] at hstep; cases hstep
    | stepped hstep' hrest' =>
      rw [hstep] at hstep'
      cases hstep'
      rw [ih hrest']

/-- Characters that are skipped emit nothing. -/
theorem of_skips {state : Nat → Scanner} (hle : k ≤ i)
    (hskip : ∀ j, k ≤ j → j < i → (state j).step start stop text = some (state (j + 1), none))
    (h : Emits start stop text (state i) out) : Emits start stop text (state k) out := by
  induction i, hle using Nat.le_induction with
  | base => exact h
  | succ i hki ih =>
    refine ih (fun j hj hji => hskip j hj (Nat.lt_succ_of_lt hji)) ?_
    exact .stepped (hskip i hki i.lt_succ_self) h

/-- Outside of all sections the automaton goes on to the next start marker. -/
theorem of_nextAt_start (hstart : start ≠ []) (h : NextAt start text k i)
    (hout : Emits start stop text (inside i (i + start.length)) out) :
    Emits start stop text (outside k) out := by
  refine of_skips h.le (fun j hkj hji => ?_) (.stepped (step_open h.occurs) hout)
  have hin := h.occurs.add_length_le hstart
  exact step_outside (h.least j hkj hji) (by omega)

/-- In a section it goes on to the next end marker, which completes the section. -/
theorem of_nextAt_stop {opened : Nat} (hstop : stop ≠ []) (h : NextAt stop text k i)
    (hout : Emits start stop text (outside (i + stop.length)) out) :
    Emits start stop text (inside opened k)
      (⟨.ofOffset text opened, some (.ofOffset text (i + stop.length - 1))⟩ :: out) := by
  refine of_skips h.le (fun j hkj hji => ?_) (.stepped (step_close h.occurs) hout)
  have hin := h.occurs.add_length_le hstop
  exact step_inside (h.least j hkj hji) (by omega)

/-- Without a start marker to come nothing more is emitted. -/
theorem of_no_start (h : ∀ i, k ≤ i → ¬ OccursAt start text i) :
    Emits start stop text (outside k) [] := by
  have hle : k ≤ max k text.length := Nat.le_max_left ..
  refine of_skips hle (fun j hkj hj => step_outside (h j hkj) (by omega)) ?_
  exact .ended (step_outside_end (h _ hle) (Nat.le_max_right ..))

/-- Without an end marker to come the section goes to the end of the text. -/
theorem of_no_stop {opened : Nat} (h : ∀ i, k ≤ i → ¬ OccursAt stop text i) :
    Emits start stop text (inside opened k) [⟨.ofOffset text opened, none⟩] := by
  have hle : k ≤ max k text.length := Nat.le_max_left ..
  refine of_skips hle (fun j hkj hj => step_inside (h j hkj) (by omega)) ?_
  exact .ended (step_inside_end (h _ hle) (Nat.le_max_right ..))

end Emits

end Scanner

/-- The automaton emits the sections that the search for markers finds. -/
theorem Spans.emits {start stop text : List Char} (hstart : start ≠ []) (hstop : stop ≠ [])
    {k : Nat} {spans : List Span} (h : Spans start stop text k spans) :
    Scanner.Emits start stop text (.outside k) (spans.map (·.toSection text)) := by
  induction h with
  | none hnone => exact .of_no_start hnone
  | unclosed hi hnone => exact .of_nextAt_start hstart hi (.of_no_stop hnone)
  | closed hi hj _ ih => exact .of_nextAt_start hstart hi (.of_nextAt_stop hstop hj ih)

/-- The sections of a text are those that the automaton emits from its first character on, if both
    markers have text. Otherwise there are none. -/
theorem scan_emits (markers : Markers) (content : String) :
    (markers.start ≠ "" → markers.stop ≠ "" → ∀ sections,
      Scanner.Emits markers.start.toList markers.stop.toList content.toList (.outside 0) sections ↔
        sections = Section.scan markers content) ∧
    (markers.start = "" ∨ markers.stop = "" → Section.scan markers content = []) := by
  constructor
  · intro hstart hstop sections
    obtain ⟨spans, hspans, hscan⟩ := Section.exists_spans hstart hstop content
    have hemits := hspans.emits (by simpa using hstart) (by simpa using hstop)
    rw [hscan]
    exact ⟨fun h => h.unique hemits, fun h => h ▸ hemits⟩
  · exact fun hempty => Section.scan_eq_nil hempty content

/-- Markers that overlap, the second with a line feed: behind the start marker the automaton looks
    for the end marker afresh, so the one that begins within the start marker does not count. -/
theorem scan_emits_overlapping :
    ("ab" ≠ "" ∧ "b\n" ≠ "") ∧ Section.scan ⟨"ab", "b\n"⟩ "xab\nb\nab" =
      [⟨⟨1, 2⟩, some ⟨2, 2⟩⟩, ⟨⟨3, 1⟩, none⟩] := by
  have hend : Scanner.Emits "ab".toList "b\n".toList "xab\nb\nab".toList (.inside 6 8) _ :=
    .ended rfl
  have hinside := Scanner.Emits.stepped (s := .inside 1 3) rfl (.stepped rfl (.stepped rfl hend))
  have hrun := Scanner.Emits.stepped (s := .outside 0) rfl (.stepped rfl hinside)
  have hscan := (scan_emits ⟨"ab", "b\n"⟩ "xab\nb\nab").1 (by decide) (by decide)
  exact ⟨by decide, ((hscan _).1 hrun).symm⟩

end LintRun
