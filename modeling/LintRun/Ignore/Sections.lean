import LintRun.Ignore.Position

/-! Ignore sections: stretches of a text, between two markers, in which violations do not count.

    A section reaches from the first character of a start marker to the last character of the next
    end marker, or to the end of the text if there is none. Sections do not nest: inside one, start
    markers are plain text, and outside, end markers are. -/

namespace LintRun

/-- The two texts that open and close a section. -/
structure Markers where
  start : String := "/*ignore jslint start*/"
  stop : String := "/*ignore jslint end*/"
  deriving Repr, DecidableEq, Inhabited

/-- A section from its first to its last place, or to the end of the text. -/
structure Section where
  start : Position
  stop : Option Position
  deriving Repr, DecidableEq, Inhabited

namespace Section

/-- Whether a place lies in a section; both ends do. -/
def contains (s : Section) (p : Position) : Bool :=
  decide (s.start ≤ p) && s.stop.all fun q => decide (p ≤ q)

/-- Looks for a marker in a text whose first character stands at `p`: the place of its leftmost
    occurrence, and the text after it. -/
def seek (marker : List Char) (p : Position) : List Char → Option (Position × List Char)
  | [] => none
  | c :: rest =>
    if marker.isPrefixOf (c :: rest) then some (p, (c :: rest).drop marker.length)
    else seek marker (p.next c) rest

/-- What follows a marker is shorter than the text it was found in. -/
theorem length_lt_of_seek {marker : List Char} (hm : marker ≠ []) {p q : Position}
    {text rest : List Char} (h : seek marker p text = some (q, rest)) :
    rest.length < text.length := by
  induction text generalizing p with
  | nil => simp [seek] at h
  | cons c text ih =>
    by_cases hc : marker.isPrefixOf (c :: text)
    · simp only [seek, hc, if_true, Option.some.injEq, Prod.mk.injEq] at h
      have hpos := List.length_pos_iff.2 hm
      rw [← h.2, List.length_drop, List.length_cons]
      omega
    · simp only [seek, hc] at h
      exact Nat.lt_succ_of_lt (ih h)

/-- The sections of a text whose first character stands at `p`. -/
def scanFrom (start stop : List Char) (hstart : start ≠ []) (hstop : stop ≠ []) (p : Position)
    (text : List Char) : List Section :=
  match _hopened : seek start p text with
  | none => []
  | some (opened, inside) =>
    match _hclosed : seek stop (opened.after start) inside with
    | none => [⟨opened, none⟩]
    | some (q, rest) =>
      ⟨opened, some (q.after stop.dropLast)⟩ :: scanFrom start stop hstart hstop (q.after stop) rest
termination_by text.length
decreasing_by
  exact Nat.lt_trans (length_lt_of_seek hstop _hclosed) (length_lt_of_seek hstart _hopened)

/-- The sections of a text. An empty marker marks nothing. -/
def scan (markers : Markers) (text : String) : List Section :=
  if h : markers.start.toList ≠ [] ∧ markers.stop.toList ≠ [] then
    scanFrom markers.start.toList markers.stop.toList h.1 h.2 .origin text.toList
  else []

end Section

/-- Whether a place lies in any of the sections. -/
def isIgnored (sections : List Section) (p : Position) : Bool := sections.any (·.contains p)

end LintRun
