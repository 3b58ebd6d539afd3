import LintRun.Report.Basic

/-! The page of HTML as a template with slots.

    A page is a row of pieces: parts of the template, and texts that are filled in between them. The
    statements here say that the page is written piece by piece, each text of a user in a slot of its
    own and escaped. -/

namespace LintRun.Report.Html

/-- A piece of a page: a part of the template, or a text that is filled in. -/
inductive Piece where
  | markup (text : String)
  | slot (text : String)

namespace Piece

/-- What is written of a piece. -/
def text : Piece → String
  | markup text => text
  | slot text => text

/-- A piece without what is filled in. -/
def blank : Piece → Piece
  | markup text => markup text
  | slot _ => slot ""

end Piece

/-- The characters of some pieces. -/
def written (pieces : List Piece) : List Char := pieces.flatMap (·.text.toList)

/-- The pieces of evidence. -/
def evidencePieces : Option String → List Piece
  | none => []
  | some text => [.markup "<pre class=\"evidence\">", .slot (escape text), .markup "</pre>"]

/-- The pieces of the list item of a violation. -/
def itemPieces (v : Violation) : List Piece :=
  [.markup "<li><span class=\"message\">", .slot (escape v.message),
    .markup "</span> <span class=\"position\">", .markup "(line ", .slot (toString v.line),
    .markup " character ", .slot (toString v.column), .markup ")</span>"] ++
    evidencePieces v.evidence ++ [.markup "</li>\n"]

/-- The pieces of the block of a file. -/
def filePieces (f : FileFindings) : List Piece :=
  [.markup "<div class=\"file\">\n<h2>", .slot (escape f.path), .markup " (",
    .slot (toString f.violations.length), .markup " violations)</h2>\n", .markup "<ol>\n"] ++
    f.violations.flatMap itemPieces ++ [.markup "</ol>\n</div>\n"]

/-- The pieces above the counts of a page. -/
def leadPieces (generated : Timestamp) : List Piece :=
  [.markup "<!DOCTYPE html>\n<html>\n<head>\n<meta charset=\"utf-8\">\n", .markup "<title>",
    .slot title, .markup "</title>\n<style>\n", .markup style,
    .markup "\n</style>\n</head>\n<body>\n<h1>", .slot title, .markup "</h1>\n",
    .markup "<p class=\"generated\">", .markup "Generated ", .slot generated.text,
    .markup "</p>\n", .markup "<ul class=\"summary\">\n"]

/-- The pieces of the counts of a page. -/
def countPieces (totals : Totals) : List Piece :=
  [.markup "<li>Processed files: ", .slot (toString totals.processed), .markup "</li>\n",
    .markup "<li>Violating files: ", .slot (toString totals.violating), .markup "</li>\n",
    .markup "<li>Total violations: ", .slot (toString totals.violations),
    .markup "</li>\n</ul>\n"]

/-- The pieces of a page. -/
def pagePieces (f : Findings) (generated : Timestamp) : List Piece :=
  leadPieces generated ++ countPieces f.totals ++ f.violating.flatMap filePieces ++
    [.markup footer]

@[simp] theorem written_nil : written [] = [] := rfl

@[simp] theorem written_cons (p : Piece) (ps : List Piece) :
    written (p :: ps) = p.text.toList ++ written ps := List.flatMap_cons

@[simp] theorem written_append (ps qs : List Piece) :
    written (ps ++ qs) = written ps ++ written qs := List.flatMap_append

theorem written_flatMap {α : Type} (pieces : α → List Piece) (l : List α) :
    written (l.flatMap pieces) = l.flatMap fun a => written (pieces a) := List.flatMap_assoc

theorem toList_evidence (e : Option String) :
    (evidence e).toList = written (evidencePieces e) := by
  cases e with
  | none => rfl
  | some text =>
    change ("<pre class=\"evidence\">" ++ escape text ++ "</pre>").toList = _
    simp only [evidencePieces, written_cons, written_nil, Piece.text, String.toList_append,
      List.append_assoc, List.append_nil]

theorem toList_violation (v : Violation) : (violation v).toList = written (itemPieces v) := by
  -- An equation of `violation` would hold its literals as characters, which takes long to prove.
  delta violation
  simp only [itemPieces, written_append, written_cons, written_nil, Piece.text,
    ← toList_evidence, String.toList_append, List.append_assoc, List.append_nil]
  rfl

theorem toList_file (f : FileFindings) : (file f).toList = written (filePieces f) := by
  delta file
  simp only [filePieces, written_append, written_cons, written_nil, written_flatMap, Piece.text,
    ← toList_violation, String.toList_append, String.toList_join, List.flatMap_map,
    List.append_assoc, List.append_nil]
  rfl

theorem toList_header (generated : Timestamp) (totals : Totals) :
    (header title generated totals).toList =
      written (leadPieces generated ++ countPieces totals) := by
  delta header
  simp only [leadPieces, countPieces, written_append, written_cons, written_nil, Piece.text,
    String.toList_append, List.append_assoc, List.append_nil]
  rfl

/-- A page is written piece by piece. -/
theorem toList_render (f : Findings) (generated : Timestamp) :
    (Format.html.render f generated).toList = written (pagePieces f generated) := by
  have hheader := toList_header generated f.totals
  rw [Format.render, pagePieces, written_append, written_append, ← hheader, written_flatMap]
  simp only [written_cons, written_nil, Piece.text, ← toList_file, String.toList_append,
    String.toList_join, List.flatMap_map, List.append_nil]

end LintRun.Report.Html
