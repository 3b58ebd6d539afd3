import LintRun.Files.Tree

/-! What a run has changed in a tree of files. -/

namespace LintRun.FileTree

/-- The path of a place below the directory in which relative paths begin. -/
def pathBelow (t : FileTree) (p : Place) : Path := ⟨"/".intercalate (p.drop t.here.length)⟩

/-- The files of a later tree that are new or have other contents, in the order of their paths. -/
def changes (before after : FileTree) : List (Path × List UInt8) :=
  let changed := after.entries.filterMap fun (p, entry) =>
    match entry with
    | .directory => none
    | .file bytes =>
      if before.here.isPrefixOf p && before.entry? p ≠ some entry then
        some (before.pathBelow p, bytes)
      else none
  changed.mergeSort fun a b => a.1.text ≤ b.1.text

end LintRun.FileTree
