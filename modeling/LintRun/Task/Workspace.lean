import LintRun.Files.Tree
import LintRun.Task.Trace

/-! The host of a task that works on a tree of files and lints with a command.

    How a command is started is left open: a starter gives the child that a call leads to, and the
    tree that the child leaves. -/

namespace LintRun

/-- A way to start the command of a call and to wait for its end. -/
abbrev Linter.Starter := FileTree → Linter.Call → Except OsError Linter.Child × FileTree

namespace Task

/-- Lints a source with the command of some words. -/
def lintWith (start : Linter.Starter) (words : List String) (t : FileTree) (source : String)
    (options : LintOptions) (isScript : Bool) : Except LinterError (List Violation) × FileTree :=
  match Linter.CommandLine.ofWords? words with
  | none => (.error Linter.emptyCommand, t)
  | some command =>
    let (child, t) := start t (Linter.call command source options isScript)
    (Linter.answer command.program child, t)

/-- The host of a tree and a linter command. A command without words gives no linter. -/
def workspace (start : Linter.Starter) (words : List String) : Host FileTree where
  isFile t path := t.isFile path
  read t path := (t.readText path, t)
  create t := (if words.isEmpty then .error Linter.emptyCommand else .ok (), t)
  lint t source options isScript := lintWith start words t source options isScript
  write t path report := t.writeText path report

end Task

end LintRun
