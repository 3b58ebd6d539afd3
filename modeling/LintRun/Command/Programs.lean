import LintRun.Command.Awk.Start
import LintRun.Command.Shell.Start
import LintRun.Command.Tool.Cat
import LintRun.Command.Tool.Tr
import LintRun.Command.Tool.Wc

/-! The programs that can be started. Shells and scripts run each other, nested as deep as a bound
    allows. No result rests on this module. -/

namespace LintRun.Command

/-- A tool that only has an outcome. -/
def outcomeTool (status : Nat) : ToolCall → ToolResult := fun call => { status, rest := call.input }

/-- The programs that run no others. -/
def tools : List (String × (ToolCall → ToolResult)) :=
  [("cat", Cat.run), ("echo", Echo.run), ("false", outcomeTool 1), ("printf", Printf.run),
    ("tr", Tr.run), ("true", outcomeTool 0), ("wc", Wc.run)]

/-- How deep scripts may be nested. -/
def deepest : Nat := 20000

/-- The signal that ends a process which is nested too deep. -/
def tooDeep : Nat := 11

mutual
/-- Runs a script that is nested at most as deep as the first argument says. -/
def scriptAt : Nat → Shell.Stance → Shell.Script → Shell.Session → Shell.Session
  | 0, _, _, s => { s with flow := .killed tooDeep }
  | depth + 1, stance, script, s => Shell.run ⟨scriptAt depth, programAt depth⟩ stance script s

/-- The program of a name, which runs others that are nested at most as deep as the first argument
    says. -/
def programAt : Nat → String → Option Program
  | 0, _ => none
  | depth + 1, name =>
    match name with
    | "awk" => some (Awk.program (Shell.program ⟨scriptAt depth, programAt depth⟩))
    | "sh" => some (Shell.program ⟨scriptAt depth, programAt depth⟩)
    | name => (tools.lookup name).map Program.ofTool
end

def program? (name : String) : Option Program := programAt deepest name

end LintRun.Command
