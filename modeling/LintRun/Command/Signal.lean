/-! The signals by which a process is told to end. No result rests on this module. -/

namespace LintRun.Command

/-- A signal: its number, its name, and what is told of a process that it has ended. -/
structure Signal where
  number : Nat
  name : String
  text : String := ""
  deriving Repr, DecidableEq

/-- All signals that have a name, in the order of their numbers. -/
def signals : List Signal :=
  [⟨1, "HUP", "Hangup"⟩, ⟨2, "INT", ""⟩, ⟨3, "QUIT", "Quit"⟩, ⟨4, "ILL", "Illegal instruction"⟩,
    ⟨5, "TRAP", "Trace/breakpoint trap"⟩, ⟨6, "ABRT", "Aborted"⟩, ⟨7, "BUS", "Bus error"⟩,
    ⟨8, "FPE", "Floating point exception"⟩, ⟨9, "KILL", "Killed"⟩,
    ⟨10, "USR1", "User defined signal 1"⟩, ⟨11, "SEGV", "Segmentation fault"⟩,
    ⟨12, "USR2", "User defined signal 2"⟩, ⟨13, "PIPE", ""⟩, ⟨14, "ALRM", "Alarm clock"⟩,
    ⟨15, "TERM", "Terminated"⟩, ⟨16, "STKFLT", "Stack fault"⟩, ⟨17, "CHLD", ""⟩,
    ⟨18, "CONT", ""⟩, ⟨19, "STOP", ""⟩, ⟨20, "TSTP", ""⟩, ⟨21, "TTIN", ""⟩, ⟨22, "TTOU", ""⟩,
    ⟨23, "URG", ""⟩, ⟨24, "XCPU", "CPU time limit exceeded"⟩,
    ⟨25, "XFSZ", "File size limit exceeded"⟩, ⟨26, "VTALRM", "Virtual timer expired"⟩,
    ⟨27, "PROF", "Profiling timer expired"⟩, ⟨28, "WINCH", ""⟩, ⟨29, "IO", "I/O possible"⟩,
    ⟨30, "PWR", "Power failure"⟩, ⟨31, "SYS", "Bad system call"⟩]

namespace Signal

/-- The signals that leave a process as it is. -/
def harmless : List Nat := [17, 18, 19, 20, 21, 22, 23, 28]

/-- The signal of a number, if it has a name. -/
def ofNumber? (n : Nat) : Option Signal := signals.find? (·.number = n)

/-- The numbers of signals stay below this one. -/
def bound : Nat := 65

/-- The name of a signal, which of some is their number or their distance from others. -/
def nameOf (n : Nat) : String :=
  if n = 0 then "EXIT"
  else if n = 34 then "RTMIN"
  else if 34 < n && n < 50 then s!"RTMIN+{n - 34}"
  else if 50 ≤ n && n < 64 then s!"RTMAX-{64 - n}"
  else if n = 64 then "RTMAX"
  else if n = 16 then "16"
  else ((ofNumber? n).map (·.name)).getD (toString n)

/-- The names of all signals with their numbers. -/
def names : List (String × Nat) := (List.range bound).map fun n => (nameOf n, n)

/-- What is told of a process that a signal has ended; nothing of some. -/
def epitaph (n : Nat) : String := ((ofNumber? n).map (·.text)).getD ""

end Signal

end LintRun.Command
