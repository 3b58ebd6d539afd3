import LintRun.Command.Regex.Basic

/-! Programs of a line filter: rules, each with a condition and an action, and functions. No result
    rests on this module. -/

namespace LintRun.Command.Awk

/-- What a name stands for: something of the whole program, or of the function that it stands in,
    counted from its first parameter. -/
inductive Name where
  | shared (name : String)
  | own (index : Nat)
  deriving Repr, DecidableEq, Inhabited

/-- What two numbers are combined by. -/
inductive Arithmetic where
  | add
  | sub
  | mul
  | div
  | mod
  | pow
  deriving Repr, DecidableEq, Inhabited

/-- How two values are compared. -/
inductive Comparison where
  | less
  | atMost
  | equal
  | differ
  | more
  | atLeast
  deriving Repr, DecidableEq, Inhabited

/-- The functions of numbers and texts that every program has. -/
inductive Function where
  | length
  | index
  | substr
  | sprintf
  | sin
  | cos
  | atan2
  | exp
  | log
  | sqrt
  | int
  | rand
  | srand
  | close
  | system
  | toupper
  | tolower
  | fflush
  deriving Repr, DecidableEq, Inhabited

/-- Where a record comes from. -/
inductive Source (α : Type) where
  | main
  | file (name : α)
  | command (text : α)
  deriving Repr, Inhabited

/-- An expression. A list of several stands for the index that they make up. -/
inductive Expr where
  | number (x : Float)
  | text (s : Octets)
  | regex (spelled : Octets) (r : Regex)
  | variable (name : Name)
  | element (array : Name) (index : List Expr)
  | field (index : Expr)
  | list (all : List Expr)
  | assign (target value : Expr)
  | update (op : Arithmetic) (target value : Expr)
  | step (amount : Float) (after : Bool) (target : Expr)
  | arithmetic (op : Arithmetic) (left right : Expr)
  | compare (op : Comparison) (left right : Expr)
  | join (left right : Expr)
  | positive (e : Expr)
  | negative (e : Expr)
  | not (e : Expr)
  | both (left right : Expr)
  | either (left right : Expr)
  | choose (condition yes no : Expr)
  | matches (text pattern : Expr)
  | member (index : Expr) (array : Name)
  | call (name : String) (arguments : List Expr)
  | builtin (f : Function) (arguments : List Expr)
  | size (name : Name)
  | locate (text pattern : Expr)
  | split (text : Expr) (array : Name) (separator : Option Expr)
  | substitute (all : Bool) (pattern replacement target : Expr)
  | readLine (source : Source Expr) (target : Option Expr)
  deriving Inhabited

/-- Where output goes. -/
inductive Outlet where
  | file
  | append
  | command
  deriving Repr, DecidableEq, Inhabited

/-- A statement. -/
inductive Stmt where
  | run (e : Expr)
  | print (arguments : List Expr) (outlet : Option (Outlet × Expr))
  | printf (arguments : List Expr) (outlet : Option (Outlet × Expr))
  | block (body : List Stmt)
  | branch (condition : Expr) (yes : Stmt) (no : Option Stmt)
  | loop (condition : Expr) (body : Stmt)
  | loopOnce (body : Stmt) (condition : Expr)
  | forLoop (first condition next : Option Expr) (body : Stmt)
  | forEach (key array : Name) (body : Stmt)
  | next
  | nextFile
  | exit (status : Option Expr)
  | return (value : Option Expr)
  | break
  | continue
  | delete (array : Name) (index : List Expr)
  deriving Inhabited

/-- When the action of a rule is carried out. A range is told from others by its number. -/
inductive Trigger where
  | first
  | last
  | always
  | holds (e : Expr)
  | range (number : Nat) (first last : Expr)
  deriving Inhabited

/-- A rule. Without an action it prints the record. -/
structure Rule where
  trigger : Trigger
  action : Option Stmt := none
  deriving Inhabited

/-- A function of a program. -/
structure Definition where
  name : String
  parameters : List String
  body : Stmt
  deriving Inhabited

/-- What a program consists of: its rules in order, and its functions. -/
structure Script where
  rules : List Rule := []
  functions : List Definition := []
  deriving Inhabited

end LintRun.Command.Awk
