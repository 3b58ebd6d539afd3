import LintRun.Linter.Child
import LintRun.Log
import LintRun.Path.Basic

/-! What a run of a task does to the world, as a trace of events.

    The world is a state that a host acts on: it holds files, a linter or whatever else answers. An
    action gives a result, the events on the way to it, and the state it leaves. The paths of the
    files may be of any type. -/

namespace LintRun.Task

/-- The files and the linter that a task works with, each acting on a state. -/
structure Host (σ : Type) (π : Type := Path) where
  isFile : σ → π → Bool
  read : σ → π → Except OsError String × σ
  create : σ → Except LinterError Unit × σ
  lint : σ → String → LintOptions → Bool → Except LinterError (List Violation) × σ
  write : σ → π → String → Except OsError Unit × σ

/-- One thing that a task does, with the answer it gets. -/
inductive Event (π : Type := Path) where
  | looked (path : π) (answer : Bool)
  | read (path : π) (answer : Except OsError String)
  | created (answer : Except LinterError Unit)
  | linted (source : String) (options : LintOptions) (isScript : Bool)
      (answer : Except LinterError (List Violation))
  | logged (severity : Severity) (entry : LogEntry)
  | released
  | wrote (path : π) (report : String) (answer : Except OsError Unit)

/-- The log that the events of a trace make. -/
def Event.entry? {π : Type} : Event π → Option (Severity × LogEntry)
  | .logged severity entry => some (severity, entry)
  | _ => none

def logOf {π : Type} (events : List (Event π)) : Log := events.filterMap Event.entry?

@[simp] theorem logOf_append {π : Type} (first rest : List (Event π)) :
    logOf (first ++ rest) = logOf first ++ logOf rest := List.filterMap_append

/-- What an action leaves: its result, its events in order, and the state. -/
structure Done (σ α : Type) (π : Type := Path) where
  result : α
  events : List (Event π)
  state : σ

namespace Done

variable {σ π ε α β γ : Type}

/-- Goes on after an action that succeeded. -/
def andThen (d : Done σ (Except ε α) π) (next : α → σ → Done σ (Except ε β) π) :
    Done σ (Except ε β) π :=
  match d.result with
  | .error e => ⟨.error e, d.events, d.state⟩
  | .ok a =>
    let after := next a d.state
    ⟨after.result, d.events ++ after.events, after.state⟩

/-- Adds an event that follows an action however that ended. -/
def followedBy (d : Done σ α π) (event : Event π) : Done σ α π :=
  { d with events := d.events ++ [event] }

@[simp] theorem andThen_events_of_error {d : Done σ (Except ε α) π} {e : ε}
    (h : d.result = .error e) (next : α → σ → Done σ (Except ε β) π) :
    (d.andThen next).events = d.events := by
  simp [andThen, h]

@[simp] theorem andThen_events_of_ok {d : Done σ (Except ε α) π} {a : α}
    (h : d.result = .ok a) (next : α → σ → Done σ (Except ε β) π) :
    (d.andThen next).events = d.events ++ (next a d.state).events := by
  simp [andThen, h]

/-- What follows an action may be taken together before it follows. -/
theorem andThen_assoc (d : Done σ (Except ε α) π)
    (next : α → σ → Done σ (Except ε β) π) (last : β → σ → Done σ (Except ε γ) π) :
    (d.andThen next).andThen last = d.andThen fun a s => (next a s).andThen last := by
  rcases d with ⟨e | a, events, s⟩
  · rfl
  · rcases h : next a s with ⟨e | b, events', s'⟩ <;> simp [andThen, h]

end Done

end LintRun.Task
