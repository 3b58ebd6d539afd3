import LintRun.Command.Octets

/-! Scripts of a shell: words with their quotes and expansions, redirections, and the ways in which
    commands are joined.

    The text of a here-document follows its command, so a redirection only names the document; what
    the names stand for is known once the line is read.

    No result rests on this module. -/

namespace LintRun.Command.Shell

/-- How a file is opened. Writing may be refused where there is a file, and replacing may not. -/
inductive FileMode where
  | read
  | write
  | replace
  | append
  | readWrite
  deriving Repr, DecidableEq

mutual
/-- A part of a word. What is quoted is neither split at blanks nor matched as a pattern; a mark
    tells that quotes stood here, even if nothing is in them. -/
inductive Part where
  | text (s : Octets) (quoted : Bool)
  | mark
  | parameter (name : String) (use : Use) (quoted : Bool)
  | output (script : Option Script) (quoted : Bool)
  | arithmetic (expression : List Part) (quoted : Bool)

/-- What is asked of a parameter: its value, its length, its value or another word if it is not set
    or, with `orEmpty`, empty, or its value without what a pattern matches at one end. -/
inductive Use where
  | value
  | length
  | malformed
  | otherwise (orEmpty : Bool) (word : List Part)
  | assign (orEmpty : Bool) (word : List Part)
  | demand (orEmpty : Bool) (word : List Part)
  | instead (orEmpty : Bool) (word : List Part)
  | trim (atEnd longest : Bool) (pattern : List Part)

/-- A redirection of a descriptor: to a file, to what another descriptor leads to, or to a
    document. -/
inductive Redirect where
  | file (descriptor : Nat) (mode : FileMode) (name : List Part)
  | join (descriptor : Nat) (target : List Part)
  | document (descriptor : Nat) (key : Nat)

inductive Script where
  | simple (line : Nat) (assignments : List (String × List Part)) (words : List (List Part))
      (redirects : List Redirect)
  | redirected (line : Nat) (body : Script) (redirects : List Redirect)
  | subshell (line : Nat) (body : Script) (redirects : List Redirect)
  | background (line : Nat) (body : Script)
  | pipeline (parts : List Script)
  | negate (body : Script)
  | both (left right : Script)
  | either (left right : Script)
  | sequence (left right : Script)
  | branch (condition yes : Script) (no : Option Script)
  | loop (wanted : Bool) (condition body : Script)
  | forEach (line : Nat) (name : String) (words : List (List Part)) (body : Script)
  | select (line : Nat) (word : List Part) (arms : List (List (List Part) × Option Script))
  | define (name : String) (body : Script)
end

instance : Inhabited Part := ⟨.mark⟩
instance : Inhabited Script := ⟨.pipeline []⟩

/-- A word as it is spelled. -/
abbrev Word := List Part

/-- The text of a word that is spelled without any quotes or expansions. -/
def Word.bare? : Word → Option String
  | [.text s false] => some (String.ofList s)
  | _ => none

/-- Whether a character may begin a name. -/
def beginsName (c : Char) : Bool := c.isAlpha || c = '_'

/-- Whether a character may stand in a name. -/
def continuesName (c : Char) : Bool := beginsName c || c.isDigit

/-- Whether a text is a name. -/
def isName (s : List Char) : Bool := s.head?.any beginsName && s.all continuesName

/-- The name and value of a word that is an assignment. -/
def Word.assignment? : Word → Option (String × Word)
  | .text s false :: rest =>
    let name := s.takeWhile (· ≠ '=')
    match s.drop name.length with
    | _ :: value =>
      if isName name then
        some (String.ofList name, if value = [] then rest else .text value false :: rest)
      else none
    | [] => none
  | _ => none

end LintRun.Command.Shell
