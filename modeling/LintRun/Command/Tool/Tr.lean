import LintRun.Command.Tool.Flags
import LintRun.Text.Digits

/-! Translating, deleting and squeezing characters.

    Two operands spell lists of characters. The first one says which characters are meant, and the
    second one what becomes of them.

    No result rests on this module. -/

namespace LintRun.Command.Tr

def spec : FlagSpec where
  letters := ['A', 'c', 'C', 'd', 's', 't']
  long :=
    [⟨"complement", .never, 'c'⟩, ⟨"delete", .never, 'd'⟩, ⟨"squeeze-repeats", .never, 's'⟩,
      ⟨"truncate-set1", .never, 't'⟩]
  mixed := false

/-- What the tool is asked to do. -/
structure Task where
  complement : Bool
  deletes : Bool
  squeezes : Bool
  truncates : Bool
  deriving Repr, DecidableEq

/-- The task that some options ask for. -/
def Task.ofFlags (f : Flags) : Task :=
  ⟨f.has 'c' || f.has 'C', f.has 'd', f.has 's', f.has 't'⟩

/-- A character of an operand, and whether a backslash has taken its meaning. -/
abbrev Letter := Char × Bool

/-- The characters of an operand, and the warnings about it, last first; `done` holds the characters
    read so far, last first. The first argument bounds their number. -/
def lettersFrom : Nat → List Letter → List Octets → Octets → List Letter × List Octets
  | 0, done, warnings, _ => (done.reverse, warnings)
  | _ + 1, done, warnings, [] => (done.reverse, warnings)
  | _ + 1, done, warnings, ['\\'] =>
    ((('\\', false) :: done).reverse, Octets.ofString
      "warning: an unescaped backslash at end of string is not portable" :: warnings)
  | fuel + 1, done, warnings, '\\' :: c :: s =>
    let digits := ((c :: s).take 3).takeWhile fun c => (Text.digitOf 8 c).isSome
    let number := fun (ds : Octets) => Text.natOfDigits 8 (ds.filterMap Text.digitValue)
    match digits with
    | [] =>
      let meaning := ((lettered.find? (·.2 = c)).map (·.1)).getD c
      lettersFrom fuel ((meaning, true) :: done) warnings s
    | [a, b, d] =>
      if number digits < 256 then
        lettersFrom fuel ((Char.ofNat (number digits), true) :: done) warnings (s.drop 2)
      else
        let shown := String.ofList [a, b, d]
        let parts := String.ofList ['0', a, b]
        let warning := Octets.ofString (s!"warning: the ambiguous octal escape \\{shown} is being" ++
          s!"\n\tinterpreted as the 2-byte sequence \\{parts}, {d}")
        lettersFrom fuel ((Char.ofNat (number [a, b]), true) :: done) (warning :: warnings)
          (s.drop 1)
    | ds =>
      lettersFrom fuel ((Char.ofNat (number ds), true) :: done) warnings
        ((c :: s).drop ds.length)
  | fuel + 1, done, warnings, c :: s => lettersFrom fuel ((c, false) :: done) warnings s

/-- A part of a list: one character, a range, the characters of a class, a character with all that
    are equal to it, or one that is repeated; no count stands for as often as it takes. -/
inductive Element where
  | char (c : Char)
  | range (first last : Char)
  | ofClass (name : String)
  | equals (c : Char)
  | repeated (c : Char) (count : Option Nat)
  deriving Repr, DecidableEq

def allChars : List Char := (List.range 256).map Char.ofNat

namespace Element

def chars : Element → List Char
  | .char c | .equals c => [c]
  | .range first last =>
    (List.range (last.toNat + 1 - first.toNat)).map fun i => Char.ofNat (first.toNat + i)
  | .ofClass name => allChars.filter (isOfClass name)
  | .repeated c count => List.replicate (count.getD 0) c

/-- Whether a part is one of the two classes that stand for a change of case. -/
def isCase : Element → Bool
  | .ofClass name => name = "upper" || name = "lower"
  | _ => false

/-- Whether a part is a class. -/
def isClass : Element → Bool
  | .ofClass _ => true
  | _ => false

end Element

/-- Whether a letter stands for itself as a mark. -/
def Letter.isMark (l : Letter) (c : Char) : Bool := l.1 = c && !l.2

/-- The index of the end of a named part, from which on two marks close it. -/
def closing (kind : Char) (s : List Letter) : Option Nat :=
  (List.range (s.length - 1)).find? fun i =>
    match s.drop i with
    | a :: b :: _ => a.isMark kind && b.isMark ']'
    | _ => false

/-- Whether letters are the count of a repetition to its end. -/
def looksRepeated (s : List Letter) : Bool :=
  match s with
  | star :: rest =>
    star.isMark '*' &&
      ((rest.dropWhile fun l => l.1.isDigit).head?.any fun (l : Letter) => l.isMark ']')
  | [] => false

def plain (s : List Letter) : Octets := s.map (·.1)

/-- A text as it is spelled in an operand. -/
def spelled (s : Octets) : Octets :=
  s.flatMap fun c =>
    if c = '\\' then ['\\', '\\'] else if isPrintable c then [c] else hiddenEscape c

/-- What reading a part gives: nothing if there is none of that kind, a part with what follows it,
    or what is wrong. -/
abbrev Reading := Except Octets (Option (Element × List Letter))

/-- A class or an equivalence after its opening. -/
def readNamed (kind : Char) (s : List Letter) : Reading :=
  match closing kind s with
  | none => .ok none
  | some n =>
    let name := plain (s.take n)
    let rest := s.drop (n + 2)
    if name = [] then
      .error (Octets.ofString (if kind = ':' then "missing character class name '[::]'"
        else "missing equivalence class character '[==]'"))
    else if kind = ':' then
      if classNames.contains (String.ofList name) then
        .ok (some (.ofClass (String.ofList name), rest))
      else if looksRepeated s then .ok none
      else .error (Octets.ofString "invalid character class " ++ quoted (spelled name))
    else match name with
      | [c] => .ok (some (.equals c, rest))
      | name =>
        if looksRepeated s then .ok none
        else .error (spelled name ++
          Octets.ofString ": equivalence class operand must be a single character")

/-- A repetition after its opening bracket. -/
def readRepeated (s : List Letter) : Reading :=
  match s with
  | c :: star :: rest =>
    if !star.isMark '*' then .ok none
    else
      let count := rest.takeWhile fun l => !l.2 && l.1 ≠ ']'
      match rest.drop count.length with
      | close :: after =>
        if !close.isMark ']' then .ok none
        else
          let ds := plain count
          let base := if ds.head? = some '0' then 8 else 10
          if ds.all fun d => (Text.digitOf base d).isSome then
            let n := Text.natOfDigits base (ds.filterMap Text.digitValue)
            .ok (some (.repeated c.1 (if n = 0 then none else some n), after))
          else .error (Octets.ofString "invalid repeat count " ++ quoted (spelled ds) ++
            Octets.ofString " in [c*n] construct")
      | [] => .ok none
  | _ => .ok none

/-- A part that is spelled with brackets. -/
def readBracketed (s : List Letter) : Reading :=
  match s with
  | open_ :: kind :: rest =>
    if !open_.isMark '[' then .ok none
    else do
      let named ← if kind.isMark ':' || kind.isMark '=' then readNamed kind.1 rest else .ok none
      match named with
      | some found => return some found
      | none => readRepeated (kind :: rest)
  | _ => .ok none

/-- A character as a message names it. -/
def shownChar (c : Char) : Octets :=
  if isPrintable c then [c]
  else
    let n := c.toNat
    '\\' :: [n / 64 % 8, n / 8 % 8, n % 8].map Nat.digitChar

/-- The parts of a list. The first argument bounds their number. -/
def elementsWithin : Nat → List Letter → Except Octets (List Element)
  | 0, _ => .ok []
  | fuel + 1, a :: b :: c :: s => do
    match ← readBracketed (a :: b :: c :: s) with
    | some (element, rest) => return element :: (← elementsWithin fuel rest)
    | none =>
      if b.isMark '-' then
        if c.1 < a.1 then
          throw (Octets.ofString "range-endpoints of '" ++ shownChar a.1 ++ '-' :: shownChar c.1 ++
            Octets.ofString "' are in reverse collating sequence order")
        else return .range a.1 c.1 :: (← elementsWithin fuel s)
      else return .char a.1 :: (← elementsWithin fuel (b :: c :: s))
  | _ + 1, s => .ok (s.map fun l => .char l.1)

def elements (s : List Letter) : Except Octets (List Element) := elementsWithin (s.length + 1) s

def charsOf (list : List Element) : List Char := list.flatMap Element.chars

/-- The number of parts whose count is open. -/
def openCounts (list : List Element) : Nat :=
  list.countP fun
    | .repeated _ none => true
    | _ => false

/-- The characters that a list means. -/
def meant (complement : Bool) (list : List Element) : List Char :=
  let chars := charsOf list
  if complement then allChars.filter (!chars.contains ·) else chars

/-- A list in which the open count makes up for what it is shorter than another one. -/
def fillCount (length : Nat) (list : List Element) : List Element :=
  let missing := length - (charsOf list).length
  list.map fun
    | .repeated c none => .repeated c (some missing)
    | e => e

/-- The last character of a list, by which it is continued. -/
def lastOf (list : List Element) : Option Char :=
  match list.getLast? with
  | some (.repeated c _) => some c
  | _ => (charsOf list).getLast?

/-- The pairs of two lists, gone through side by side, and whether the classes of the second one
    that stand for a change of case meet classes of the first one. What two classes make of a
    character counts as pairs. The first argument bounds their parts. -/
def pairsWithin : Nat → List Element → List Char → List Element → List Char →
    List (Char × Char) × Bool
  | 0, _, _, _, _ => ([], true)
  | fuel + 1, e :: s, [], f :: t, [] =>
    match e.isCase, f.isCase with
    | _, false => pairsWithin fuel s e.chars t f.chars
    | false, true => ([], false)
    | true, true =>
      let (rest, fine) := pairsWithin fuel s [] t []
      let own := if e = f then e.chars.map fun c => (c, c)
        else e.chars.map fun c => (c, if c.isUpper then c.toLower else c.toUpper)
      (own ++ rest, fine)
  | fuel + 1, e :: s, [], t, d :: ds => pairsWithin fuel s e.chars t (d :: ds)
  | fuel + 1, s, c :: cs, f :: t, [] =>
    if f.isCase then ([], false) else pairsWithin fuel s (c :: cs) t f.chars
  | fuel + 1, s, c :: cs, t, d :: ds =>
    let (rest, fine) := pairsWithin fuel s cs t ds
    ((c, d) :: rest, fine)
  | _ + 1, [], [], f :: _, [] => ([], !f.isCase)
  | _ + 1, _, _, _, _ => ([], true)

/-- The pairs of two lists, and whether their changes of case meet. -/
def pairs (first second : List Element) : List (Char × Char) × Bool :=
  let bound := 2 * ((charsOf first).length + (charsOf second).length) + first.length +
    second.length + 2
  pairsWithin bound first [] second []

/-- What becomes of each character that is translated, or why the lists do not go together. -/
def translation (task : Task) (first second : List Element) : Except Octets (List (Char × Char)) := do
  let wrong := fun {α : Type} (text : String) => (.error (Octets.ofString text) : Except Octets α)
  let domain := meant task.complement first
  let second := if openCounts second = 1 then fillCount domain.length second else second
  let isRestricted := fun (e : Element) => e.isClass && !e.isCase
  if second.any fun e => match e with | .equals _ => true | _ => false then
    wrong "[=c=] expressions may not appear in string2 when translating"
  if second.any isRestricted then
    wrong ("when translating, the only character classes that may appear in\n" ++
      "string2 are 'upper' and 'lower'")
  let hasCase := !task.complement && second.any Element.isCase
  let (_, fine) := pairs first second
  if hasCase && !fine then wrong "misaligned [:upper:] and/or [:lower:] construct"
  let given := (charsOf second).length
  let extend := given < domain.length && !task.truncates
  if extend && (charsOf second).isEmpty then
    wrong "when not truncating set1, string2 must be non-empty"
  if extend && (second.getLast?.any Element.isClass) then
    wrong ("when translating with string1 longer than string2,\n" ++
      "the latter string must not end with a character class")
  let second := match if extend then lastOf second else none with
    | some c => second ++ [.repeated c (some (domain.length - given))]
    | none => second
  let image := charsOf second
  let isUniform := image.eraseDups.length = 1 && image.length = domain.length
  if task.complement && first.any Element.isClass && !isUniform then
    wrong ("when translating with complemented character classes,\n" ++
      "string2 must map all characters in the domain to one")
  return if task.complement then domain.zip image else (pairs first second).1

/-- The text with one of each run of equal characters that are meant. -/
def squeezed (set : List Char) : Octets → Octets
  | a :: b :: s => if a = b && set.contains a then squeezed set (b :: s) else a :: squeezed set (b :: s)
  | s => s

/-- What is made of a text. -/
def applied (task : Task) (first : List Element) (second : Option (List Element)) (text : Octets) :
    Except Octets Octets := do
  let set := meant task.complement first
  if openCounts first ≠ 0 then
    .error (Octets.ofString "the [c*] repeat construct may not appear in string1")
  match second with
  | none =>
    return if task.deletes then text.filter (!set.contains ·) else squeezed set text
  | some second =>
    if 1 < openCounts second then
      .error (Octets.ofString "only one [c*] repeat construct may appear in string2")
    if task.deletes then
      if openCounts second ≠ 0 then
        .error (Octets.ofString
          "the [c*] construct may appear in string2 only when translating")
      return squeezed (charsOf second) (text.filter (!set.contains ·))
    else
      let map := (← translation task first second).reverse
      let changed := text.map fun c => (map.lookup c).getD c
      let filled := if openCounts second = 1 then fillCount set.length second else second
      return if task.squeezes then squeezed (charsOf filled) changed else changed

/-- The complaint about a number of operands that does not fit the task. -/
def miscount (task : Task) (operands : List Octets) : Option Octets :=
  let least := if task.deletes = task.squeezes then 2 else 1
  let most := if task.deletes && !task.squeezes then 1 else 2
  if operands.length < least then
    match operands.getLast? with
    | none => some (Octets.ofString "missing operand")
    | some last =>
      let text := if task.squeezes then
          "\nTwo strings must be given when both deleting and squeezing repeats."
        else "\nTwo strings must be given when translating."
      some (Octets.ofString "missing operand after " ++ quoted last ++ Octets.ofString text)
  else match operands.drop most with
    | [] => none
    | extra :: _ =>
      let text := if operands.length = 2 then
          "\nOnly one string may be given when deleting without squeezing repeats."
        else ""
      some (Octets.ofString "extra operand " ++ quoted extra ++ Octets.ofString text)

/-- Reads the operands: the parts of the lists, or what is wrong, and the warnings. -/
def readOperands : List Octets → Except Octets (List (List Element)) × List Octets
  | [] => (.ok [], [])
  | operand :: rest =>
    let (letters, warnings) := lettersFrom (operand.length + 1) [] [] operand
    match elements letters with
    | .error text => (.error text, warnings.reverse)
    | .ok list =>
      let (lists, more) := readOperands rest
      (lists.map (list :: ·), warnings.reverse ++ more)

def run (call : ToolCall) : ToolResult :=
  match Flags.read spec call.arguments with
  | .error text => call.refuse text
  | .ok flags =>
    let task := Task.ofFlags flags
    match miscount task flags.operands with
    | some text => call.refuse text
    | none =>
      let (lists, warnings) := readOperands flags.operands
      let result := lists.bind fun
        | first :: second => applied task first second.head? call.input
        | [] => .ok call.input
      let line := fun text => (2, Octets.ofString s!"{call.name}: " ++ text ++ ['\n'])
      match result with
      | .ok text => { written := warnings.map line ++ [(1, text)] }
      | .error text =>
        { status := 1, rest := call.input, written := (warnings ++ [text]).map line }

end LintRun.Command.Tr
