import LintRun.Json.Printer
import LintRun.Json.Reader
import Mathlib.Data.List.TakeDrop
import Mathlib.Tactic.IntervalCases

/-! Reading what was printed. The compact text of a value is read to the written form of that value
    (`read_print`): a quoted text gives its characters again, whichever of them were escaped, and an
    integer gives its digits. Floats are left out, for their digits may stand for another float. -/

namespace LintRun.Json

/-! ### Quoted texts -/

/-- The piece that an escaped character is read to. A control character without a letter of its own
    is given by number. -/
def pieceOf (c : Char) : Piece :=
  if c.toNat < 0x20 ∧ c ∉ ['\x08', '\t', '\n', '\x0c', '\r'] then .unit c.toNat else .char c

theorem hexUnit_hexPair : ∀ n < 0x20, ∃ a b, hexPair n = [a, b] ∧ hexUnit '0' '0' a b = some n := by
  intro n hn
  refine ⟨_, _, rfl, ?_⟩
  revert n
  decide

/-- A character that stands for itself. -/
theorem readPieces_plain {c : Char} (hquote : c ≠ '"') (hescape : c ≠ '\\')
    (hplain : ¬ c.toNat < 0x20) (done : List Piece) (s : List Char) :
    readPieces done (c :: s) = readPieces (.char c :: done) s := by
  rw [readPieces.eq_def]
  split <;> simp_all

theorem readPieces_escapeChar (c : Char) (done : List Piece) (s : List Char) :
    readPieces done (escapeChar c ++ s) = readPieces (pieceOf c :: done) s := by
  unfold escapeChar
  split_ifs with hquote hescape hback htab hline hform hreturn hcontrol
  · subst hquote; rfl
  · subst hescape; rfl
  · subst hback; rfl
  · subst htab; rfl
  · subst hline; rfl
  · subst hform; rfl
  · subst hreturn; rfl
  · obtain ⟨a, b, hpair, hunit⟩ := hexUnit_hexPair c.toNat hcontrol
    have hpiece : pieceOf c = .unit c.toNat := by
      simp [pieceOf, hcontrol, hback, htab, hline, hform, hreturn]
    simp only [hpair, List.cons_append, List.nil_append, readPieces, hunit, hpiece]
  · have hpiece : pieceOf c = .char c := by simp [pieceOf, hcontrol]
    rw [List.singleton_append, readPieces_plain hquote hescape hcontrol, hpiece]

theorem readPieces_flatMap (cs : List Char) (done : List Piece) (rest : List Char) :
    readPieces done (cs.flatMap escapeChar ++ '"' :: rest) =
      some (done.reverse ++ cs.map pieceOf, rest) := by
  induction cs generalizing done with
  | nil => simp [readPieces]
  | cons c cs ih =>
    rw [List.flatMap_cons, List.append_assoc, readPieces_escapeChar, ih]
    simp

theorem assemble_unit {n : Nat} (hn : n < 0xD800) (done : List Char) (pieces : List Piece) :
    assemble done (.unit n :: pieces) = assemble (Char.ofNat n :: done) pieces := by
  have hlow : ¬ 0xD800 ≤ n := Nat.not_le.2 hn
  have hlate : ¬ 0xDC00 ≤ n := by omega
  rcases pieces with - | ⟨c | m, pieces⟩
  · simp [assemble, hlow]
  · simp [assemble, hlow]
  · simp [assemble, hlow, hlate]

theorem assemble_map_pieceOf (cs done : List Char) :
    assemble done (cs.map pieceOf) = some (done.reverse ++ cs) := by
  induction cs generalizing done with
  | nil => simp [assemble]
  | cons c cs ih =>
    have hstep : assemble done (pieceOf c :: cs.map pieceOf) =
        assemble (c :: done) (cs.map pieceOf) := by
      unfold pieceOf
      split_ifs with hcontrol
      · rw [assemble_unit (by omega), Char.ofNat_toNat]
      · rfl
    rw [List.map_cons, hstep, ih]
    simp

/-- A quoted text is read up to its closing quote, whatever characters it has. -/
theorem readQuoted_escape (s : String) (rest : List Char) :
    readQuoted (s.toList.flatMap escapeChar ++ '"' :: rest) = some (some s, rest) := by
  simp only [readQuoted, readPieces_flatMap, List.reverse_nil, List.nil_append, Option.map_some,
    assemble_map_pieceOf, String.ofList_toList]

/-! ### Integers -/

/-- A text that goes on with nothing that belongs to a number. -/
def EndsNumber (rest : List Char) : Prop :=
  ∀ c ∈ rest.head?, c.isDigit = false ∧ c ∉ ['.', 'e', 'E']

/-- The digits of a natural number. -/
def digitsOf (n : Nat) : List Nat := (Nat.toDigits 10 n).map fun c => c.toNat - '0'.toNat

/-- The written form of an integer. -/
def Numeral.ofInt (n : Int) : Numeral := ⟨n < 0, digitsOf n.natAbs, [], none⟩

theorem isDigit_of_mem_toDigits {n : Nat} {c : Char} (hc : c ∈ Nat.toDigits 10 n) :
    c.isDigit = true :=
  Nat.isDigit_of_mem_toDigits (by decide) (by decide) hc

theorem spanDigits_toDigits (n : Nat) {rest : List Char} (hrest : EndsNumber rest) :
    Text.spanDigits (Nat.toDigits 10 n ++ rest) = (digitsOf n, rest) := by
  have hdigits : ∀ c ∈ Nat.toDigits 10 n, c.isDigit = true := fun _ => isDigit_of_mem_toDigits
  have hstop : rest.takeWhile Char.isDigit = [] ∧ rest.dropWhile Char.isDigit = rest := by
    cases rest with
    | nil => exact ⟨rfl, rfl⟩
    | cons c rest =>
      obtain ⟨hc, -⟩ := hrest c rfl
      simp [hc]
  rw [Text.spanDigits, List.span_eq_takeWhile_dropWhile, List.takeWhile_append_of_pos hdigits,
    List.dropWhile_append_of_pos hdigits, hstop.1, hstop.2, List.append_nil]
  rfl

/-- A number begins with a zero only if it is zero. -/
theorem head_toDigits {n : Nat} (hn : 0 < n) : (Nat.toDigits 10 n).head? ≠ some '0' := by
  induction n using Nat.strongRecOn with
  | _ n ih =>
    rw [Nat.toDigits_eq_if (by decide)]
    split
    · next hlt =>
      interval_cases n <;> decide
    · next hle =>
      rw [List.head?_append, Option.or_of_isSome (List.isSome_head?.2 Nat.toDigits_ne_nil)]
      exact ih (n / 10) (by omega) (by omega)

theorem sub_ne_zero_of_isDigit {c : Char} (hc : c.isDigit = true) (hne : c ≠ '0') :
    c.toNat - '0'.toNat ≠ 0 := by
  intro hzero
  have hle : '0'.toNat ≤ c.toNat := by
    simp only [Char.isDigit, Bool.and_eq_true, decide_eq_true_eq] at hc
    exact UInt32.le_iff_toNat_le.1 hc.1
  have heq : c.toNat = '0'.toNat := Nat.le_antisymm (Nat.sub_eq_zero_iff_le.1 hzero) hle
  exact hne (by rw [← Char.ofNat_toNat c, heq, Char.ofNat_toNat])

theorem digitsOf_cases (n : Nat) : digitsOf n = [0] ∨ ∃ d ds, digitsOf n = d :: ds ∧ d ≠ 0 := by
  rcases Nat.eq_zero_or_pos n with rfl | hn
  · exact .inl rfl
  rcases hdigits : Nat.toDigits 10 n with - | ⟨c, cs⟩
  · exact absurd hdigits Nat.toDigits_ne_nil
  have hc : c.isDigit = true := isDigit_of_mem_toDigits (n := n) (by simp [hdigits])
  have hne : c ≠ '0' := by
    rintro rfl
    exact head_toDigits hn (by rw [hdigits]; rfl)
  refine .inr ⟨_, _, by rw [digitsOf, hdigits]; rfl, sub_ne_zero_of_isDigit hc hne⟩

theorem readFraction_of_endsNumber {rest : List Char} (h : EndsNumber rest) :
    readFraction rest = some ([], rest) := by
  rw [readFraction.eq_def]
  split
  · exact absurd (h '.' rfl).2 (by decide)
  · rfl

theorem readExponent_of_endsNumber {rest : List Char} (h : EndsNumber rest) :
    readExponent rest = some (none, rest) := by
  cases rest with
  | nil => rfl
  | cons c rest =>
    obtain ⟨-, hc⟩ := h c rfl
    simp only [List.mem_cons, List.not_mem_nil, or_false, not_or] at hc
    simp [readExponent, hc]

/-- The digits of a number after its sign, and nothing else. -/
theorem readNumber_digits (negative : Bool) (n : Nat) {rest : List Char} (hrest : EndsNumber rest) :
    readNumber ((if negative then ['-'] else []) ++ (Nat.toDigits 10 n ++ rest)) =
      some (⟨negative, digitsOf n, [], none⟩, rest) := by
  have hspan := spanDigits_toDigits n hrest
  have hfraction := readFraction_of_endsNumber hrest
  have hexponent := readExponent_of_endsNumber hrest
  have hunsigned : ∀ s, Nat.toDigits 10 n ++ rest ≠ '-' :: s := by
    intro s h
    rcases hdigits : Nat.toDigits 10 n with - | ⟨c, cs⟩
    · exact Nat.toDigits_ne_nil hdigits
    · rw [hdigits] at h
      have hc : c.isDigit = true := isDigit_of_mem_toDigits (n := n) (by simp [hdigits])
      rw [(List.cons.inj h).1] at hc
      exact absurd hc (by decide)
  cases negative
  · rw [if_neg Bool.false_ne_true, List.nil_append, readNumber.eq_2 _ hunsigned, hspan]
    rcases digitsOf_cases n with h | ⟨d, ds, h, hd⟩
    · simp [h, hfraction, hexponent]
    · simp [h, hd, hfraction, hexponent]
  · rw [if_pos rfl, List.singleton_append, readNumber.eq_1, hspan]
    rcases digitsOf_cases n with h | ⟨d, ds, h, hd⟩
    · simp [h, hfraction, hexponent]
    · simp [h, hd, hfraction, hexponent]

theorem toList_toString_int (n : Int) : (toString n).toList =
    (if n < 0 then ['-'] else []) ++ Nat.toDigits 10 n.natAbs := by
  have hnat (m : Nat) : m.repr.toList = Nat.toDigits 10 m := by
    rw [← Nat.toString_eq_repr, Nat.toString_eq_ofList_toDigits, String.toList_ofList]
  rw [Int.toString_eq_repr, Int.repr_eq_if]
  split_ifs with hpos hneg hneg
  · omega
  · rw [hnat, List.nil_append, show n.toNat = n.natAbs by omega]
  · rw [String.toList_append, hnat, show (-n).toNat = n.natAbs by omega]
    rfl
  · omega

theorem readNumber_toString (n : Int) {rest : List Char} (hrest : EndsNumber rest) :
    readNumber ((toString n).toList ++ rest) = some (.ofInt n, rest) := by
  have hread := readNumber_digits (decide (n < 0)) n.natAbs hrest
  simp only [decide_eq_true_eq] at hread
  rw [toList_toString_int, List.append_assoc, hread]
  rfl

/-! ### Values -/

mutual
/-- The written form of a value, unless there is a float in it. -/
def Value.written? : Value → Option Written
  | .null => some .null
  | .bool b => some (.bool b)
  | .integer n => some (.number (.ofInt n))
  | .float _ => none
  | .string s => some (.string (some s))
  | .array items => (Value.writtenItems? items).map .array
  | .object fields => (Value.writtenFields? fields).map .object

/-- The written forms of some items. -/
def Value.writtenItems? : List Value → Option (List Written)
  | [] => some []
  | v :: rest => do return (← v.written?) :: (← Value.writtenItems? rest)

/-- The written forms of some fields. -/
def Value.writtenFields? : List (String × Value) → Option (List (Option String × Written))
  | [] => some []
  | (name, v) :: rest => do return (some name, ← v.written?) :: (← Value.writtenFields? rest)
end

theorem writtenItems?_cons {v : Value} {items : List Value} {ws : List Written}
    (h : Value.writtenItems? (v :: items) = some ws) :
    ∃ w rest, v.written? = some w ∧ Value.writtenItems? items = some rest ∧ ws = w :: rest := by
  simp only [Value.writtenItems?, Option.bind_eq_bind, Option.bind_eq_some_iff, Option.pure_def,
    Option.some.injEq] at h
  obtain ⟨w, hw, rest, hrest, rfl⟩ := h
  exact ⟨w, rest, hw, hrest, rfl⟩

theorem writtenFields?_cons {name : String} {v : Value} {fields : List (String × Value)}
    {ws : List (Option String × Written)}
    (h : Value.writtenFields? ((name, v) :: fields) = some ws) :
    ∃ w rest, v.written? = some w ∧ Value.writtenFields? fields = some rest ∧
      ws = (some name, w) :: rest := by
  simp only [Value.writtenFields?, Option.bind_eq_bind, Option.bind_eq_some_iff, Option.pure_def,
    Option.some.injEq] at h
  obtain ⟨w, hw, rest, hrest, rfl⟩ := h
  exact ⟨w, rest, hw, hrest, rfl⟩

theorem toList_quote (s : String) :
    (quote s).toList = '"' :: (s.toList.flatMap escapeChar ++ ['"']) := by
  rw [quote, String.toList_ofList, List.cons_append]

theorem toList_print_array (items : List Value) :
    (Value.array items).print.toList = '[' :: ((Value.printItems items).toList ++ [']']) := by
  rw [Value.print, String.toList_append, String.toList_append]
  rfl

theorem toList_print_object (fields : List (String × Value)) :
    (Value.object fields).print.toList =
      '\x7b' :: ((Value.printFields fields).toList ++ ['\x7d']) := by
  rw [Value.print, String.toList_append, String.toList_append]
  rfl

theorem exists_toString_cons (n : Int) :
    ∃ c cs, (toString n).toList = c :: cs ∧ (c = '-' ∨ c.isDigit = true) := by
  rcases hdigits : Nat.toDigits 10 n.natAbs with - | ⟨c, cs⟩
  · exact absurd hdigits Nat.toDigits_ne_nil
  have hc : c.isDigit = true := isDigit_of_mem_toDigits (n := n.natAbs) (by simp [hdigits])
  rw [toList_toString_int, hdigits]
  split_ifs
  · exact ⟨'-', c :: cs, rfl, .inl rfl⟩
  · exact ⟨c, cs, rfl, .inr hc⟩

theorem isGap_of_numeric {c : Char} (h : c = '-' ∨ c.isDigit = true) :
    isGap c = false ∧ c ≠ ']' := by
  constructor
  · by_contra hgap
    simp only [isGap, Bool.not_eq_false, Bool.or_eq_true, decide_eq_true_eq] at hgap
    rcases hgap with ((rfl | rfl) | rfl) | rfl <;> exact absurd h (by decide)
  · rintro rfl
    exact absurd h (by decide)

/-- The text of a value begins with no blank and does not close an array. -/
theorem exists_print_cons {v : Value} {w : Written} (h : v.written? = some w) :
    ∃ c cs, v.print.toList = c :: cs ∧ isGap c = false ∧ c ≠ ']' := by
  cases v with
  | null => exact ⟨'n', _, rfl, rfl, by decide⟩
  | bool b => cases b <;> exact ⟨_, _, rfl, rfl, by decide⟩
  | integer n =>
    obtain ⟨c, cs, hcons, hc⟩ := exists_toString_cons n
    exact ⟨c, cs, by rw [Value.print, hcons], isGap_of_numeric hc⟩
  | float x => simp [Value.written?] at h
  | string s => exact ⟨'"', _, by rw [Value.print, toList_quote], rfl, by decide⟩
  | array items => exact ⟨'[', _, toList_print_array items, rfl, by decide⟩
  | object fields => exact ⟨'\x7b', _, toList_print_object fields, rfl, by decide⟩

theorem toList_printItems_cons (v next : Value) (items : List Value) :
    (Value.printItems (v :: next :: items)).toList =
      v.print.toList ++ ',' :: (Value.printItems (next :: items)).toList := by
  rw [Value.printItems, String.toList_append, String.toList_append, List.append_assoc]
  rfl

theorem toList_printFields_single (name : String) (v : Value) :
    (Value.printFields [(name, v)]).toList = (quote name).toList ++ ':' :: v.print.toList := by
  rw [Value.printFields, String.toList_append, String.toList_append, List.append_assoc]
  rfl

theorem toList_printFields_cons (name : String) (v : Value) (next : String × Value)
    (fields : List (String × Value)) :
    (Value.printFields ((name, v) :: next :: fields)).toList =
      (quote name).toList ++ ':' :: (v.print.toList ++
        ',' :: (Value.printFields (next :: fields)).toList) := by
  rw [Value.printFields]
  simp only [String.toList_append, List.append_assoc]
  rfl

theorem exists_printItems_cons {v : Value} {items : List Value} {ws : List Written}
    (h : Value.writtenItems? (v :: items) = some ws) :
    ∃ c cs, (Value.printItems (v :: items)).toList = c :: cs ∧ isGap c = false ∧ c ≠ ']' := by
  obtain ⟨w, -, hw, -, -⟩ := writtenItems?_cons h
  obtain ⟨c, cs, hcons, hc⟩ := exists_print_cons hw
  cases items with
  | nil => exact ⟨c, cs, by rw [Value.printItems, hcons], hc⟩
  | cons next items =>
    exact ⟨c, _, by rw [toList_printItems_cons, hcons, List.cons_append], hc⟩

theorem exists_printFields_cons (field : String × Value) (fields : List (String × Value)) :
    ∃ cs, (Value.printFields (field :: fields)).toList = '"' :: cs := by
  obtain ⟨name, v⟩ := field
  cases fields with
  | nil => exact ⟨_, by rw [toList_printFields_single, toList_quote]; rfl⟩
  | cons next fields => exact ⟨_, by rw [toList_printFields_cons, toList_quote]; rfl⟩

theorem skipGap_cons {c : Char} (hc : isGap c = false) (cs : List Char) :
    skipGap (c :: cs) = c :: cs := by
  simp [skipGap, hc]

theorem readWritten_integer (n : Int) (fuel : Nat) {rest : List Char} (hrest : EndsNumber rest) :
    readWritten (fuel + 1) ((toString n).toList ++ rest) = some (.number (.ofInt n), rest) := by
  have hread := readNumber_toString n hrest
  obtain ⟨c, cs, hcons, hc⟩ := exists_toString_cons n
  rw [hcons, List.cons_append] at hread ⊢
  rw [readWritten, skipGap_cons (isGap_of_numeric hc).1]
  split
  case h_7 => rw [hread]; rfl
  all_goals
    next h =>
      rw [(List.cons.inj h).1] at hc
      exact absurd hc (by decide)

theorem readWritten_string (s : String) (fuel : Nat) (rest : List Char) :
    readWritten (fuel + 1) ((quote s).toList ++ rest) = some (.string (some s), rest) := by
  have hread := readQuoted_escape s rest
  rw [toList_quote, List.cons_append, List.append_assoc, List.singleton_append, readWritten,
    skipGap_cons rfl]
  simp [hread]

/-- An array that is not empty. -/
theorem readWritten_array {fuel : Nat} {c : Char} {cs rest : List Char} {ws : List Written}
    (hgap : isGap c = false) (hc : c ≠ ']') (h : readItems fuel (c :: cs) = some (ws, rest)) :
    readWritten (fuel + 1) ('[' :: c :: cs) = some (.array ws, rest) := by
  rw [readWritten, skipGap_cons rfl]
  simp only [skipGap_cons hgap]
  split
  · next hclose => exact absurd (List.cons.inj hclose).1 hc
  · rw [h]; rfl

/-- An object that is not empty. -/
theorem readWritten_object {fuel : Nat} {cs rest : List Char}
    {ws : List (Option String × Written)} (h : readFields fuel ('"' :: cs) = some (ws, rest)) :
    readWritten (fuel + 1) ('\x7b' :: '"' :: cs) = some (.object ws, rest) := by
  rw [readWritten, skipGap_cons rfl]
  simp only [skipGap_cons (show isGap '"' = false from rfl)]
  split
  · next hclose => exact absurd (List.cons.inj hclose).1 (by decide)
  · rw [h]; rfl

/-- The last item of an array. -/
theorem readItems_last {fuel : Nat} {s rest : List Char} {w : Written}
    (h : readWritten fuel s = some (w, ']' :: rest)) :
    readItems (fuel + 1) s = some ([w], rest) := by
  simp [readItems, h, skipGap, isGap]

/-- An item of an array that others follow. -/
theorem readItems_cons {fuel : Nat} {s next rest : List Char} {w : Written} {ws : List Written}
    (h : readWritten fuel s = some (w, ',' :: next)) (hnext : readItems fuel next = some (ws, rest)) :
    readItems (fuel + 1) s = some (w :: ws, rest) := by
  simp [readItems, h, hnext, skipGap, isGap]

theorem readFields_last {fuel : Nat} {name : String} {s rest : List Char} {w : Written}
    (h : readWritten fuel s = some (w, '\x7d' :: rest)) :
    readFields (fuel + 1) ((quote name).toList ++ ':' :: s) = some ([(some name, w)], rest) := by
  have hname := readQuoted_escape name (':' :: s)
  rw [toList_quote, List.cons_append, List.append_assoc, List.singleton_append]
  simp [readFields, h, hname, skipGap, isGap]

theorem readFields_cons {fuel : Nat} {name : String} {s next rest : List Char} {w : Written}
    {ws : List (Option String × Written)} (h : readWritten fuel s = some (w, ',' :: next))
    (hnext : readFields fuel next = some (ws, rest)) :
    readFields (fuel + 1) ((quote name).toList ++ ':' :: s) =
      some ((some name, w) :: ws, rest) := by
  have hname := readQuoted_escape name (':' :: s)
  rw [toList_quote, List.cons_append, List.append_assoc, List.singleton_append]
  simp [readFields, h, hnext, hname, skipGap, isGap]

theorem endsNumber_cons {c : Char} (hdigit : c.isDigit = false) (hc : c ∉ ['.', 'e', 'E'])
    (rest : List Char) : EndsNumber (c :: rest) := by
  intro d hd
  obtain rfl : c = d := by simpa using hd
  exact ⟨hdigit, hc⟩

theorem exists_succ_of_lt {m n : Nat} (h : m < n) : ∃ k, n = k + 1 :=
  Nat.exists_eq_add_one.2 (Nat.zero_lt_of_lt h)

/-- The text of a value is read to its written form, whatever follows it. The bound on the parts
    that are read need only be greater than the length of the text. -/
def ReadsBack (v : Value) : Prop :=
  ∀ w, v.written? = some w → ∀ fuel rest, v.print.toList.length < fuel → EndsNumber rest →
    readWritten fuel (v.print.toList ++ rest) = some (w, rest)

/-- The texts of the items of an array, up to its bracket. -/
theorem readItems_print {v : Value} {items : List Value} (hback : ∀ u ∈ v :: items, ReadsBack u)
    {ws : List Written} (h : Value.writtenItems? (v :: items) = some ws) {fuel : Nat}
    (hfuel : (Value.printItems (v :: items)).toList.length + 1 < fuel) (rest : List Char) :
    readItems fuel ((Value.printItems (v :: items)).toList ++ ']' :: rest) = some (ws, rest) := by
  induction items generalizing v ws fuel with
  | nil =>
    obtain ⟨fuel, rfl⟩ := exists_succ_of_lt hfuel
    obtain ⟨w, _, hw, hnil, rfl⟩ := writtenItems?_cons h
    cases hnil
    have hv : ReadsBack v := hback v List.mem_cons_self
    rw [Value.printItems] at hfuel ⊢
    exact readItems_last (hv w hw _ _ (by omega) (endsNumber_cons (by decide) (by decide) rest))
  | cons next items ih =>
    obtain ⟨fuel, rfl⟩ := exists_succ_of_lt hfuel
    obtain ⟨w, ws, hw, hws, rfl⟩ := writtenItems?_cons h
    obtain ⟨hv, hrest⟩ := List.forall_mem_cons.1 hback
    rw [toList_printItems_cons] at hfuel ⊢
    simp only [List.length_append, List.length_cons] at hfuel
    rw [List.append_assoc, List.cons_append]
    exact readItems_cons
      (hv w hw _ _ (by omega) (endsNumber_cons (by decide) (by decide) _))
      (ih hrest hws (by omega))

/-- The texts of the fields of an object, up to its brace. -/
theorem readFields_print {name : String} {v : Value} {fields : List (String × Value)}
    (hback : ∀ field ∈ (name, v) :: fields, ReadsBack field.2)
    {ws : List (Option String × Written)}
    (h : Value.writtenFields? ((name, v) :: fields) = some ws) {fuel : Nat}
    (hfuel : (Value.printFields ((name, v) :: fields)).toList.length + 1 < fuel)
    (rest : List Char) :
    readFields fuel ((Value.printFields ((name, v) :: fields)).toList ++ '\x7d' :: rest) =
      some (ws, rest) := by
  induction fields generalizing name v ws fuel with
  | nil =>
    obtain ⟨fuel, rfl⟩ := exists_succ_of_lt hfuel
    obtain ⟨w, _, hw, hnil, rfl⟩ := writtenFields?_cons h
    cases hnil
    have hv : ReadsBack v := hback (name, v) List.mem_cons_self
    rw [toList_printFields_single] at hfuel ⊢
    simp only [List.length_append, List.length_cons] at hfuel
    rw [List.append_assoc, List.cons_append]
    exact readFields_last (hv w hw _ _ (by omega) (endsNumber_cons (by decide) (by decide) rest))
  | cons next fields ih =>
    obtain ⟨nextName, u⟩ := next
    obtain ⟨fuel, rfl⟩ := exists_succ_of_lt hfuel
    obtain ⟨w, ws, hw, hws, rfl⟩ := writtenFields?_cons h
    have hv : ReadsBack v := hback (name, v) List.mem_cons_self
    rw [toList_printFields_cons] at hfuel ⊢
    simp only [List.length_append, List.length_cons] at hfuel
    rw [List.append_assoc, List.cons_append, List.append_assoc, List.cons_append]
    exact readFields_cons
      (hv w hw _ _ (by omega) (endsNumber_cons (by decide) (by decide) _))
      (ih (List.forall_mem_cons.1 hback).2 hws (by omega))

theorem readsBack : ∀ v : Value, ReadsBack v
  | .null | .bool true | .bool false | .array [] | .object [] => by
    intro w h fuel rest hfuel _
    obtain ⟨fuel, rfl⟩ := exists_succ_of_lt hfuel
    cases h
    rfl
  | .float x => by
    intro w h
    simp [Value.written?] at h
  | .integer n => by
    intro w h fuel rest hfuel hrest
    obtain ⟨fuel, rfl⟩ := exists_succ_of_lt hfuel
    cases h
    exact readWritten_integer n fuel hrest
  | .string s => by
    intro w h fuel rest hfuel _
    obtain ⟨fuel, rfl⟩ := exists_succ_of_lt hfuel
    cases h
    exact readWritten_string s fuel rest
  | .array (v :: items) => by
    intro w h fuel rest hfuel _
    obtain ⟨fuel, rfl⟩ := exists_succ_of_lt hfuel
    obtain ⟨ws, hws, rfl⟩ := Option.map_eq_some_iff.1 h
    obtain ⟨c, cs, hcons, hgap, hc⟩ := exists_printItems_cons hws
    rw [toList_print_array] at hfuel ⊢
    simp only [List.length_cons, List.length_append, List.length_nil] at hfuel
    have hback : ∀ u ∈ v :: items, ReadsBack u := fun u _ => readsBack u
    have hread := readItems_print hback hws (show _ + 1 < fuel by omega) rest
    rw [hcons] at hread ⊢
    simp only [List.cons_append, List.append_assoc, List.nil_append] at hread ⊢
    exact readWritten_array hgap hc hread
  | .object ((name, v) :: fields) => by
    intro w h fuel rest hfuel _
    obtain ⟨fuel, rfl⟩ := exists_succ_of_lt hfuel
    obtain ⟨ws, hws, rfl⟩ := Option.map_eq_some_iff.1 h
    obtain ⟨cs, hcons⟩ := exists_printFields_cons (name, v) fields
    rw [toList_print_object] at hfuel ⊢
    simp only [List.length_cons, List.length_append, List.length_nil] at hfuel
    have hback : ∀ field ∈ (name, v) :: fields, ReadsBack field.2 := fun field _ =>
      readsBack field.2
    have hread := readFields_print hback hws (show _ + 1 < fuel by omega) rest
    rw [hcons] at hread ⊢
    simp only [List.cons_append, List.append_assoc, List.nil_append] at hread ⊢
    exact readWritten_object hread
termination_by v => sizeOf v
decreasing_by
  · have hitem := List.sizeOf_lt_of_mem ‹_ ∈ v :: items›
    simp only [Value.array.sizeOf_spec]
    omega
  · have hfield := List.sizeOf_lt_of_mem ‹field ∈ (name, v) :: fields›
    have hvalue : sizeOf field.2 < sizeOf field := by
      cases field
      simp only [Prod.mk.sizeOf_spec]
      omega
    simp only [Value.object.sizeOf_spec]
    omega

/-- The compact text of a value is a whole document, of the written form of the value. -/
theorem read_print {v : Value} {w : Written} (h : v.written? = some w) :
    Written.read v.print = some w := by
  have hends : EndsNumber [] := by
    intro c hc
    simp at hc
  have hread := readsBack v w h _ [] (Nat.lt_succ_self _) hends
  rw [List.append_nil] at hread
  simp [Written.read, Written.readFront, hread, skipGap]

end LintRun.Json
