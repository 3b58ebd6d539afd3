import LintRun.LintOptions
import LintRun.Proofs.Json.WellFormed

/-! Options for the linter, set one after the other and handed over as JSON text.

    Options are read back from their text as they were, and so are their flags from a text of their
    own. Both texts have the same limit: options stand two levels above the values of their flags, a
    text of flags one (`read_print_eq`, `read_flagsJson_eq`). Flags are their text: two sequences of
    flags have the same text only if they end in the same flags, in whatever order these were set
    (`setAll_survives`). -/

namespace LintRun.LintOptions

open Json

variable {variant : Variant} {pairs : List (String × Value)} {o : LintOptions}

/-! ### Setting flags -/

theorem setAll_nil (variant : Variant) (pairs : List (String × Value)) :
    setAll ⟨variant, []⟩ pairs = ⟨variant, .ofAssignments pairs⟩ := by
  induction pairs using List.reverseRecOn with
  | nil => rfl
  | append_singleton pairs f ih =>
    rw [setAll] at ih
    rw [setAll, List.foldl_append, ih, Fields.ofAssignments_concat]
    rfl

/-- Flags that can be held and that have no float. -/
structure Plain (o : LintOptions) : Prop where
  wellFormed : (Value.object o.flags).WellFormed
  floatFree : (Value.object o.flags).FloatFree

theorem plain_setAll (h : ∀ pair ∈ pairs, pair.2.WellFormed ∧ pair.2.FloatFree) :
    (setAll ⟨variant, []⟩ pairs).Plain := by
  rw [setAll_nil]
  have hflags : ∀ f ∈ Fields.ofAssignments pairs, f.2.WellFormed ∧ f.2.FloatFree :=
    fun f hf => h f (Fields.mem_ofAssignments hf)
  exact ⟨.object (Fields.sorted_ofAssignments pairs) fun f hf => (hflags f hf).1,
    .object fun f hf => (hflags f hf).2⟩

/-! ### Reading what was printed -/

theorem ofWritten_object (variant : Variant) (w : Written) :
    ofWritten (.object [(some "variant", .string (some variant.name)), (some "options", w)]) =
      (flagsOf (some w)).map fun flags => ⟨variant, flags⟩ := by
  have hvariant : variantOf (some (.string (some variant.name))) = some variant := by
    simp [variantOf, Written.text?, Variant.ofName_name, Except.toOption]
  cases hflags : flagsOf (some w) <;>
    simp [ofWritten, Written.record, hvariant, hflags]

/-- Options are read back from their text unless a flag is nested too deep. -/
theorem read_print_eq (ho : o.Plain) :
    read o.print = if (Value.object o.flags).depth + 1 ≤ maxDepth then some o else none := by
  obtain ⟨w, hw⟩ := exists_writesAs ho.wellFormed ho.floatFree
  have hwritten : (Value.object
      [("variant", .string o.variant.name), ("options", .object o.flags)]).written? =
        some (.object [(some "variant", .string (some o.variant.name)), (some "options", w)]) := by
    rw [Value.written?, Value.writtenFields?, Value.writtenFields?, hw.written]
    rfl
  have hflags : flagsOf (some w) =
      if (Value.object o.flags).depth + 1 ≤ maxDepth then some o.flags else none := by
    have hlevels : (Value.object o.flags).depth ≤ maxDepth - 1 ↔
        (Value.object o.flags).depth + 1 ≤ maxDepth := by
      simp only [maxDepth]
      omega
    rw [flagsOf, hw.toValue]
    by_cases h : (Value.object o.flags).depth + 1 ≤ maxDepth
    · rw [if_pos h, if_pos (hlevels.2 h)]
    · rw [if_neg h, if_neg (mt hlevels.1 h)]
  rw [read, print, Json.read_print hwritten, Option.bind_eq_bind, Option.bind_some,
    ofWritten_object, hflags]
  split_ifs <;> rfl

theorem read_flagsJson_eq (ho : o.Plain) :
    Value.read o.flagsJson =
      if (Value.object o.flags).depth ≤ maxDepth then some (.object o.flags) else none :=
  Json.read_print_eq ho.wellFormed ho.floatFree

/-- Where `k` levels stand above some flags, one more stands above each of their values. -/
theorem depth_flags_add_le_iff {k n : Nat} (h : k < n) :
    (Value.object o.flags).depth + k ≤ n ↔ ∀ flag ∈ o.flags, flag.2.depth + (k + 1) ≤ n := by
  have hlevels : k + 1 ≤ n := h
  rw [Value.depth, Nat.add_assoc, Nat.add_comm 1 k, ← Nat.le_sub_iff_add_le hlevels,
    Value.depthFields_le_iff]
  simp only [Nat.le_sub_iff_add_le hlevels]

theorem read_print_eq_some_iff (ho : o.Plain) :
    read o.print = some o ↔ ∀ flag ∈ o.flags, flag.2.depth + 2 ≤ maxDepth := by
  rw [read_print_eq ho, Option.ite_none_right_eq_some, and_iff_left rfl]
  exact depth_flags_add_le_iff (by decide)

theorem read_flagsJson_eq_some_iff (ho : o.Plain) :
    Value.read o.flagsJson = some (.object o.flags) ↔
      ∀ flag ∈ o.flags, flag.2.depth + 1 ≤ maxDepth := by
  rw [read_flagsJson_eq ho, Option.ite_none_right_eq_some, and_iff_left rfl]
  exact depth_flags_add_le_iff (k := 0) (by decide)

/-! ### Flags are their text -/

theorem flagsJson_eq_iff {o' : LintOptions} (ho : o.Plain) (ho' : o'.Plain) :
    o.flagsJson = o'.flagsJson ↔ o.flags = o'.flags := by
  constructor
  · intro h
    exact Value.object.inj
      (print_injective ho.wellFormed ho.floatFree ho'.wellFormed ho'.floatFree h)
  · intro h
    rw [flagsJson, flagsJson, h]

/-- Flags that are set one after the other, to values without floats. Each name has the last value
    that was set under it. The options are read back from their text, and their flags from a text
    of their own, where no value is nested too deep for a reader. Two such texts of flags are equal
    only if the flags are, so the order in which names were set does not count. -/
theorem setAll_survives (variant : Variant) (pairs : List (String × Value))
    (hpairs : ∀ pair ∈ pairs, pair.2.WellFormed ∧ pair.2.FloatFree) :
    let o := setAll ⟨variant, []⟩ pairs
    o.flags ⊆ pairs ∧ (∀ name, o.flags.get? name = pairs.reverse.lookup name) ∧
    (read o.print = some o ↔ ∀ flag ∈ o.flags, flag.2.depth + 2 ≤ maxDepth) ∧
    (Value.read o.flagsJson = some (.object o.flags) ↔
      ∀ flag ∈ o.flags, flag.2.depth + 1 ≤ maxDepth) ∧
    ∀ (variant' : Variant) (pairs' : List (String × Value)),
      (∀ pair ∈ pairs', pair.2.WellFormed ∧ pair.2.FloatFree) →
      let o' := setAll ⟨variant', []⟩ pairs'
      (o.flagsJson = o'.flagsJson ↔ o.flags = o'.flags) ∧
      (o.flags = o'.flags ↔ ∀ name, pairs.reverse.lookup name = pairs'.reverse.lookup name) ∧
      (pairs.Perm pairs' → (pairs.map (·.1)).Nodup → o.flagsJson = o'.flagsJson) := by
  intro o
  have ho : o.Plain := plain_setAll hpairs
  have hflags : o.flags = .ofAssignments pairs := congrArg LintOptions.flags (setAll_nil _ _)
  refine ⟨?_, ?_, read_print_eq_some_iff ho, read_flagsJson_eq_some_iff ho, ?_⟩
  · intro flag hflag
    exact Fields.mem_ofAssignments (hflags ▸ hflag)
  · intro name
    rw [hflags, Fields.get?_ofAssignments]
  · intro variant' pairs' hpairs' o'
    have htexts : o.flagsJson = o'.flagsJson ↔ o.flags = o'.flags :=
      flagsJson_eq_iff ho (plain_setAll hpairs')
    have hflags' : o'.flags = .ofAssignments pairs' := congrArg LintOptions.flags (setAll_nil _ _)
    refine ⟨htexts, ?_, fun hperm hnodup => htexts.2 ?_⟩
    · rw [hflags, hflags', Fields.ofAssignments_eq_iff]
    · rw [hflags, hflags', Fields.ofAssignments_perm hperm hnodup]

/-- The smallest and the largest integer, names that are empty or must be escaped, and a name that
    is set twice; then the flags that remain, set in two other orders. -/
theorem setAll_survives_reordered :
    let nested : Value := .object [("", .string "\x00\u2028"), ("a", .array [.null, .array []])]
    let numbers : Value := .array [.integer (-9223372036854775808), .integer 18446744073709551615]
    let pairs := [("z", numbers), ("", .bool false), ("\"\\\n😀", nested), ("z", .string "last")]
    let kept := [("z", .string "last"), ("\"\\\n😀", nested), ("", .bool false)]
    let o := setAll ⟨.jshint, []⟩ pairs
    read o.print = some o ∧ Value.read o.flagsJson = some (.object o.flags) ∧
      o.flags.get? "z" = some (.string "last") ∧
      o.flagsJson = (setAll ⟨.jslint, []⟩ kept).flagsJson ∧
      (setAll ⟨.jslint, []⟩ kept).flagsJson = (setAll ⟨.jshint, []⟩ kept.reverse).flagsJson := by
  intro nested numbers pairs kept o
  have hnumbers : numbers.WellFormed ∧ numbers.FloatFree := by
    constructor
    · exact .array (by simpa using ⟨.integer (by decide), .integer (by decide)⟩)
    · exact .array (by simpa using ⟨.integer _, .integer _⟩)
  have hnested : nested.WellFormed ∧ nested.FloatFree := by
    constructor
    · exact .object (List.pairwise_pair.2 (by decide))
        (by simpa using ⟨.string _, .array (by simpa using ⟨.null, .array (by simp)⟩)⟩)
    · exact .object (by simpa using ⟨.string _, .array (by simpa using ⟨.null, .array (by simp)⟩)⟩)
  have hfalse : (Value.bool false).WellFormed ∧ (Value.bool false).FloatFree := ⟨.bool _, .bool _⟩
  have hlast : (Value.string "last").WellFormed ∧ (Value.string "last").FloatFree :=
    ⟨.string _, .string _⟩
  have hpairs : ∀ pair ∈ pairs, pair.2.WellFormed ∧ pair.2.FloatFree := by
    simp [pairs, hnumbers, hnested, hfalse, hlast]
  have hkept : ∀ pair ∈ kept, pair.2.WellFormed ∧ pair.2.FloatFree := by
    simp [kept, hnested, hfalse, hlast]
  obtain ⟨hsubset, hget, hread, hreadFlags, hsame⟩ := setAll_survives .jshint pairs hpairs
  have hdepth : ∀ pair ∈ pairs, pair.2.depth + 2 ≤ maxDepth := by
    simp [pairs, numbers, nested, Value.depth, Value.depthItems, Value.depthFields, maxDepth]
  obtain ⟨htexts, -, -⟩ := hsame .jslint kept hkept
  obtain ⟨-, -, -, -, hreverse⟩ := setAll_survives .jslint kept hkept
  refine ⟨hread.2 fun flag hflag => hdepth flag (hsubset hflag),
    hreadFlags.2 fun flag hflag => ?_, (hget "z").trans (by simp [pairs]),
    htexts.2 rfl,
    (hreverse .jshint kept.reverse ?_).2.2 (List.reverse_perm kept).symm (by simp [kept])⟩
  · have hle : flag.2.depth + 2 ≤ maxDepth := hdepth flag (hsubset hflag)
    omega
  · exact fun pair hpair => hkept pair (List.mem_reverse.1 hpair)

end LintRun.LintOptions
