import LintRun.Proofs.Path.Order
import LintRun.Proofs.Sources.Collected
import Mathlib.Data.List.Forall2

/-! What inputs stand for, input by input.

    An input is a file, is read as a pattern, or is nothing at all. `StandsFor` says which files it
    gives and `Refused` why it gives none; every input has the one or the other
    (`ofInput_eq_ok_iff`, `ofInput_eq_error_iff`). Inputs are refused as the first one of them that
    is (`mapM_eq_error_iff`). Otherwise they give what each of them stands for, one after the other,
    and of paths that are the same only the first (`collect_expands`). -/

namespace LintRun.Sources

variable {t : FileTree} {kinds : Include} {input : Path} {inputs paths found : List Path}
  {pattern : String} {e : SourcesError}

/-! ### One input -/

/-- The extension of a path stands for a kind that is enabled. -/
def Enabled (kinds : Include) (path : Path) : Prop :=
  match SourceKind.ofPath path with
  | none => False
  | some .javaScript => kinds.js = true
  | some .css => kinds.css = true
  | some .html => kinds.html = true

theorem isIncluded_iff {path : Path} : isIncluded kinds path = true ↔ Enabled kinds path := by
  rw [isIncluded, Enabled]
  rcases SourceKind.ofPath path with - | kind
  · simp
  · cases kind <;> exact Iff.rfl

instance (kinds : Include) (path : Path) : Decidable (Enabled kinds path) :=
  decidable_of_iff _ isIncluded_iff

/-- The pattern that an input is read as if it is no file. -/
inductive ReadAs (t : FileTree) (input : Path) : String → Prop where
  | directory (hfile : t.isFile input = false) (hdir : t.isDirectory input = true) :
      ReadAs t input (everythingBelow input).text
  | pattern (hfile : t.isFile input = false) (hdir : t.isDirectory input = false)
      (hspecial : isPattern input.text = true) : ReadAs t input input.text

/-- Why an input gives no files. -/
inductive Refused (t : FileTree) (input : Path) : SourcesError → Prop where
  | missing (hfile : t.isFile input = false) (hdir : t.isDirectory input = false)
      (hplain : isPattern input.text = false) : Refused t input (.notFound input)
  | malformed {pattern : String} {cause : Glob.PatternError} (hread : ReadAs t input pattern)
      (hbad : Glob.Plan.ofText pattern = .error cause) :
      Refused t input (.invalidPattern pattern cause)

/-- The files that an input stands for. -/
inductive StandsFor (t : FileTree) (kinds : Include) (input : Path) : List Path → Prop where
  | named (hfile : t.isFile input = true) : StandsFor t kinds input [input]
  | expanded {pattern : String} {paths found : List Path} (hread : ReadAs t input pattern)
      (hpaths : Glob.expand t pattern = .ok paths)
      (hsorted : Path.Sorted (paths.filter fun p => t.isFile p ∧ Enabled kinds p) found) :
      StandsFor t kinds input found

theorem ofInput_of_readAs (h : ReadAs t input pattern) :
    ofInput t kinds input = ofPattern t kinds pattern := by
  cases h with
  | directory hfile hdir => simp [ofInput, hfile, hdir]
  | pattern hfile hdir hspecial => simp [ofInput, hfile, hdir, hspecial]

theorem ReadAs.isFile_eq_false (h : ReadAs t input pattern) : t.isFile input = false := by
  cases h <;> assumption

/-- An input is a file, or it is read as a pattern, or it is nothing. -/
theorem input_cases (t : FileTree) (input : Path) :
    t.isFile input = true ∨ (∃ pattern, ReadAs t input pattern) ∨
      t.isFile input = false ∧ t.isDirectory input = false ∧ isPattern input.text = false := by
  cases hfile : t.isFile input with
  | true => exact .inl rfl
  | false =>
    refine .inr ?_
    cases hdir : t.isDirectory input with
    | true => exact .inl ⟨_, .directory hfile hdir⟩
    | false =>
      cases hspecial : isPattern input.text with
      | true => exact .inl ⟨_, .pattern hfile hdir hspecial⟩
      | false => exact .inr ⟨rfl, rfl, rfl⟩

theorem ofPattern_eq_error_iff : ofPattern t kinds pattern = .error e ↔
    ∃ cause, Glob.Plan.ofText pattern = .error cause ∧ e = .invalidPattern pattern cause := by
  cases hplan : Glob.Plan.ofText pattern with
  | error cause => simp [ofPattern, Glob.expand, hplan, bind, Except.bind, eq_comm]
  | ok plan => simp [ofPattern, Glob.expand, hplan, bind, Except.bind, pure, Except.pure]

theorem ofPattern_eq_ok_iff : ofPattern t kinds pattern = .ok found ↔
    ∃ paths, Glob.expand t pattern = .ok paths ∧
      Path.Sorted (paths.filter fun p => t.isFile p ∧ Enabled kinds p) found := by
  simp only [← isIncluded_iff, ← Bool.and_eq_true, Bool.decide_eq_true]
  rw [ofPattern]
  cases hexpand : Glob.expand t pattern with
  | error cause => simp
  | ok paths =>
    have hsorted := Path.sorted_mergeSort (paths.filter fun p => t.isFile p && isIncluded kinds p)
    simp only [Except.ok.injEq, exists_eq_left']
    exact ⟨fun h => h ▸ hsorted, hsorted.unique⟩

theorem ofInput_eq_error_iff : ofInput t kinds input = .error e ↔ Refused t input e := by
  constructor
  · intro h
    rcases input_cases t input with hfile | ⟨pattern, hread⟩ | ⟨hfile, hdir, hplain⟩
    · simp [ofInput, hfile] at h
    · rw [ofInput_of_readAs hread, ofPattern_eq_error_iff] at h
      obtain ⟨cause, hbad, rfl⟩ := h
      exact .malformed hread hbad
    · simp only [ofInput, hfile, hdir, hplain, Bool.false_eq_true, if_false,
        Except.error.injEq] at h
      exact h ▸ .missing hfile hdir hplain
  · rintro (⟨hfile, hdir, hplain⟩ | ⟨hread, hbad⟩)
    · simp [ofInput, hfile, hdir, hplain]
    · rw [ofInput_of_readAs hread, ofPattern_eq_error_iff]
      exact ⟨_, hbad, rfl⟩

theorem ofInput_eq_ok_iff : ofInput t kinds input = .ok found ↔ StandsFor t kinds input found := by
  constructor
  · intro h
    rcases input_cases t input with hfile | ⟨pattern, hread⟩ | ⟨hfile, hdir, hplain⟩
    · simp only [ofInput, hfile, if_true, Except.ok.injEq] at h
      exact h ▸ .named hfile
    · rw [ofInput_of_readAs hread, ofPattern_eq_ok_iff] at h
      obtain ⟨paths, hpaths, hsorted⟩ := h
      exact .expanded hread hpaths hsorted
    · simp [ofInput, hfile, hdir, hplain] at h
  · rintro (hfile | ⟨hread, hpaths, hsorted⟩)
    · simp [ofInput, hfile]
    · rw [ofInput_of_readAs hread, ofPattern_eq_ok_iff]
      exact ⟨_, hpaths, hsorted⟩

/-! ### All inputs -/

section
variable {α β ε : Type} {f : α → Except ε β} {l : List α}

theorem mapM_eq_ok_iff {bs : List β} :
    l.mapM f = .ok bs ↔ List.Forall₂ (fun a b => f a = .ok b) l bs := by
  induction l generalizing bs with
  | nil => simp [pure, Except.pure, eq_comm]
  | cons a l ih =>
    rw [List.mapM_cons, List.forall₂_cons_left_iff]
    cases ha : f a with
    | error e => simp [bind, Except.bind]
    | ok b =>
      simp only [← ih]
      cases hl : l.mapM f with
      | error e => simp [bind, Except.bind]
      | ok rest => simp [bind, Except.bind, pure, Except.pure, eq_comm]

/-- What goes wrong is what goes wrong first. -/
theorem mapM_eq_error_iff {e : ε} :
    l.mapM f = .error e ↔ ∃ before a after, l = before ++ a :: after ∧
      (∀ b ∈ before, ∃ c, f b = .ok c) ∧ f a = .error e := by
  induction l with
  | nil => simp [pure, Except.pure]
  | cons a l ih =>
    rw [List.mapM_cons]
    constructor
    · intro h
      cases ha : f a with
      | error e' =>
        rw [ha] at h
        cases h
        exact ⟨[], a, l, rfl, by simp, ha⟩
      | ok b =>
        cases hl : l.mapM f with
        | ok rest => rw [ha, hl] at h; cases h
        | error e' =>
          rw [ha, hl] at h
          cases h
          obtain ⟨before, c, after, rfl, hbefore, hc⟩ := ih.1 hl
          exact ⟨a :: before, c, after, rfl, List.forall_mem_cons.2 ⟨⟨b, ha⟩, hbefore⟩, hc⟩
    · rintro ⟨- | ⟨b, before⟩, c, after, hsplit, hbefore, hc⟩
      · obtain ⟨rfl, rfl⟩ := List.cons.inj hsplit
        rw [hc]
        rfl
      · obtain ⟨rfl, rfl⟩ := List.cons.inj hsplit
        obtain ⟨⟨b, ha⟩, hbefore⟩ := List.forall_mem_cons.1 hbefore
        rw [ha, ih.2 ⟨before, c, after, rfl, hbefore, hc⟩]
        rfl

/-- In two lists that are related member by member, each member of the one has one of the other. -/
theorem exists_of_forall₂ {R : α → β → Prop} {bs : List β} (h : List.Forall₂ R l bs) {a : α}
    (ha : a ∈ l) : ∃ b ∈ bs, R a b := by
  induction h with
  | nil => cases ha
  | cons hab _ ih =>
    rcases List.mem_cons.1 ha with rfl | ha
    · exact ⟨_, List.mem_cons_self, hab⟩
    · obtain ⟨b, hb, hab⟩ := ih ha
      exact ⟨b, List.mem_cons_of_mem _ hb, hab⟩

end

/-- The paths that are not the same as any path before them. -/
def firsts (paths : List Path) : List Path :=
  (paths.zipIdx.filter fun (p, i) => (paths.take i).all fun q => !decide (q.Same p)).map (·.1)

theorem distinct_eq_firsts (paths : List Path) : distinct paths = firsts paths := by
  induction paths with
  | nil => rfl
  | cons p paths ih =>
    rw [distinct, ih, firsts, firsts, List.zipIdx_cons', List.filter_cons_of_pos (by simp),
      List.map_cons, List.filter_map, List.filter_map, List.filter_filter, List.map_map]
    rfl

/-- One spelling is the same path as another one, with a dot at the beginning it is not. -/
example : firsts [⟨"a//b"⟩, ⟨"c"⟩, ⟨"a/./b"⟩, ⟨"./c"⟩] = [⟨"a//b"⟩, ⟨"c"⟩, ⟨"./c"⟩] := by decide

theorem sublist_firsts (paths : List Path) : (firsts paths).Sublist paths := by
  have h : (firsts paths).Sublist (paths.zipIdx.map Prod.fst) := List.filter_sublist.map _
  rwa [List.zipIdx_map_fst] at h

/-- Every path is kept under its first spelling. -/
theorem exists_same_mem_distinct {p : Path} (h : p ∈ paths) : ∃ q ∈ distinct paths, q.Same p := by
  induction paths with
  | nil => cases h
  | cons first paths ih =>
    rw [distinct]
    rcases List.mem_cons.1 h with rfl | h
    · exact ⟨p, List.mem_cons_self, rfl⟩
    obtain ⟨q, hq, hsame⟩ := ih h
    by_cases hfirst : first.Same q
    · exact ⟨first, List.mem_cons_self, hfirst.trans hsame⟩
    · exact ⟨q, List.mem_cons_of_mem _ (List.mem_filter.2 ⟨hq, by simpa using hfirst⟩), hsame⟩

/-- What an input stands for are files, and it is itself a file or they are of an enabled kind. -/
theorem StandsFor.mem {p : Path} (h : StandsFor t kinds input found) (hp : p ∈ found) :
    t.isFile p = true ∧ (p = input ∨ Enabled kinds p) := by
  rcases h with hfile | ⟨-, -, hsorted⟩
  · obtain rfl := List.mem_singleton.1 hp
    exact ⟨hfile, .inl rfl⟩
  · rw [hsorted.perm.mem_iff, List.mem_filter, decide_eq_true_iff] at hp
    exact ⟨hp.2.1, .inr hp.2.2⟩

/-- The files that inputs stand for, without those that are the same as an earlier one. -/
structure Listed (t : FileTree) (kinds : Include) (inputs all found : List Path) : Prop where
  /-- What is kept stays in its order. -/
  order : found.Sublist all
  /-- No two paths are the same. -/
  apart : found.Pairwise fun p q => ¬ p.Same q
  /-- No path is lost but for one that is the same. -/
  complete : ∀ p ∈ all, ∃ q ∈ found, q.Same p
  /-- A file that is named is there. -/
  named : ∀ input ∈ inputs, t.isFile input = true → ∃ q ∈ found, q.Same input
  /-- All are files. Those that are not named are of an enabled kind. -/
  kind : ∀ p ∈ found, t.isFile p = true ∧ (p ∈ inputs ∨ Enabled kinds p)

theorem listed_firsts {lists : List (List Path)}
    (h : List.Forall₂ (StandsFor t kinds) inputs lists) :
    Listed t kinds inputs lists.flatten (firsts lists.flatten) := by
  have hcomplete : ∀ p ∈ lists.flatten, ∃ q ∈ firsts lists.flatten, q.Same p := by
    intro p hp
    rw [← distinct_eq_firsts]
    exact exists_same_mem_distinct hp
  refine ⟨sublist_firsts _, ?_, hcomplete, fun input hinput hfile => hcomplete input ?_, ?_⟩
  · rw [← distinct_eq_firsts]
    exact pairwise_distinct _
  · obtain ⟨paths, hpaths, hstands⟩ := exists_of_forall₂ h hinput
    cases hstands with
    | named => exact List.mem_flatten_of_mem hpaths List.mem_cons_self
    | expanded hread =>
      have hnone := hread.isFile_eq_false
      rw [hfile] at hnone
      cases hnone
  · intro p hp
    obtain ⟨paths, hpaths, hp⟩ := List.mem_flatten.1 ((sublist_firsts _).subset hp)
    obtain ⟨input, hinput, hstands⟩ := exists_of_forall₂ h.flip hpaths
    obtain ⟨hfile, hkind⟩ := StandsFor.mem hstands hp
    refine ⟨hfile, hkind.imp_left ?_⟩
    rintro rfl
    exact hinput

theorem collect_eq_error_iff :
    collect t kinds inputs = .error e ↔ inputs.mapM (ofInput t kinds) = .error e := by
  rw [collect]
  cases inputs.mapM (ofInput t kinds) <;> simp [bind, Except.bind, pure, Except.pure]

theorem mapM_ofInput_eq_ok_iff {lists : List (List Path)} :
    inputs.mapM (ofInput t kinds) = .ok lists ↔
      List.Forall₂ (StandsFor t kinds) inputs lists := by
  rw [mapM_eq_ok_iff]
  simp only [ofInput_eq_ok_iff]

theorem collect_eq_ok_iff : collect t kinds inputs = .ok found ↔
    ∃ lists, List.Forall₂ (StandsFor t kinds) inputs lists ∧ found = firsts lists.flatten := by
  simp only [← mapM_ofInput_eq_ok_iff, ← distinct_eq_firsts]
  refine ⟨collect_eq_ok, ?_⟩
  rintro ⟨lists, hlists, rfl⟩
  rw [collect, hlists]
  rfl

theorem exists_ofInput_eq_ok_iff :
    (∃ found, ofInput t kinds input = .ok found) ↔ ∀ cause, ¬ Refused t input cause := by
  have hrefused (cause : SourcesError) :
      Refused t input cause ↔ ofInput t kinds input = .error cause := ofInput_eq_error_iff.symm
  simp only [hrefused]
  cases ofInput t kinds input <;> simp

/-- Inputs are refused if one of them is, as the first one that is. Otherwise each stands for files,
    and these are listed in the order of inputs, each under its first spelling. -/
theorem collect_expands (t : FileTree) (kinds : Include) (inputs : List Path) :
    ((∃ e, collect t kinds inputs = .error e) ↔ ∃ input ∈ inputs, ∃ e, Refused t input e) ∧
    (∀ e, collect t kinds inputs = .error e ↔
      ∃ before input after, inputs = before ++ input :: after ∧
        (∀ earlier ∈ before, ∀ cause, ¬ Refused t earlier cause) ∧ Refused t input e) ∧
    (∀ found, collect t kinds inputs = .ok found ↔
      ∃ lists, List.Forall₂ (StandsFor t kinds) inputs lists ∧ found = firsts lists.flatten) ∧
    ∀ lists, List.Forall₂ (StandsFor t kinds) inputs lists →
      Listed t kinds inputs lists.flatten (firsts lists.flatten) := by
  have hfirst (e : SourcesError) : collect t kinds inputs = .error e ↔
      ∃ before input after, inputs = before ++ input :: after ∧
        (∀ earlier ∈ before, ∀ cause, ¬ Refused t earlier cause) ∧ Refused t input e := by
    rw [collect_eq_error_iff, mapM_eq_error_iff]
    simp only [exists_ofInput_eq_ok_iff, ofInput_eq_error_iff]
  refine ⟨⟨?_, ?_⟩, hfirst, fun found => collect_eq_ok_iff, fun lists => listed_firsts⟩
  · rintro ⟨e, he⟩
    obtain ⟨before, input, after, rfl, -, hrefused⟩ := (hfirst e).1 he
    exact ⟨input, by simp, e, hrefused⟩
  · rintro ⟨input, hinput, e, hrefused⟩
    cases hcollect : collect t kinds inputs with
    | error e' => exact ⟨e', rfl⟩
    | ok found =>
      obtain ⟨lists, hlists, -⟩ := collect_eq_ok_iff.1 hcollect
      obtain ⟨paths, -, hstands⟩ := exists_of_forall₂ hlists hinput
      exact absurd hrefused (exists_ofInput_eq_ok_iff.1 ⟨paths, ofInput_eq_ok_iff.2 hstands⟩ e)

/-- The first input that is refused decides, also behind one that stands for a file. -/
example : collect single default [⟨"lib/a.js"⟩, ⟨"lib/b.js"⟩, ⟨"[a"⟩] =
    .error (.notFound ⟨"lib/b.js"⟩) := by decide

end LintRun.Sources
