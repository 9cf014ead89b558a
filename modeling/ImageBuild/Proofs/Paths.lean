import ImageBuild.Proofs.Archive
import Mathlib.Data.List.TakeWhile

/-!
# Spellings of a path

A path may be spelled with steps in front of it that lead nowhere: `./`, to the directory
itself, and `/`, to the root. Any path is a relative one with such steps in front of it
(`exists_spelled`). Before paths are compared, the first steps `./` are dropped, and then the
slashes behind them, but no step `./` behind a slash. So two spellings of a path are the same to
a lookup just when the same steps are left of them (`normalPath_spellings`).
-/

namespace ImageBuild.Archive

/-! ## Steps in front of a path -/

/-- A step that leads nowhere: to the directory itself, or to the root. -/
inductive Step where
  | here
  | root
  deriving DecidableEq

namespace Step

def chars : Step → List Char
  | .here => ['.', '/']
  | .root => ['/']

def spell (steps : List Step) : List Char := steps.flatMap chars

@[simp] theorem spell_nil : spell [] = [] := rfl

@[simp] theorem spell_here (steps : List Step) :
    spell (.here :: steps) = '.' :: '/' :: spell steps := rfl

@[simp] theorem spell_root (steps : List Step) : spell (.root :: steps) = '/' :: spell steps := rfl

/-- **The steps that are left** when those to the directory itself are dropped, and then those
to the root. -/
def stray (steps : List Step) : List Step :=
  (steps.dropWhile (· == .here)).dropWhile (· == .root)

theorem spell_append (s s' : List Step) : spell (s ++ s') = spell s ++ spell s' :=
  List.flatMap_append

theorem spell_injective : Function.Injective spell := by
  intro s s' same
  induction s generalizing s' with
  | nil =>
    cases s' with
    | nil => rfl
    | cons step s' => cases step <;> cases same
  | cons step s ih =>
    cases s' with
    | nil => cases step <;> cases same
    | cons step' s' =>
      cases step <;> cases step' <;> simp only [spell_here, spell_root] at same
      · injection same with _ same
        injection same with _ same
        rw [ih same]
      · cases same
      · cases same
      · injection same with _ same
        rw [ih same]

theorem stray_suffix (steps : List Step) : stray steps <:+ steps :=
  (List.dropWhile_suffix _).trans (List.dropWhile_suffix _)

theorem stray_cases (steps : List Step) :
    stray steps = [] ∨ ∃ rest, stray steps = .here :: rest := by
  have first := List.head?_dropWhile_not (· == Step.root) (steps.dropWhile (· == .here))
  cases h : stray steps with
  | nil => exact .inl rfl
  | cons step rest =>
    unfold stray at h
    rw [h] at first
    cases step with
    | here => exact .inr ⟨rest, rfl⟩
    | root => cases first

/-- **No step is left** just when none to the directory itself is behind one to the root. -/
theorem stray_eq_nil_iff {steps : List Step} : stray steps = [] ↔
    ∃ m n, steps = List.replicate m .here ++ List.replicate n .root := by
  constructor
  · intro none
    have heres : steps.takeWhile (· == .here) =
        List.replicate (steps.takeWhile (· == .here)).length .here :=
      List.eq_replicate_of_mem fun s hs =>
        beq_iff_eq.1 (List.mem_takeWhile_imp (p := (· == Step.here)) hs)
    have roots : steps.dropWhile (· == .here) =
        List.replicate (steps.dropWhile (· == .here)).length .root :=
      List.eq_replicate_of_mem fun s hs => beq_iff_eq.1 (List.dropWhile_eq_nil_iff.1 none s hs)
    refine ⟨(steps.takeWhile (· == .here)).length, (steps.dropWhile (· == .here)).length, ?_⟩
    rw [← heres, ← roots, List.takeWhile_append_dropWhile]
  · rintro ⟨m, n, rfl⟩
    unfold stray
    rw [List.dropWhile_append_of_pos, List.dropWhile_eq_nil_iff]
    · intro s hs
      have := (List.dropWhile_suffix _).subset hs
      exact beq_iff_eq.2 (List.eq_of_mem_replicate this)
    · intro s hs
      exact beq_iff_eq.2 (List.eq_of_mem_replicate hs)

/-- Steps that are left change when they are dropped once more. -/
theorem stray_stray_iff {steps : List Step} :
    stray (stray steps) = stray steps ↔ stray steps = [] := by
  constructor
  · intro same
    obtain none | ⟨rest, hrest⟩ := stray_cases steps
    · exact none
    · have less : stray (.here :: rest) <:+ rest := stray_suffix rest
      rw [← hrest, same, hrest] at less
      exact absurd less.length_le (Nat.not_succ_le_self _)
  · intro none
    rw [none]
    rfl

end Step

open Step

/-! ## Relative paths -/

/-- **Whether a path is relative:** it begins with no step that leads nowhere. -/
def IsRelative (path : List Char) : Prop := ¬ ['.', '/'] <+: path ∧ ¬ ['/'] <+: path

instance (path : List Char) : Decidable (IsRelative path) := inferInstanceAs (Decidable (_ ∧ _))

/-- **Any path** is a relative one with steps in front of it. -/
theorem exists_spelled (path : List Char) : ∃ steps q, IsRelative q ∧ path = spell steps ++ q := by
  by_cases dots : ['.', '/'] <+: path
  · obtain ⟨rest, rfl⟩ := dots
    obtain ⟨steps, q, relative, rfl⟩ := exists_spelled rest
    exact ⟨.here :: steps, q, relative, rfl⟩
  · by_cases slash : ['/'] <+: path
    · obtain ⟨rest, rfl⟩ := slash
      obtain ⟨steps, q, relative, rfl⟩ := exists_spelled rest
      exact ⟨.root :: steps, q, relative, rfl⟩
    · exact ⟨[], path, ⟨dots, slash⟩, rfl⟩
termination_by path.length

theorem dropDots_of_not {path : List Char} (h : ¬ ['.', '/'] <+: path) : dropDots path = path := by
  unfold dropDots
  split
  · next rest => exact absurd ⟨rest, rfl⟩ h
  · rfl

theorem dropSlashes_of_not {path : List Char} (h : ¬ ['/'] <+: path) : dropSlashes path = path := by
  cases path with
  | nil => rfl
  | cons c path =>
    have other : (c == '/') = false := by
      rw [beq_eq_false_iff_ne]
      rintro rfl
      exact h ⟨path, rfl⟩
    exact List.dropWhile_cons_of_neg (Bool.eq_false_iff.1 other)

theorem dropDots_spell (steps : List Step) {q : List Char} (hq : ¬ ['.', '/'] <+: q) :
    dropDots (spell steps ++ q) = spell (steps.dropWhile (· == .here)) ++ q := by
  induction steps with
  | nil => exact dropDots_of_not hq
  | cons step steps ih =>
    cases step with
    | here => exact ih
    | root => rfl

theorem dropSlashes_spell (steps : List Step) {q : List Char} (hq : ¬ ['/'] <+: q) :
    dropSlashes (spell steps ++ q) = spell (steps.dropWhile (· == .root)) ++ q := by
  induction steps with
  | nil => exact dropSlashes_of_not hq
  | cons step steps ih =>
    cases step with
    | here => rfl
    | root => exact ih

/-! ## Lookups -/

/-- **The first entry at a path.** -/
def IsFirst (wanted : String) (entries : List Entry) (e : Entry) : Prop :=
  ∃ before after, entries = before ++ e :: after ∧ normalPath e.path = normalPath wanted ∧
    ∀ d ∈ before, normalPath d.path ≠ normalPath wanted

theorem find?_eq_some_iff {wanted : String} {entries : List Entry} {e : Entry} :
    Summary.find? wanted entries = some e ↔ IsFirst wanted entries e := by
  rw [Summary.find?, List.find?_eq_some_iff_append]
  constructor
  · rintro ⟨found, before, after, rfl, others⟩
    refine ⟨before, after, rfl, beq_iff_eq.1 found, ?_⟩
    intro d hd same
    have other := others d hd
    rw [beq_iff_eq.2 same] at other
    cases other
  · rintro ⟨before, after, rfl, found, others⟩
    refine ⟨beq_iff_eq.2 found, before, after, rfl, ?_⟩
    intro d hd
    rw [beq_eq_false_iff_ne.2 (others d hd)]
    rfl

theorem find?_eq_none_iff {wanted : String} {entries : List Entry} :
    Summary.find? wanted entries = none ↔
      ∀ e ∈ entries, normalPath e.path ≠ normalPath wanted := by
  simp only [Summary.find?, List.find?_eq_none, beq_iff_eq, ne_eq]

theorem IsFirst.mem {wanted : String} {entries : List Entry} {e : Entry}
    (h : IsFirst wanted entries e) : e ∈ entries := by
  obtain ⟨before, after, rfl, -⟩ := h
  exact List.mem_append_right before (List.mem_cons_self ..)

section Spelled

variable {p : String} {steps : List Step} {q : List Char}

/-- **What a path is compared by:** the steps that are left, and the path itself. -/
theorem normalPath_spelled (hq : IsRelative q) (spelled : p.toList = spell steps ++ q) :
    normalPath p = spell (stray steps) ++ q := by
  rw [normalPath, spelled, dropDots_spell steps hq.1, dropSlashes_spell _ hq.2]
  rfl

theorem normalPath_suffix (hq : IsRelative q) (spelled : p.toList = spell steps ++ q) :
    normalPath p <:+ p.toList := by
  obtain ⟨dropped, hdropped⟩ := stray_suffix steps
  refine ⟨spell dropped, ?_⟩
  rw [normalPath_spelled hq spelled, spelled, ← List.append_assoc, ← spell_append, hdropped]

theorem begins_normalPath (hq : IsRelative q) (spelled : p.toList = spell steps ++ q) :
    ¬ ['/'] <+: normalPath p ∧ (¬ ['.', '/'] <+: normalPath p ↔ stray steps = []) := by
  rw [normalPath_spelled hq spelled]
  obtain none | ⟨rest, hrest⟩ := stray_cases steps
  · rw [none]
    exact ⟨hq.2, iff_of_true hq.1 rfl⟩
  · rw [hrest]
    constructor
    · rintro ⟨t, ht⟩
      cases ht
    · apply iff_of_false
      · exact not_not_intro ⟨spell rest ++ q, rfl⟩
      · exact List.cons_ne_nil _ rest

/-- A path is compared by the same once more just when no step is left. -/
theorem normalPath_normalPath (hq : IsRelative q) (spelled : p.toList = spell steps ++ q) :
    normalPath (String.ofList (normalPath p)) = normalPath p ↔ stray steps = [] := by
  have left := normalPath_spelled hq spelled
  have again := normalPath_spelled (p := String.ofList (normalPath p)) hq
    (String.toList_ofList.trans left)
  rw [again, left, List.append_left_inj, spell_injective.eq_iff, stray_stray_iff]

/-- An entry is found by another spelling of its path just when the same steps are left. -/
theorem find?_spelled (hq : IsRelative q) (spelled : p.toList = spell steps ++ q) {e : Entry}
    {steps' : List Step} (spelled' : e.path.toList = spell steps' ++ q) {before : List Entry}
    (others : ∀ d ∈ before, normalPath d.path ≠ normalPath p) (after : List Entry) :
    Summary.find? p (before ++ e :: after) = some e ↔ stray steps' = stray steps := by
  have same : normalPath e.path = normalPath p ↔ stray steps' = stray steps := by
    rw [normalPath_spelled hq spelled, normalPath_spelled hq spelled', List.append_left_inj,
      spell_injective.eq_iff]
  rw [← same, find?_eq_some_iff]
  constructor
  · rintro ⟨-, -, -, equal, -⟩
    exact equal
  · intro equal
    exact ⟨before, after, rfl, equal, others⟩

end Spelled

/-- **Spellings in a lookup:** whatever steps are in front of a path, what it is compared by is
its end, and begins with no slash. It begins with no step at all, and is compared as itself,
just when the steps to the directory itself all come before those to the root. An entry is found
by another spelling of its path just when the same steps are left of both. -/
theorem normalPath_spellings (p : String) :
    normalPath p <:+ p.toList ∧ ¬ ['/'] <+: normalPath p ∧
    (∃ steps q, IsRelative q ∧ p.toList = spell steps ++ q) ∧
    ∀ steps q, IsRelative q → p.toList = spell steps ++ q →
      (stray steps = [] ↔ ∃ m n, steps = List.replicate m .here ++ List.replicate n .root) ∧
      (¬ ['.', '/'] <+: normalPath p ↔ stray steps = []) ∧
      (normalPath (String.ofList (normalPath p)) = normalPath p ↔ stray steps = []) ∧
      (normalPath p = q ↔ stray steps = []) ∧
      ∀ (e : Entry) (steps' : List Step), e.path.toList = spell steps' ++ q →
        ∀ before after : List Entry, (∀ d ∈ before, normalPath d.path ≠ normalPath p) →
          (Summary.find? p (before ++ e :: after) = some e ↔ stray steps' = stray steps) := by
  obtain ⟨steps, q, hq, spelled⟩ := exists_spelled p.toList
  refine ⟨normalPath_suffix hq spelled, (begins_normalPath hq spelled).1,
    ⟨steps, q, hq, spelled⟩, ?_⟩
  intro steps q hq spelled
  refine ⟨stray_eq_nil_iff, (begins_normalPath hq spelled).2, normalPath_normalPath hq spelled,
    ?_, ?_⟩
  · rw [normalPath_spelled hq spelled, List.append_left_eq_self]
    exact spell_injective.eq_iff' spell_nil
  · intro e steps' spelled' before after others
    exact find?_spelled hq spelled spelled' others after

/-- Two spellings of which nothing is left, among entries at other paths. -/
theorem normalPath_spellings_slash :
    let other : Entry := ⟨"Other", 512, [.stored 7]⟩
    let e : Entry := ⟨"././Dockerfile", 1536, [.stored 7]⟩
    let later : Entry := ⟨"Dockerfile", 2560, [.stored 7]⟩
    normalPath ".//Dockerfile" = "Dockerfile".toList ∧
      Summary.find? ".//Dockerfile" [other, e, later] = some e := by
  intro other e later
  have relative : IsRelative "Dockerfile".toList := by decide
  obtain ⟨-, -, -, spellings⟩ := normalPath_spellings ".//Dockerfile"
  obtain ⟨-, -, -, plain, found⟩ := spellings [.here, .root] "Dockerfile".toList relative (by decide)
  refine ⟨plain.2 rfl, ?_⟩
  exact (found e [.here, .here] (by decide) [other] [later] (by decide)).2 rfl

/-- A step to the directory itself behind a slash is left: the path is not the same once more,
and an archive with an entry at it is one without. -/
theorem normalPath_crossed :
    normalPath "/./Dockerfile" = "./Dockerfile".toList ∧
      normalPath (String.ofList (normalPath "/./Dockerfile")) = "Dockerfile".toList ∧
      Summary.ofArchive "./Dockerfile" (archive forked).toByteArray = .ok ⟨2, some "FROM a\n"⟩ ∧
      Summary.ofArchive "/./Dockerfile" (archive forked).toByteArray = .ok ⟨2, none⟩ := by
  rw [Summary.ofArchive_archive "./Dockerfile" forked forked_small,
    Summary.ofArchive_archive "/./Dockerfile" forked forked_small]
  refine ⟨?_, ?_, ?_, ?_⟩ <;> decide +kernel

end ImageBuild.Archive
