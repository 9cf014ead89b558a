import ImageBuild.Dockerfile
import Mathlib.Data.List.DropRight
import Mathlib.Logic.Relation

/-!
# The layout of a Dockerfile

The instructions of a Dockerfile do not depend on how it is laid out: on blank lines and
comments, on the space around its lines, and on which ends of lines it uses (`LayoutEdit`).
All that counts is its sequence of part lines, which an edit of the layout leaves alone
(`partLines_of_edit`). Instructions are plain lines again (`IsPlain`), so a file that has
them one a line has the same instructions, unless the last one ends with a backslash
(`instructions_laid_out`).
-/

namespace ImageBuild

/-! ## Trimming -/

namespace Text

variable {m s : List Char}

theorem trimEnd_eq_rdropWhile (s : List Char) : trimEnd s = s.rdropWhile isBlank := rfl

theorem trim_front (h : ∀ c ∈ m, isBlank c) (s : List Char) : trim (m ++ s) = trim s := by
  rw [trim, trim, List.dropWhile_append_of_pos h]

theorem trimEnd_back (h : ∀ c ∈ m, isBlank c) (s : List Char) : trimEnd (s ++ m) = trimEnd s := by
  rw [trimEnd, dropEndWhile, List.reverse_append,
    List.dropWhile_append_of_pos fun c hc => h c (List.mem_reverse.1 hc)]
  rfl

theorem trim_back (h : ∀ c ∈ m, isBlank c) (s : List Char) : trim (s ++ m) = trim s := by
  rw [trim, trim, List.dropWhile_append]
  split
  · next blank =>
    rw [List.dropWhile_eq_nil_iff.2 h, List.isEmpty_iff.1 blank]
  · exact trimEnd_back h _

theorem trimEnd_isPrefix (s : List Char) : trimEnd s <+: s :=
  trimEnd_eq_rdropWhile s ▸ List.rdropWhile_prefix ..

theorem getLast?_trimEnd (s : List Char) : ∀ c ∈ (trimEnd s).getLast?, isBlank c = false := by
  intro c hc
  obtain ⟨ne, rfl⟩ := List.mem_getLast?_eq_getLast hc
  exact Bool.eq_false_iff.2 (List.rdropWhile_last_not isBlank s ne)

theorem head?_trimEnd (h : trimEnd s ≠ []) : (trimEnd s).head? = s.head? := by
  obtain ⟨t, ht⟩ := trimEnd_isPrefix s
  rw [← ht, List.head?_append_of_ne_nil _ h, ht]

theorem head?_trim (s : List Char) : ∀ c ∈ (trim s).head?, isBlank c = false := by
  intro c hc
  have ne : trim s ≠ [] := by
    intro none
    rw [none] at hc
    cases hc
  rw [trim, head?_trimEnd ne] at hc
  have first := List.head?_dropWhile_not isBlank s
  rw [hc] at first
  exact first

theorem trim_eq_self (first : ∀ c ∈ s.head?, isBlank c = false)
    (last : ∀ c ∈ s.getLast?, isBlank c = false) : trim s = s := by
  have front : s.dropWhile isBlank = s := by
    cases s with
    | nil => rfl
    | cons c s => rw [List.dropWhile_cons_of_neg (by simp [first c rfl])]
  rw [trim, front, trimEnd_eq_rdropWhile, List.rdropWhile_eq_self_iff]
  intro ne
  rw [last _ (List.getLast?_eq_getLast_of_ne_nil ne)]
  simp

theorem trim_sublist (s : List Char) : (trim s).Sublist s :=
  (trimEnd_isPrefix _).sublist.trans (List.dropWhile_sublist _)

end Text

namespace Dockerfile

/-! ## Part lines -/

/-- The lines of a text that are parts of instructions. -/
def partLines (text : List Char) : List (List Char) := (lines text).filter isPart

/-- Space that may stand at either end of a line. -/
def IsMargin (m : List Char) : Prop := ∀ c ∈ m, Text.isBlank c = true ∧ c ≠ '\n'

/-- A line that is no part of an instruction: it is blank, or a comment. -/
def IsIdle (line : List Char) : Prop :=
  '\n' ∉ line ∧ ∀ c ∈ (Text.trim line).head?, c = '#'

def IsEnding (ending : List Char) : Prop := ending = ['\n'] ∨ ending = ['\r', '\n']

/-- A text after which a line begins. -/
def AtStart (before : List Char) : Prop := before = [] ∨ ∃ b, before = b ++ ['\n']

/-- A text before which a line ends. -/
def AtEnd (after : List Char) : Prop :=
  after = [] ∨ ∃ ending a, IsEnding ending ∧ after = ending ++ a

section PartLines

variable {m line ending before after : List Char}

@[simp] theorem partLines_nil : partLines [] = [] := rfl

/-- **A newline** parts what is before it from what follows. -/
theorem partLines_newline (s t : List Char) :
    partLines (s ++ '\n' :: t) = partLines s ++ partLines t := by
  simp [partLines, lines, Text.pieces_append_cons (p := (· == '\n')) (a := '\n') rfl]

theorem partLines_line (h : '\n' ∉ line) : partLines line = [Text.trim line].filter isPart := by
  have inside : ∀ c ∈ line, (c == '\n') = false := by
    intro c hc
    rw [beq_eq_false_iff_ne]
    rintro rfl
    exact h hc
  rw [partLines, lines, Text.pieces_eq_singleton inside]
  rfl

theorem partLines_idle (h : IsIdle line) : partLines line = [] := by
  obtain ⟨newline, first⟩ := h
  rw [partLines_line newline, List.filter_cons_of_neg, List.filter_nil]
  intro part
  simp only [isPart, Bool.and_eq_true, decide_eq_true_eq] at part
  obtain ⟨ne, other⟩ := part
  obtain ⟨c, s, hs⟩ := List.exists_cons_of_ne_nil ne
  rw [hs] at first other
  exact other (congrArg some (first c rfl))

theorem IsMargin.plain (h : IsMargin m) : ∀ c ∈ m, (c == '\n') = false :=
  fun c hc => beq_eq_false_iff_ne.2 (h c hc).2

theorem IsMargin.blank (h : IsMargin m) : ∀ c ∈ m, Text.isBlank c = true := fun c hc => (h c hc).1

/-- **Space in front** of the first line does not count. -/
theorem partLines_front (h : IsMargin m) (s : List Char) : partLines (m ++ s) = partLines s := by
  obtain ⟨first, rest, hs, hm⟩ := Text.pieces_front h.plain s
  simp only [partLines, lines, hs, hm, List.map_cons, Text.trim_front h.blank]

/-- **Space behind** the last line does not count. -/
theorem partLines_back (h : IsMargin m) (s : List Char) : partLines (s ++ m) = partLines s := by
  obtain ⟨front, last, hs, hm⟩ := Text.pieces_back h.plain s
  simp only [partLines, lines, hs, hm, List.map_append, List.map_cons, List.map_nil,
    Text.trim_back h.blank]

theorem isMargin_return : IsMargin ['\r'] := by
  intro c hc
  rw [List.mem_singleton.1 hc]
  decide

theorem partLines_ending (h : IsEnding ending) (s t : List Char) :
    partLines (s ++ (ending ++ t)) = partLines s ++ partLines t := by
  rcases h with rfl | rfl
  · exact partLines_newline s t
  · have : s ++ (['\r', '\n'] ++ t) = (s ++ ['\r']) ++ '\n' :: t := by simp
    rw [this, partLines_newline, partLines_back isMargin_return]

theorem partLines_start (h : AtStart before) (s : List Char) :
    partLines (before ++ s) = partLines before ++ partLines s := by
  obtain rfl | ⟨b, rfl⟩ := h
  · rfl
  · rw [List.append_assoc, List.singleton_append, partLines_newline, partLines_newline,
      partLines_nil, List.append_nil]

theorem partLines_end (h : AtEnd after) (s : List Char) :
    partLines (s ++ after) = partLines s ++ partLines after := by
  obtain rfl | ⟨ending, a, he, rfl⟩ := h
  · simp
  · have := partLines_ending he [] a
    rw [List.nil_append, partLines_nil, List.nil_append] at this
    rw [partLines_ending he, this]

end PartLines

/-! ## Edits -/

/-- **An edit of the layout.** The other way round it takes away what it puts in here. -/
inductive LayoutEdit : List Char → List Char → Prop where
  /-- a blank line or a comment where a line begins -/
  | line {line ending before : List Char} (after : List Char) (start : AtStart before)
      (idle : IsIdle line) (ends : IsEnding ending) :
      LayoutEdit (before ++ after) (before ++ (line ++ (ending ++ after)))
  /-- a blank line or a comment that ends the file -/
  | lastLine {line ending : List Char} (text : List Char) (idle : IsIdle line)
      (ends : IsEnding ending) : LayoutEdit text (text ++ (ending ++ line))
  /-- space where a line begins -/
  | front {m before : List Char} (after : List Char) (start : AtStart before)
      (margin : IsMargin m) : LayoutEdit (before ++ after) (before ++ (m ++ after))
  /-- space where a line ends -/
  | back {m after : List Char} (before : List Char) (finish : AtEnd after) (margin : IsMargin m) :
      LayoutEdit (before ++ after) ((before ++ m) ++ after)
  /-- the other end of a line -/
  | ending (before after : List Char) :
      LayoutEdit (before ++ '\n' :: after) (before ++ '\r' :: '\n' :: after)

/-- **An edit of the layout** leaves the part lines alone. -/
theorem partLines_of_edit {s t : List Char} (h : LayoutEdit s t) : partLines t = partLines s := by
  cases h with
  | line after start idle ends =>
    rw [partLines_start start, partLines_start start, partLines_ending ends, partLines_idle idle,
      List.nil_append]
  | lastLine text idle ends => rw [partLines_ending ends, partLines_idle idle, List.append_nil]
  | front after start margin =>
    rw [partLines_start start, partLines_start start, partLines_front margin]
  | back before finish margin =>
    rw [partLines_end finish, partLines_end finish, partLines_back margin]
  | ending before after =>
    rw [partLines_newline]
    exact partLines_ending (.inr rfl) before after

/-! ## Plain lines -/

/-- **A plain line:** one that stays as it is when a file is split. -/
structure IsPlain (x : List Char) : Prop where
  ne_nil : x ≠ []
  newline : '\n' ∉ x
  /-- it begins neither with a blank nor like a comment -/
  first : ∀ c ∈ x.head?, Text.isBlank c = false ∧ c ≠ '#'
  last : ∀ c ∈ x.getLast?, Text.isBlank c = false

/-- Whether a line says that it is continued. -/
def EndsOpen (x : List Char) : Prop := x.getLast? = some '\\'

theorem isPlain_of_mem_partLines {text line : List Char} (h : line ∈ partLines text) :
    IsPlain line := by
  obtain ⟨mem, part⟩ := List.mem_filter.1 h
  obtain ⟨piece, hp, rfl⟩ := List.mem_map.1 mem
  simp only [isPart, Bool.and_eq_true, decide_eq_true_eq] at part
  obtain ⟨ne, other⟩ := part
  refine ⟨ne, fun newline => ?_, fun c hc => ⟨Text.head?_trim piece c hc, ?_⟩,
    Text.getLast?_trimEnd _⟩
  · have inside := Text.not_of_mem_pieces hp '\n' ((Text.trim_sublist piece).subset newline)
    cases inside
  · rintro rfl
    exact other hc

theorem partLines_intercalate {xs : List (List Char)} (h : ∀ x ∈ xs, IsPlain x) :
    partLines (['\n'].intercalate xs) = xs := by
  have single {x : List Char} (hx : IsPlain x) : partLines x = [x] := by
    rw [partLines_line hx.newline, Text.trim_eq_self (fun c hc => (hx.first c hc).1) hx.last,
      List.filter_cons_of_pos, List.filter_nil]
    simp only [isPart, Bool.and_eq_true, decide_eq_true_eq]
    exact ⟨hx.ne_nil, fun hash => (hx.first '#' hash).2 rfl⟩
  induction xs with
  | nil => rfl
  | cons x xs ih =>
    have hx := single (h x (List.mem_cons_self ..))
    have later := ih fun y hy => h y (List.mem_cons_of_mem _ hy)
    cases xs with
    | nil => rwa [List.intercalate_singleton]
    | cons y ys =>
      rw [List.intercalate_cons_cons, List.append_assoc, List.singleton_append, partLines_newline,
        hx, later]
      rfl

/-! ## Assembling instructions -/

theorem IsPlain.join {x y : List Char} (hx : IsPlain x) (hy : IsPlain y) :
    IsPlain (x ++ ' ' :: y) := by
  refine ⟨by simp, ?_, ?_, ?_⟩
  · simp [hx.newline, hy.newline]
  · rw [List.head?_append_of_ne_nil _ hx.ne_nil]
    exact hx.first
  · have ends : (x ++ ' ' :: y).getLast? = y.getLast? := by
      rw [← List.singleton_append, ← List.append_assoc, List.getLast?_append_of_ne_nil _ hy.ne_nil]
    rw [ends]
    exact hy.last

/-- **An instruction** is a plain line if its parts are, but for empty ones. -/
theorem isPlain_joined {parts : List (List Char)} (h : ∀ x ∈ parts, x ≠ [] → IsPlain x) :
    joined parts = [] ∨ IsPlain (joined parts) := by
  have full : ∀ x ∈ parts.filter (· ≠ []), IsPlain x := by
    intro x hx
    obtain ⟨mem, ne⟩ := List.mem_filter.1 hx
    exact h x mem (of_decide_eq_true ne)
  unfold joined
  generalize parts.filter (· ≠ []) = xs at full
  induction xs with
  | nil => exact .inl rfl
  | cons x xs ih =>
    have hx := full x (List.mem_cons_self ..)
    cases xs with
    | nil => exact .inr (by rwa [List.intercalate_singleton])
    | cons y ys =>
      have some_part : [' '].intercalate (y :: ys) ≠ [] := by
        have := (full y (by simp)).ne_nil
        cases ys <;> simp [List.intercalate_cons_cons, this]
      have later := (ih fun z hz => full z (List.mem_cons_of_mem _ hz)).resolve_left some_part
      rw [List.intercalate_cons_cons, List.append_assoc]
      exact .inr (hx.join later)

theorem isPlain_of_continued? {line part : List Char} (h : IsPlain line)
    (continued : continued? line = some part) (ne : part ≠ []) : IsPlain part := by
  unfold continued? at continued
  split at continued
  · cases continued
    have sub : (Text.trimEnd line.dropLast) <+: line :=
      (Text.trimEnd_isPrefix _).trans (List.dropLast_prefix _)
    refine ⟨ne, fun mem => h.newline (sub.subset mem), ?_, Text.getLast?_trimEnd _⟩
    intro c hc
    obtain ⟨t, ht⟩ := sub
    refine h.first c ?_
    rwa [← ht, List.head?_append_of_ne_nil _ ne]
  · cases continued

theorem continued?_eq_none_iff {line : List Char} : continued? line = none ↔ ¬ EndsOpen line := by
  unfold continued? EndsOpen
  split <;> simp_all

theorem exists_joined_snoc (parts : List (List Char)) {line : List Char} (h : line ≠ []) :
    ∃ front, joined (parts ++ [line]) = front ++ line := by
  have full : (parts ++ [line]).filter (· ≠ []) = parts.filter (· ≠ []) ++ [line] := by
    simp [List.filter_append, h]
  unfold joined
  rw [full]
  generalize parts.filter (· ≠ []) = xs
  induction xs with
  | nil => exact ⟨[], List.intercalate_singleton⟩
  | cons x xs ih =>
    obtain ⟨front, ih⟩ := ih
    obtain ⟨y, ys, hy⟩ := List.exists_cons_of_ne_nil (l := xs ++ [line]) (by simp)
    refine ⟨x ++ [' '] ++ front, ?_⟩
    rw [List.cons_append, hy, List.intercalate_cons_cons, ← hy, ih, List.append_assoc _ front]

section Assemble

variable {pending rest : List (List Char)}

theorem isPlain_instruction {line : List Char} (hp : ∀ x ∈ pending, x ≠ [] → IsPlain x)
    (hl : IsPlain line) : IsPlain (joined (line :: pending).reverse) := by
  obtain ⟨front, ends⟩ := exists_joined_snoc pending.reverse hl.ne_nil
  rw [List.reverse_cons]
  refine (isPlain_joined fun x hx ne => ?_).resolve_left (by simp [ends, hl.ne_nil])
  rcases List.mem_append.1 hx with hx | hx
  · exact hp x (List.mem_reverse.1 hx) ne
  · exact List.mem_singleton.1 hx ▸ hl

/-- **Instructions are plain lines.** -/
theorem isPlain_of_mem_assemble (hp : ∀ x ∈ pending, x ≠ [] → IsPlain x)
    (hl : ∀ x ∈ rest, IsPlain x) : ∀ x ∈ assemble pending rest, IsPlain x := by
  induction rest generalizing pending with
  | nil =>
    intro x hx
    rw [assemble] at hx
    split at hx
    · cases hx
    · next ne =>
      rw [List.mem_singleton.1 hx]
      exact (isPlain_joined fun y hy => hp y (List.mem_reverse.1 hy)).resolve_left ne
  | cons line rest ih =>
    have line_plain := hl line (List.mem_cons_self ..)
    have rest_plain : ∀ x ∈ rest, IsPlain x := fun x hx => hl x (List.mem_cons_of_mem _ hx)
    rw [assemble]
    split
    · next part continued =>
      refine ih (fun x hx ne => ?_) rest_plain
      rcases List.mem_cons.1 hx with rfl | hx
      · exact isPlain_of_continued? line_plain continued ne
      · exact hp x hx ne
    · intro x hx
      rcases List.mem_cons.1 hx with rfl | hx
      · exact isPlain_instruction hp line_plain
      · exact ih (by simp) rest_plain x hx

/-- **Only the last instruction** can end with a backslash, because the file ends there. -/
theorem not_endsOpen_of_mem_dropLast (hl : ∀ x ∈ rest, IsPlain x) :
    ∀ x ∈ (assemble pending rest).dropLast, ¬ EndsOpen x := by
  induction rest generalizing pending with
  | nil =>
    rw [assemble]
    split <;> simp
  | cons line rest ih =>
    have rest_plain : ∀ x ∈ rest, IsPlain x := fun x hx => hl x (List.mem_cons_of_mem _ hx)
    rw [assemble]
    split
    · exact ih rest_plain
    · next closed =>
      intro x hx
      cases later : assemble [] rest with
      | nil => simp [later] at hx
      | cons y ys =>
        rw [later, List.dropLast_cons_cons] at hx
        rcases List.mem_cons.1 hx with rfl | hx
        · -- it ends with a line that is not continued
          have ne := (hl line (List.mem_cons_self ..)).ne_nil
          obtain ⟨front, ends⟩ := exists_joined_snoc pending.reverse ne
          rw [List.reverse_cons, ends, EndsOpen, List.getLast?_append_of_ne_nil _ ne]
          exact continued?_eq_none_iff.1 closed
        · exact ih rest_plain x (later ▸ hx)

/-- Plain lines that are not continued are instructions. -/
theorem assemble_plain {xs : List (List Char)} (hp : ∀ x ∈ xs, IsPlain x)
    (closed : ∀ x ∈ xs, ¬ EndsOpen x) : assemble [] xs = xs := by
  induction xs with
  | nil => rfl
  | cons x xs ih =>
    have ends := continued?_eq_none_iff.2 (closed x (List.mem_cons_self ..))
    have single : joined [x] = x := by
      simp [joined, (hp x (List.mem_cons_self ..)).ne_nil]
    rw [assemble, ends, ih (fun y hy => hp y (List.mem_cons_of_mem _ hy))
      fun y hy => closed y (List.mem_cons_of_mem _ hy)]
    exact congrArg (· :: xs) single

end Assemble

theorem instructions_eq (text : List Char) : instructions text = assemble [] (partLines text) := rfl

theorem isPlain_of_mem_instructions {text x : List Char} (h : x ∈ instructions text) :
    IsPlain x :=
  isPlain_of_mem_assemble (by simp) (fun _ => isPlain_of_mem_partLines) x h

/-- **Edits of the layout** do not change the instructions. -/
theorem instructions_of_edits {s t : List Char} (h : Relation.EqvGen LayoutEdit s t) :
    instructions t = instructions s := by
  induction h with
  | rel s t edit => rw [instructions_eq, instructions_eq, partLines_of_edit edit]
  | refl s => rfl
  | symm s t _ ih => exact ih.symm
  | trans s t u _ _ first second => exact second.trans first

/-- **The instructions of a Dockerfile** are plain lines. Edits of the layout do not change
them. Only the last one can end with a backslash; if it does not, a file that has the
instructions one a line has the same ones. -/
theorem instructions_laid_out (text : List Char) :
    (∀ x ∈ instructions text, IsPlain x) ∧
    (∀ other, Relation.EqvGen LayoutEdit text other → instructions other = instructions text) ∧
    (∀ x ∈ (instructions text).dropLast, ¬ EndsOpen x) ∧
    ((∀ x ∈ (instructions text).getLast?, ¬ EndsOpen x) →
      instructions (['\n'].intercalate (instructions text)) = instructions text) := by
  have plain : ∀ x ∈ instructions text, IsPlain x := fun _ => isPlain_of_mem_instructions
  have closed : ∀ x ∈ (instructions text).dropLast, ¬ EndsOpen x :=
    not_endsOpen_of_mem_dropLast fun _ => isPlain_of_mem_partLines
  refine ⟨plain, fun _ => instructions_of_edits, closed, fun last => ?_⟩
  rw [instructions_eq, partLines_intercalate plain]
  refine assemble_plain plain fun x hx => ?_
  cases hl : (instructions text).getLast? with
  | none => simp [List.getLast?_eq_none_iff.1 hl] at hx
  | some y =>
    obtain ⟨front, split⟩ := List.getLast?_eq_some_iff.1 hl
    rw [split] at hx closed last
    rcases List.mem_append.1 hx with hx | hx
    · exact closed x (by simpa using hx)
    · exact last x (by simpa using (List.mem_singleton.1 hx).symm)

/-- Space after the backslash of a continued line, and a comment before the line that
continues it, do not change the two instructions of a file. -/
theorem instructions_laid_out_continued :
    let start := "FROM a\nRUN x \\".toList
    let text := start ++ '\n' :: "  y".toList
    let spaced := start ++ "\t ".toList
    let other := (spaced ++ ['\n']) ++ ("# note".toList ++ (['\r', '\n'] ++ "  y".toList))
    Relation.EqvGen LayoutEdit text other ∧ instructions other = instructions text ∧
      instructions text = ["FROM a".toList, "RUN x y".toList] ∧
      (∀ x ∈ (instructions text).getLast?, ¬ EndsOpen x) ∧
      instructions "FROM a\nRUN x y".toList = instructions text := by
  intro start text spaced other
  have steps : instructions text = ["FROM a".toList, "RUN x y".toList] := by decide
  have margin : IsMargin "\t ".toList := by
    intro c hc
    have : c = '\t' ∨ c = ' ' := by simpa using hc
    rcases this with rfl | rfl <;> decide
  have idle : IsIdle "# note".toList := by
    refine ⟨by decide, fun c hc => ?_⟩
    have first : (Text.trim "# note".toList).head? = some '#' := by decide
    exact (Option.some.inj (first.symm.trans hc)).symm
  have space : LayoutEdit text (spaced ++ '\n' :: "  y".toList) :=
    .back start (.inr ⟨['\n'], "  y".toList, .inl rfl, rfl⟩) margin
  have comment : LayoutEdit (spaced ++ ['\n'] ++ "  y".toList) other :=
    .line _ (.inr ⟨_, rfl⟩) idle (.inr rfl)
  have edits : Relation.EqvGen LayoutEdit text other := by
    rw [List.append_assoc] at comment
    exact .trans _ _ _ (.rel _ _ space) (.rel _ _ comment)
  obtain ⟨-, same, -, again⟩ := instructions_laid_out text
  have closed : ∀ x ∈ (instructions text).getLast?, ¬ EndsOpen x := by
    rw [steps]
    rintro x ⟨⟩
    unfold EndsOpen
    decide
  refine ⟨edits, same other edits, steps, closed, ?_⟩
  have joined : ['\n'].intercalate (instructions text) = "FROM a\nRUN x y".toList := by
    rw [steps]
    decide
  exact joined ▸ again closed

end Dockerfile
end ImageBuild
