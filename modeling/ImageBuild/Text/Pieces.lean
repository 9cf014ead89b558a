/-!
# Splitting sequences

`pieces p s` are the parts of `s` between the items that satisfy `p`, empty
parts included, so there is one part more than there are such items
(`length_pieces`).
-/

namespace ImageBuild.Text

variable {α : Type}

/-- Puts an item before the parts of what follows it. -/
def addPiece (p : α → Bool) (a : α) : List (List α) → List (List α)
  | [] => [[a]]
  | piece :: rest => if p a then [] :: piece :: rest else (a :: piece) :: rest

/-- The parts between the items that satisfy `p`, empty ones included. -/
def pieces (p : α → Bool) (s : List α) : List (List α) := s.foldr (addPiece p) [[]]

@[simp] theorem pieces_nil (p : α → Bool) : pieces p [] = [[]] := rfl

theorem pieces_cons (p : α → Bool) (a : α) (s : List α) :
    pieces p (a :: s) = addPiece p a (pieces p s) := rfl

theorem length_pieces (p : α → Bool) (s : List α) :
    (pieces p s).length = s.countP p + 1 := by
  induction s with
  | nil => rfl
  | cons a s ih =>
    rw [pieces_cons]
    cases h : pieces p s with
    | nil => simp [h] at ih
    | cons piece rest =>
      rw [h] at ih
      by_cases hp : p a <;> simp [addPiece, hp, ← ih]

theorem pieces_ne_nil (p : α → Bool) (s : List α) : pieces p s ≠ [] :=
  List.ne_nil_of_length_pos (by simp [length_pieces])

theorem pieces_append_cons {p : α → Bool} {a : α} (h : p a) (s t : List α) :
    pieces p (s ++ a :: t) = pieces p s ++ pieces p t := by
  induction s with
  | nil =>
    rw [List.nil_append, pieces_cons]
    cases ht : pieces p t with
    | nil => exact absurd ht (pieces_ne_nil p t)
    | cons piece rest => simp [addPiece, h]
  | cons b s ih =>
    rw [List.cons_append, pieces_cons, pieces_cons, ih]
    cases hs : pieces p s with
    | nil => exact absurd hs (pieces_ne_nil p s)
    | cons piece rest => by_cases hb : p b <;> simp [addPiece, hb]

theorem pieces_front {p : α → Bool} {m : List α} (h : ∀ a ∈ m, p a = false) (s : List α) :
    ∃ first rest, pieces p s = first :: rest ∧ pieces p (m ++ s) = (m ++ first) :: rest := by
  induction m with
  | nil =>
    obtain ⟨first, rest, hs⟩ := List.exists_cons_of_ne_nil (pieces_ne_nil p s)
    exact ⟨first, rest, hs, hs⟩
  | cons a m ih =>
    obtain ⟨first, rest, hs, hm⟩ := ih fun b hb => h b (List.mem_cons_of_mem _ hb)
    refine ⟨first, rest, hs, ?_⟩
    rw [List.cons_append, pieces_cons, hm, addPiece, h a (List.mem_cons_self ..)]
    rfl

theorem pieces_eq_singleton {p : α → Bool} {m : List α} (h : ∀ a ∈ m, p a = false) :
    pieces p m = [m] := by
  obtain ⟨first, rest, none, hm⟩ := pieces_front h []
  cases none
  simpa using hm

theorem not_of_mem_pieces {p : α → Bool} {s piece : List α} (h : piece ∈ pieces p s) :
    ∀ a ∈ piece, p a = false := by
  induction s generalizing piece with
  | nil => simp_all
  | cons b s ih =>
    obtain ⟨first, rest, hs⟩ := List.exists_cons_of_ne_nil (pieces_ne_nil p s)
    rw [pieces_cons, hs] at h
    rw [hs] at ih
    by_cases hb : p b
    · simp only [addPiece, if_pos hb, List.mem_cons] at h
      rcases h with rfl | h
      · simp
      · exact ih (List.mem_cons.2 h)
    · simp only [addPiece, if_neg hb, List.mem_cons] at h
      rcases h with rfl | h
      · intro a ha
        rcases List.mem_cons.1 ha with rfl | ha
        · exact Bool.eq_false_iff.2 hb
        · exact ih (List.mem_cons_self ..) a ha
      · exact ih (List.mem_cons_of_mem _ h)

theorem pieces_back {p : α → Bool} {m : List α} (h : ∀ a ∈ m, p a = false) (s : List α) :
    ∃ front last, pieces p s = front ++ [last] ∧ pieces p (s ++ m) = front ++ [last ++ m] := by
  induction s with
  | nil =>
    obtain ⟨first, rest, none, hm⟩ := pieces_front h []
    cases none
    exact ⟨[], [], rfl, by simpa using hm⟩
  | cons b s ih =>
    obtain ⟨front, last, hs, hm⟩ := ih
    rw [List.cons_append, pieces_cons, pieces_cons, hs, hm]
    by_cases hb : p b
    · refine ⟨[] :: front, last, ?_, ?_⟩ <;> cases front <;> simp [addPiece, hb]
    · cases front with
      | nil => exact ⟨[], b :: last, by simp [addPiece, hb], by simp [addPiece, hb]⟩
      | cons piece front =>
        exact ⟨(b :: piece) :: front, last, by simp [addPiece, hb], by simp [addPiece, hb]⟩

end ImageBuild.Text
