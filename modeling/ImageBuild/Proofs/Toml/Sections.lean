import ImageBuild.Proofs.Toml.Strings
import ImageBuild.Proofs.Version
import ImageBuild.Toml.Reader
import Mathlib.Data.List.Basic

/-!
# Written sections are read back

A file of sections (`Sections`) has a header for each of them, and a line for each
value under it. Its statements are read one after another (`comes_header`,
`comes_pair`), and assembled they are the table of the sections (`parse?_sections`).
-/

namespace ImageBuild.Toml

open Scan

/-! ## Keys -/

/-- A name that may stand without quotes. -/
def IsName (name : String) : Prop := name.toList ≠ [] ∧ ∀ c ∈ name.toList, isBare c = true

instance (name : String) : Decidable (IsName name) :=
  decidable_of_iff (name.toList ≠ [] ∧ name.toList.all isBare = true) (by simp [IsName])

theorem isBlank_of_isBare {c : Char} (h : isBare c = true) : isBlank c = false := by
  refine Bool.eq_false_iff.2 fun blank => ?_
  simp only [isBlank, Bool.or_eq_true, beq_iff_eq] at blank
  rcases blank with rfl | rfl <;> revert h <;> decide

theorem IsName.exists_cons {name : String} (h : IsName name) :
    ∃ c cs, name.toList = c :: cs ∧ isBare c = true := by
  cases hn : name.toList with
  | nil => exact absurd hn h.1
  | cons c cs => exact ⟨c, cs, rfl, h.2 c (hn ▸ List.mem_cons_self ..)⟩

theorem IsName.append_ne {name : String} (h : IsName name) {d : Char} (hd : isBare d = false)
    (s t : List Char) : name.toList ++ s ≠ d :: t := by
  obtain ⟨c, cs, hc, bare⟩ := h.exists_cons
  rw [hc]
  intro same
  rw [(List.cons.inj same).1, hd] at bare
  cases bare

theorem blanks_cons {c : Char} (h : isBlank c = false) (t : List Char) :
    blanks (c :: t) = c :: t := List.dropWhile_cons_of_neg (by simp [h])

theorem blanks_name {name : String} (h : IsName name) (t : List Char) :
    blanks (name.toList ++ t) = name.toList ++ t := by
  obtain ⟨c, cs, hc, bare⟩ := h.exists_cons
  rw [hc, List.cons_append, blanks_cons (isBlank_of_isBare bare)]

theorem keyPart?_name {name : String} (h : IsName name) {c : Char} (ends : isBare c = false)
    (t : List Char) : keyPart? (name.toList ++ c :: t) = some (name, c :: t) := by
  have taken : (name.toList ++ c :: t).takeWhile isBare = name.toList := by
    rw [List.takeWhile_append_of_pos h.2, List.takeWhile_cons_of_neg (by simp [ends]),
      List.append_nil]
  have left : (name.toList ++ c :: t).dropWhile isBare = c :: t := by
    rw [List.dropWhile_append_of_pos h.2, List.dropWhile_cons_of_neg (by simp [ends])]
  unfold keyPart?
  simp only
  split
  · next quoted => exact absurd quoted (h.append_ne (by decide) _ _)
  · next quoted => exact absurd quoted (h.append_ne (by decide) _ _)
  · rw [taken, left]
    split
    · next none => exact absurd none h.1
    · rw [String.ofList_toList]

theorem path?_name {name : String} (h : IsName name) (gap : List Char)
    (blank : ∀ c ∈ gap, isBlank c = true) {c : Char} (solid : isBlank c = false)
    (bare : isBare c = false) (dot : c ≠ '.') (t : List Char) :
    path? (name.toList ++ (gap ++ c :: t)) = some ([], name, c :: t) := by
  have part : keyPart? (name.toList ++ (gap ++ c :: t)) = some (name, gap ++ c :: t) := by
    cases gap with
    | nil => exact keyPart?_name h bare t
    | cons b gap =>
      refine keyPart?_name h (Bool.eq_false_iff.2 fun hb => ?_) (gap ++ c :: t)
      have := isBlank_of_isBare hb
      rw [blank b (List.mem_cons_self ..)] at this
      cases this
  have passed : blanks (gap ++ c :: t) = c :: t := by
    rw [blanks, List.dropWhile_append_of_pos blank]
    exact blanks_cons solid t
  have more : (name.toList ++ (gap ++ c :: t)).length =
      (name.toList ++ (gap ++ t)).length + 1 := by
    simp only [List.length_append, List.length_cons]
    omega
  have key : key? (name.toList ++ (gap ++ c :: t)).length (name.toList ++ (gap ++ c :: t)) =
      some ([name], c :: t) := by
    rw [more, key?, blanks_name h, part, Option.bind_some]
    simp only [passed]
    split
    · next heq => exact absurd (List.cons.inj heq).1 dot
    · rfl
  rw [path?, key]
  rfl

/-! ## Numbers -/

section Numbers

variable {ds t : List Char}

theorem ne_of_isDigit {c d : Char} (h : c.isDigit = true) (hd : d.isDigit = false) : c ≠ d := by
  rintro rfl
  rw [h] at hd
  cases hd

theorem fixed?_digits {k n : Nat} {r : List Char} (digits : ∀ c ∈ ds, c.isDigit = true)
    (h : fixed? k (ds ++ '\n' :: t) = some (n, r)) :
    ∃ ds', (∀ c ∈ ds', c.isDigit = true) ∧ r = ds' ++ '\n' :: t := by
  unfold fixed? at h
  split at h
  · next whole =>
    cases h
    have le : k ≤ ds.length := by
      refine Nat.le_of_not_lt fun more => ?_
      have mem : '\n' ∈ (ds ++ '\n' :: t).take k := by
        rw [List.take_append, List.mem_append]
        refine .inr ?_
        rw [show k - ds.length = (k - ds.length - 1) + 1 by omega, List.take_succ_cons]
        exact List.mem_cons_self ..
      have := List.all_eq_true.1 whole.2 _ mem
      cases this
    refine ⟨ds.drop k, fun c hc => digits c (List.mem_of_mem_drop hc), ?_⟩
    rw [List.drop_append_of_le_length le]
  · cases h

theorem moment?_digits (digits : ∀ c ∈ ds, c.isDigit = true) :
    moment? (ds ++ '\n' :: t) = none := by
  -- behind the first part there is no dash and no colon
  have next {k n : Nat} {r : List Char} (h : fixed? k (ds ++ '\n' :: t) = some (n, r)) {c : Char}
      (hc : c.isDigit = false) (line : c ≠ '\n') (u : List Char) : r ≠ c :: u := by
    obtain ⟨ds', digits', rfl⟩ := fixed?_digits digits h
    cases ds' with
    | nil => exact fun h => line (List.cons.inj h).1.symm
    | cons d ds' =>
      exact fun h => ne_of_isDigit (digits' d (List.mem_cons_self ..)) hc (List.cons.inj h).1
  have date : date? (ds ++ '\n' :: t) = none := by
    unfold date?
    cases h : fixed? 4 (ds ++ '\n' :: t) with
    | none => rfl
    | some found =>
      rw [Option.bind_some]
      simp only
      split
      · next heq => exact absurd heq (next h (by decide) (by decide) _)
      · rfl
  have time : time? (ds ++ '\n' :: t) = none := by
    unfold time?
    cases h : fixed? 2 (ds ++ '\n' :: t) with
    | none => rfl
    | some found =>
      rw [Option.bind_some]
      simp only
      split
      · next heq => exact absurd heq (next h (by decide) (by decide) _)
      · rfl
  rw [moment?, date, time]
  rfl

theorem isGrouped_digits (digits : ∀ c ∈ ds, c.isDigit = true) (nonempty : ds ≠ []) :
    isGrouped ds = true := by
  induction ds with
  | nil => exact absurd rfl nonempty
  | cons c ds ih =>
    have plain (d : Char) (hd : d ∈ c :: ds) : d ≠ '_' := ne_of_isDigit (digits d hd) (by decide)
    cases ds with
    | nil => simpa [isGrouped] using plain c (List.mem_cons_self ..)
    | cons d ds =>
      have later := ih (fun e he => digits e (List.mem_cons_of_mem _ he)) (by simp)
      have first : c ≠ '_' := plain c (List.mem_cons_self ..)
      have second : d ≠ '_' := plain d (List.mem_cons_of_mem _ (List.mem_cons_self ..))
      simp [isGrouped, first, second, later]

theorem digits?_digits (digits : ∀ c ∈ ds, c.isDigit = true) (nonempty : ds ≠ []) :
    digits? Char.isDigit (ds ++ '\n' :: t) = some (ds, '\n' :: t) := by
  have part : ∀ c ∈ ds, (c.isDigit || c == '_') = true := fun c hc => by rw [digits c hc]; rfl
  have taken : (ds ++ '\n' :: t).takeWhile (fun c => c.isDigit || c == '_') = ds := by
    rw [List.takeWhile_append_of_pos part, List.takeWhile_cons_of_neg (by decide), List.append_nil]
  have left : (ds ++ '\n' :: t).dropWhile (fun c => c.isDigit || c == '_') = '\n' :: t := by
    rw [List.dropWhile_append_of_pos part, List.dropWhile_cons_of_neg (by decide)]
  have kept : ds.filter (· != '_') = ds :=
    List.filter_eq_self.2 fun c hc => bne_iff_ne.2 (ne_of_isDigit (digits c hc) (by decide))
  simp only [digits?, taken, left, kept, isGrouped_digits digits nonempty, if_true]

end Numbers

section Decimals

open Text.Decimal

theorem head?_chars {n : Nat} (h : n ≠ 0) : (chars n).head? ≠ some '0' := by
  induction n using Nat.strongRecOn with
  | _ n ih =>
    rw [chars, digits]
    split
    · have nonzero : ∀ d < 10, d ≠ 0 → [digitChar d].head? ≠ some '0' := by decide
      exact nonzero n (by assumption) h
    · have first := ih (n / 10) (by omega) (by omega)
      rw [List.map_append]
      show (chars (n / 10) ++ _).head? ≠ some '0'
      rwa [List.head?_append_of_ne_nil _ (chars_ne_nil (n / 10))]

theorem ofDigits_chars (n : Nat) : Scan.ofDigits 10 (chars n) = n := by
  have value : ∀ d < 10, (hexDigit? (digitChar d)).getD 0 = d := by decide
  have same (ds : List Nat) (small : ∀ d ∈ ds, d < 10) (acc : Nat) :
      (ds.map digitChar).foldl (fun n c => n * 10 + (hexDigit? c).getD 0) acc =
        ds.foldl (fun n d => n * 10 + d) acc := by
    induction ds generalizing acc with
    | nil => rfl
    | cons d ds ih =>
      rw [List.map_cons, List.foldl_cons, List.foldl_cons,
        value d (small d (List.mem_cons_self ..)),
        ih fun e he => small e (List.mem_cons_of_mem _ he)]
  exact (same _ (fun d => lt_ten_of_mem_digits) 0).trans (ofDigits_digits n)

theorem decimal?_chars (n : Nat) (t : List Char) :
    decimal? (chars n ++ '\n' :: t) = some (chars n, '\n' :: t) := by
  have whole := digits?_digits (t := t) (fun c => isDigit_of_mem_chars (n := n)) (chars_ne_nil n)
  by_cases zero : n = 0
  · subst zero
    have one : chars 0 = ['0'] := by rw [chars, digits]; rfl
    rw [one]
    rfl
  · unfold decimal?
    split
    · next heq =>
      have first := head?_chars zero
      have : (chars n ++ '\n' :: t).head? = some '0' := by rw [heq]; rfl
      rw [List.head?_append_of_ne_nil _ (chars_ne_nil n)] at this
      exact absurd this first
    · exact whole

theorem chars_eq_cons (n : Nat) : ∃ c cs, chars n = c :: cs ∧ c.isDigit = true := by
  cases h : chars n with
  | nil => exact absurd h (chars_ne_nil n)
  | cons c cs => exact ⟨c, cs, rfl, isDigit_of_mem_chars (n := n) (h ▸ List.mem_cons_self ..)⟩

theorem chars_append_ne (n : Nat) {d : Char} (hd : d.isDigit = false) (s t : List Char) :
    chars n ++ s ≠ d :: t := by
  obtain ⟨c, cs, hc, digit⟩ := chars_eq_cons n
  rw [hc]
  exact fun same => ne_of_isDigit digit hd (List.cons.inj same).1

theorem sign_chars (n : Nat) (t : List Char) : sign (chars n ++ t) = (false, chars n ++ t) := by
  unfold sign
  split
  · next plus => exact absurd plus (chars_append_ne n (by decide) _ _)
  · next minus => exact absurd minus (chars_append_ne n (by decide) _ _)
  · rfl

theorem real?_chars (n : Nat) (t : List Char) : real? (chars n ++ '\n' :: t) = none := by
  unfold real?
  rw [sign_chars]
  simp only
  split
  · next word => exact absurd word (chars_append_ne n (by decide) _ _)
  · next word => exact absurd word (chars_append_ne n (by decide) _ _)
  · rw [decimal?_chars]
    rfl

/-- **A number** is read back, if it is not too large. -/
theorem integer?_chars {n : Nat} (h : n ≤ Text.Integer.maxI64) (t : List Char) :
    integer? (chars n ++ '\n' :: t) = some (.integer (.ofNat n), '\n' :: t) := by
  have radix {d : Char} (hd : d.isDigit = false) (line : d ≠ '\n') (u : List Char) :
      chars n ++ '\n' :: t ≠ '0' :: d :: u := by
    by_cases zero : n = 0
    · subst zero
      rw [show chars 0 = ['0'] by rw [chars, digits]; rfl]
      exact fun h => line (List.cons.inj (List.cons.inj h).2).1.symm
    · intro h
      have first := head?_chars zero
      rw [← List.head?_append_of_ne_nil _ (chars_ne_nil n), h] at first
      exact first rfl
  unfold integer?
  simp only
  split
  · next heq => exact absurd heq (radix (by decide) (by decide) _)
  · next heq => exact absurd heq (radix (by decide) (by decide) _)
  · next heq => exact absurd heq (radix (by decide) (by decide) _)
  · rw [sign_chars]
    simp only [decimal?_chars, Option.bind_some, ofDigits_chars, Bool.false_eq_true, if_false,
      if_pos h]

theorem number?_chars {n : Nat} (h : n ≤ Text.Integer.maxI64) (t : List Char) :
    number? (chars n ++ '\n' :: t) = some (.integer (.ofNat n), '\n' :: t) := by
  rw [number?, moment?_digits fun c => isDigit_of_mem_chars (n := n), real?_chars,
    integer?_chars h]
  rfl

end Decimals

/-! ## Values -/

/-- **Whether a text is written for a value**: it is read back at the end of a line, and no
blank stands before it. -/
structure IsWritten (t : List Char) (v : Value) : Prop where
  begins : ∃ c s, t = c :: s ∧ isBlank c = false
  reads (fuel depth : Nat) (rest : List Char) :
    value? (fuel + 1) depth (t ++ '\n' :: rest) = some (v, '\n' :: rest)

theorem isWritten_string (s : String) : IsWritten (Print.string s) (.string s) := by
  have opens : ∃ c t, Print.string s = c :: t ∧ (c = '"' ∨ c = '\'') := by
    unfold Print.string
    simp only
    cases Print.form s.toList with
    | basic | multiBasic => exact ⟨'"', _, rfl, .inl rfl⟩
    | literal | multiLiteral => exact ⟨'\'', _, rfl, .inr rfl⟩
  obtain ⟨c, t, hc, quote⟩ := opens
  refine ⟨⟨c, t, hc, by rcases quote with rfl | rfl <;> decide⟩, fun fuel depth rest => ?_⟩
  have read : string? (Print.string s ++ '\n' :: rest) = some (s, '\n' :: rest) :=
    string?_string s (by simp) (by simp)
  rw [hc] at read ⊢
  rw [List.cons_append] at read ⊢
  unfold value?
  simp only [if_pos quote, read, Option.map_some]

theorem isWritten_true : IsWritten "true".toList (.bool true) :=
  ⟨⟨'t', _, rfl, by decide⟩, fun _ _ _ => rfl⟩

theorem isWritten_false : IsWritten "false".toList (.bool false) :=
  ⟨⟨'f', _, rfl, by decide⟩, fun _ _ _ => rfl⟩

theorem isWritten_chars {n : Nat} (h : n ≤ Text.Integer.maxI64) :
    IsWritten (Text.Decimal.chars n) (.integer (.ofNat n)) := by
  obtain ⟨c, t, hc, digit⟩ := chars_eq_cons n
  have other {d : Char} (hd : d.isDigit = false) : c ≠ d := ne_of_isDigit digit hd
  refine ⟨⟨c, t, hc, ?_⟩, fun fuel depth rest => ?_⟩
  · have space := other (d := ' ') (by decide)
    have tab := other (d := '\t') (by decide)
    simp [isBlank, space, tab]
  · have read := number?_chars h rest
    rw [hc, List.cons_append] at read ⊢
    have quotes : ¬ (c = '"' ∨ c = '\'') := by
      rintro (h | h)
      · exact other (by decide) h
      · exact other (by decide) h
    unfold value?
    simp only [if_neg quotes, if_neg (other (d := '[') (by decide)),
      if_neg (other (d := '\x7b') (by decide)), if_neg (other (d := 't') (by decide)),
      if_neg (other (d := 'f') (by decide)), read]

/-! ## Statements -/

theorem lineEnd?_newline (t : List Char) : lineEnd? ('\n' :: t) = some t := rfl

section Statements

variable {t : List Char} {ss : List Statement} {name : String}

theorem comes_nil : Comes statements? [] [] := by
  intro fuel more
  cases fuel with
  | zero => cases more
  | succ fuel => rfl

theorem comes_newline (later : Comes statements? t ss) : Comes statements? ('\n' :: t) ss := by
  intro fuel more
  cases fuel with
  | zero => cases more
  | succ fuel => exact later fuel (Nat.lt_of_succ_lt_succ more)

theorem comes_statement {c : Char} {s r : List Char} {x : Statement} (solid : isBlank c = false)
    (comment : c ≠ '#') (line : newline? (c :: s) = none)
    (read : statement? (c :: s) = some (x, r)) (shorter : r.length ≤ s.length)
    (later : Comes statements? r ss) : Comes statements? (c :: s) (x :: ss) := by
  intro fuel more
  cases fuel with
  | zero => cases more
  | succ fuel =>
    rw [List.length_cons] at more
    rw [statements?, blanks_cons solid]
    split
    · next heq => cases heq
    · next heq => exact absurd (List.cons.inj heq).1 comment
    · rw [line]
      simp only [read, later fuel (by omega)]
      rfl

theorem comes_header (h : IsName name) (later : Comes statements? t ss) :
    Comes statements? ('[' :: (name.toList ++ ']' :: '\n' :: t)) (.header [] name :: ss) := by
  have path : path? (name.toList ++ ']' :: '\n' :: t) = some ([], name, ']' :: '\n' :: t) :=
    path?_name h [] (by simp) (by decide) (by decide) (by decide) _
  have read : statement? ('[' :: (name.toList ++ ']' :: '\n' :: t)) =
      some (.header [] name, t) := by
    unfold statement?
    split
    · next double => exact absurd (List.cons.inj double).2 (h.append_ne (by decide) _ _)
    · next heq =>
      cases heq
      simp only [path, lineEnd?_newline, Option.map_some]
    · next single => exact absurd rfl (single _)
  refine comes_statement (by decide) (by decide) rfl read ?_ later
  simp only [List.length_append, List.length_cons]
  omega

theorem comes_pair {v : List Char} {x : Value} (h : IsName name) (written : IsWritten v x)
    (later : Comes statements? t ss) :
    Comes statements? (name.toList ++ ' ' :: '=' :: ' ' :: (v ++ '\n' :: t))
      (.pair [] name x :: ss) := by
  have path : path? (name.toList ++ ' ' :: '=' :: ' ' :: (v ++ '\n' :: t)) =
      some ([], name, '=' :: ' ' :: (v ++ '\n' :: t)) :=
    path?_name h [' '] (by simp [isBlank]) (by decide) (by decide) (by decide) _
  have passed : blanks (' ' :: (v ++ '\n' :: t)) = v ++ '\n' :: t := by
    obtain ⟨c, v, rfl, solid⟩ := written.begins
    exact blanks_cons solid _
  have read : statement? (name.toList ++ ' ' :: '=' :: ' ' :: (v ++ '\n' :: t)) =
      some (.pair [] name x, t) := by
    unfold statement?
    split
    · next bracket => exact absurd bracket (h.append_ne (by decide) _ _)
    · next bracket => exact absurd bracket (h.append_ne (by decide) _ _)
    · simp only [path, passed, written.reads, lineEnd?_newline, Option.map_some]
  have line : newline? (name.toList ++ ' ' :: '=' :: ' ' :: (v ++ '\n' :: t)) = none := by
    unfold newline?
    split
    · next ends => exact absurd ends (h.append_ne (by decide) _ _)
    · next ends => exact absurd ends (h.append_ne (by decide) _ _)
    · rfl
  obtain ⟨c, cs, hc, bare⟩ := h.exists_cons
  rw [hc, List.cons_append] at read line ⊢
  have other : c ≠ '#' := by
    rintro rfl
    cases bare
  refine comes_statement (isBlank_of_isBare bare) other line read ?_ later
  simp only [List.length_append, List.length_cons]
  omega

end Statements

/-! ## Sections -/

/-- **How values are written**: each on a line of its own, behind a name that the others do
not have. -/
inductive Lines : List Char → List (String × Value) → Prop where
  | nil : Lines [] []
  | pair {name : String} {v t : List Char} {x : Value} {ps : List (String × Value)} :
      IsName name → IsWritten v x → name ∉ ps.map (·.1) → Lines t ps →
      Lines (name.toList ++ ' ' :: '=' :: ' ' :: (v ++ '\n' :: t)) ((name, x) :: ps)

/-- **How sections are written**: each with a header that the others do not have and the lines
of its values. Empty lines may stand between them. -/
inductive Sections : List Char → List (String × List (String × Value)) → Prop where
  | nil : Sections [] []
  | blank {t : List Char} {file : List (String × List (String × Value))} :
      Sections t file → Sections ('\n' :: t) file
  | header {name : String} {s t : List Char} {ps : List (String × Value)}
      {file : List (String × List (String × Value))} :
      IsName name → Lines s ps → name ∉ file.map (·.1) → Sections t file →
      Sections ('[' :: (name.toList ++ ']' :: '\n' :: (s ++ t))) ((name, ps) :: file)

/-- The statements about the values of a section. -/
def pairs (ps : List (String × Value)) : List Statement := ps.map fun (name, x) => .pair [] name x

def statements (file : List (String × List (String × Value))) : List Statement :=
  file.flatMap fun (name, ps) => .header [] name :: pairs ps

theorem Lines.nodup {s : List Char} {ps : List (String × Value)} (h : Lines s ps) :
    (ps.map (·.1)).Nodup := by
  induction h with
  | nil => exact List.nodup_nil
  | pair _ _ fresh _ ih => exact List.nodup_cons.2 ⟨fresh, ih⟩

theorem Sections.nodup {t : List Char} {file : List (String × List (String × Value))}
    (h : Sections t file) : (file.map (·.1)).Nodup := by
  induction h with
  | nil => exact List.nodup_nil
  | blank _ ih => exact ih
  | header _ _ fresh _ ih => exact List.nodup_cons.2 ⟨fresh, ih⟩

theorem Sections.nodup_of_mem {t : List Char} {file : List (String × List (String × Value))}
    (h : Sections t file) {p : String × List (String × Value)} (hp : p ∈ file) :
    (p.2.map (·.1)).Nodup := by
  induction h with
  | nil => cases hp
  | blank _ ih => exact ih hp
  | header _ lines _ _ ih =>
    rcases List.mem_cons.1 hp with rfl | hp
    · exact lines.nodup
    · exact ih hp

theorem Lines.comes {s t : List Char} {ps : List (String × Value)} {ss : List Statement}
    (h : Lines s ps) (later : Comes statements? t ss) :
    Comes statements? (s ++ t) (pairs ps ++ ss) := by
  induction h with
  | nil => exact later
  | pair isName written _ _ ih =>
    have := comes_pair isName written ih
    simpa [pairs] using this

theorem Sections.comes {t : List Char} {file : List (String × List (String × Value))}
    (h : Sections t file) : Comes statements? t (statements file) := by
  induction h with
  | nil => exact comes_nil
  | blank _ ih => exact comes_newline ih
  | header isName lines _ _ ih => exact comes_header isName (lines.comes ih)

/-! ## Tables -/

namespace Entries

variable {es : Entries} {name : String}

theorem lookup_eq_none (fresh : name ∉ es.map (·.1)) : lookup name es = none := by
  rw [lookup, Option.map_eq_none_iff, List.find?_eq_none]
  intro e he same
  exact fresh (List.mem_map.2 ⟨e, he, beq_iff_eq.1 same⟩)

theorem put_eq_append (n : Node) (fresh : name ∉ es.map (·.1)) :
    put name n es = es ++ [(name, n)] := by
  induction es with
  | nil => rfl
  | cons e es ih =>
    rw [List.map_cons, List.mem_cons, not_or] at fresh
    rw [put, if_neg (by simpa using Ne.symm fresh.1), ih fresh.2, List.cons_append]

end Entries

def leaves (ps : List (String × Value)) : Entries := ps.map fun (name, x) => (name, .leaf x)

def branches (file : List (String × List (String × Value))) : Entries :=
  file.map fun (name, ps) => (name, .branch false false (leaves ps))

theorem names_leaves (ps : List (String × Value)) : (leaves ps).map (·.1) = ps.map (·.1) := by
  rw [leaves, List.map_map]
  rfl

theorem names_branches (file : List (String × List (String × Value))) :
    (branches file).map (·.1) = file.map (·.1) := by
  rw [branches, List.map_map]
  rfl

theorem entries_leaves (ps : List (String × Value)) : Node.entries (leaves ps) = ps := by
  induction ps with
  | nil => rfl
  | cons p ps ih => exact congrArg (p :: ·) ih

theorem entries_branches (file : List (String × List (String × Value))) :
    Node.entries (branches file) = file.map fun (name, ps) => (name, .table ps) := by
  induction file with
  | nil => rfl
  | cons entry file ih =>
    show (entry.1, Value.table (Node.entries (leaves entry.2))) :: _ = _
    rw [entries_leaves, List.map_cons]
    exact congrArg _ ih

namespace Draft

variable {d : Draft} {name : String}

theorem push_pair {x : Value} (fresh : name ∉ d.current.map (·.1)) :
    d.push (.pair [] name x) = some { d with current := d.current ++ [(name, .leaf x)] } := by
  simp [push, Entries.insertPair, Entries.descend, Entries.lookup_eq_none fresh]

theorem push_header {root : Entries} (closed : d.close = some root)
    (fresh : name ∉ root.map (·.1)) :
    d.push (.header [] name) = some ⟨root, some ([], name, false), []⟩ := by
  simp [push, closed, Entries.descend, Entries.lookup_eq_none fresh]

theorem close_header {root current : Entries} (fresh : name ∉ root.map (·.1)) :
    close ⟨root, some ([], name, false), current⟩ =
      some (root ++ [(name, .branch false false current)]) := by
  simp [close, Entries.descend, Entries.lookup_eq_none fresh, Entries.put_eq_append _ fresh]

theorem foldlM_pairs {root : Entries} {place : Option (List String × String × Bool)}
    {done ps : List (String × Value)} (distinct : ((done ++ ps).map (·.1)).Nodup) :
    (pairs ps).foldlM push ⟨root, place, leaves done⟩ =
      some ⟨root, place, leaves (done ++ ps)⟩ := by
  induction ps generalizing done with
  | nil => rw [List.append_nil]; rfl
  | cons p ps ih =>
    have fresh : p.1 ∉ (leaves done).map (·.1) := by
      rw [List.map_append, List.map_cons, List.nodup_append] at distinct
      rw [names_leaves]
      exact fun mem => distinct.2.2 _ mem _ (List.mem_cons_self ..) rfl
    have more : leaves done ++ [(p.1, .leaf p.2)] = leaves (done ++ [p]) := by simp [leaves]
    rw [List.append_cons] at distinct ⊢
    rw [← ih distinct, ← more]
    show (push _ (.pair [] p.1 p.2)).bind _ = _
    rw [push_pair fresh]
    rfl

/-- **What the statements of a file come to**, section by section. -/
theorem foldlM_statements {done file : List (String × List (String × Value))}
    (distinct : ((done ++ file).map (·.1)).Nodup)
    (keys : ∀ p ∈ file, (p.2.map (·.1)).Nodup) (closed : d.close = some (branches done)) :
    ∃ d', (statements file).foldlM push d = some d' ∧
      d'.close = some (branches (done ++ file)) := by
  induction file generalizing d done with
  | nil => exact ⟨d, rfl, by rwa [List.append_nil]⟩
  | cons p file ih =>
    have fresh : p.1 ∉ (branches done).map (·.1) := by
      rw [List.map_append, List.map_cons, List.nodup_append] at distinct
      rw [names_branches]
      exact fun mem => distinct.2.2 _ mem _ (List.mem_cons_self ..) rfl
    have values : (pairs p.2).foldlM push ⟨branches done, some ([], p.1, false), leaves []⟩ =
        some ⟨branches done, some ([], p.1, false), leaves ([] ++ p.2)⟩ :=
      foldlM_pairs (keys p (List.mem_cons_self ..))
    rw [List.append_cons] at distinct ⊢
    obtain ⟨d', later, closed'⟩ := ih (d := ⟨branches done, some ([], p.1, false), leaves p.2⟩)
      distinct (fun q hq => keys q (List.mem_cons_of_mem _ hq))
      (by rw [close_header fresh]; simp [branches])
    refine ⟨d', ?_, closed'⟩
    have whole : statements (p :: file) = .header [] p.1 :: (pairs p.2 ++ statements file) := rfl
    rw [whole, List.foldlM_cons, push_header closed fresh]
    show List.foldlM push ⟨branches done, some ([], p.1, false), leaves []⟩
      (pairs p.2 ++ statements file) = some d'
    rw [List.foldlM_append, values]
    exact later

end Draft

theorem assemble?_statements {t : List Char} {file : List (String × List (String × Value))}
    (h : Sections t file) :
    assemble? (statements file) = some (file.map fun (name, ps) => (name, .table ps)) := by
  obtain ⟨d, built, closed⟩ : ∃ d, (statements file).foldlM Draft.push {} = some d ∧
      d.close = some (branches ([] ++ file)) :=
    Draft.foldlM_statements h.nodup (fun _ => h.nodup_of_mem) rfl
  rw [assemble?, built]
  show d.close.bind _ = _
  rw [closed]
  exact congrArg some (entries_branches file)

/-- **Written sections are read back** as the table of them. -/
theorem parse?_sections {t : List Char} {file : List (String × List (String × Value))}
    (h : Sections t file) :
    parse? (String.ofList t) = some (file.map fun (name, ps) => (name, .table ps)) := by
  have plain : dropMark t = t := by
    cases h <;> rfl
  rw [parse?, String.toList_ofList]
  simp only [plain, h.comes _ (Nat.lt_succ_self _), Option.bind_some, assemble?_statements h]

end ImageBuild.Toml
