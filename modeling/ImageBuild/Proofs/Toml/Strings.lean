import ImageBuild.Toml.Printer
import ImageBuild.Toml.Scan

/-!
# Written strings are read back

A string is written in one of four forms, and from each of them the same characters
are read (`string?_string`). In a form of several lines up to two quotes may stand
together as they are; the relation `Body` says what may be written, with the number of
quotes that have just been written.
-/

namespace ImageBuild.Toml

open Scan

/-- **What a reader with fuel comes to**, if it has more fuel than there are characters. -/
def Comes {β : Type} (read : Nat → List Char → Option β) (s : List Char) (b : β) : Prop :=
  ∀ fuel, s.length < fuel → read fuel s = some b

/-! ## Characters -/

/-- Whether these characters stand for `c` after a backslash, and do not end a line. -/
def IsEscape (e : List Char) (c : Char) : Prop :=
  ∀ t, continuation? (e ++ t) = none ∧ escape? (e ++ t) = some (c, t)

theorem hexDigit?_hexChar : ∀ d < 16, hexDigit? (Print.hexChar d) = some d := by decide

theorem codePoint?_toNat (c : Char) : codePoint? c.toNat = some c := by
  have valid : c.toNat.isValidChar := c.valid
  have same := Char.ofNat_toNat c
  rw [Char.ofNat, dif_pos valid] at same
  rw [codePoint?, dif_pos valid, same]

theorem isEscape_hex {c : Char} (h : c.toNat < 0x80) :
    IsEscape ['u', '0', '0', Print.hexChar (c.toNat / 16), Print.hexChar (c.toNat % 16)] c := by
  intro t
  refine ⟨rfl, ?_⟩
  have zero : hexDigit? '0' = some 0 := by decide
  have number : hexNumber 0 4 ('0' :: '0' :: Print.hexChar (c.toNat / 16) ::
      Print.hexChar (c.toNat % 16) :: t) = some (c.toNat, t) := by
    simp only [hexNumber, zero, hexDigit?_hexChar (c.toNat / 16) (by omega),
      hexDigit?_hexChar (c.toNat % 16) (by omega)]
    congr 2
    omega
  show (hexNumber 0 4 ('0' :: '0' :: Print.hexChar (c.toNat / 16) ::
    Print.hexChar (c.toNat % 16) :: t)).bind _ = _
  rw [number, Option.bind_some]
  simp only [codePoint?_toNat, Option.map_some]

theorem isControl_iff {c : Char} : Print.isControl c = true ↔
    c.toNat ≤ 0x1F ∧ c ≠ '\t' ∧ c ≠ '\n' ∨ c.toNat = 0x7F := by
  simp [Print.isControl, and_assoc]

theorem isText_of_not_isControl {c : Char} (h : Print.isControl c = false) (newline : c ≠ '\n') :
    isText c = true := by
  by_cases tab : c = '\t'
  · rw [tab]
    rfl
  · have free : ¬ (c.toNat ≤ 0x1F ∨ c.toNat = 0x7F) := by
      rintro (low | del)
      · exact Bool.eq_false_iff.1 h (isControl_iff.2 (.inl ⟨low, tab, newline⟩))
      · exact Bool.eq_false_iff.1 h (isControl_iff.2 (.inr del))
    have le (a b : Char) : a ≤ b ↔ a.toNat ≤ b.toNat := UInt32.le_iff_toNat_le
    have ends : '~'.toNat = 0x7E ∧ ' '.toNat = 0x20 ∧ '\x80'.toNat = 0x80 := by decide
    simp only [isText, Bool.or_eq_true, Bool.and_eq_true, decide_eq_true_eq, le]
    omega

/-- **How a character is written**: with an escape, or as it is. -/
theorem escape_cases (multi : Bool) (c : Char) :
    (∃ e, Print.escape multi c = '\\' :: e ∧ IsEscape e c) ∨
      Print.escape multi c = [c] ∧ c ≠ '"' ∧ c ≠ '\\' ∧
        (isText c = true ∨ multi = true ∧ c = '\n') := by
  have named {d : Char} {e : List Char} (h : c = d) (he : IsEscape e d) :
      ∃ e', '\\' :: e = '\\' :: e' ∧ IsEscape e' c := ⟨e, rfl, h ▸ he⟩
  unfold Print.escape
  split
  · next h => exact .inl (named h fun t => ⟨rfl, rfl⟩)
  split
  · next h => exact .inl (named h fun t => ⟨rfl, rfl⟩)
  split
  · next h => exact .inl (named h fun t => ⟨rfl, rfl⟩)
  split
  · next quote _ _ h =>
    cases multi with
    | true => exact .inr ⟨rfl, quote, by rw [h]; decide, .inr ⟨rfl, h⟩⟩
    | false => exact .inl (named h fun t => ⟨rfl, rfl⟩)
  split
  · next h => exact .inl (named h fun t => ⟨rfl, rfl⟩)
  split
  · next h => exact .inl (named h fun t => ⟨rfl, rfl⟩)
  split
  · next h => exact .inl (named h fun t => ⟨rfl, rfl⟩)
  split
  · next h =>
    refine .inl ⟨_, rfl, isEscape_hex ?_⟩
    rcases isControl_iff.1 h with ⟨low, -⟩ | del <;> omega
  · next quote _ _ newline _ _ slash h =>
    exact .inr ⟨rfl, quote, slash, .inl (isText_of_not_isControl (Bool.eq_false_iff.2 h) newline)⟩

/-! ## One line -/

theorem basic_escaped (cs rest : List Char) :
    Comes basic (Print.escaped false 0 0 cs ++ '"' :: rest) (cs, rest) := by
  intro fuel more
  induction cs generalizing fuel with
  | nil =>
    cases fuel with
    | zero => cases more
    | succ fuel => rfl
  | cons c cs ih =>
    have one : Print.escaped false 0 0 (c :: cs) ++ '"' :: rest =
        Print.escape false c ++ (Print.escaped false 0 0 cs ++ '"' :: rest) := by
      rw [Print.escaped, if_neg (by simp), List.append_assoc]
    rw [one] at more ⊢
    cases fuel with
    | zero => cases more
    | succ fuel =>
      rcases escape_cases false c with ⟨e, he, escapes⟩ | ⟨he, quote, slash, text⟩
      · rw [he, List.cons_append, List.length_cons, List.length_append] at more
        rw [he, List.cons_append, basic, if_neg (by decide), if_pos rfl, (escapes _).2,
          Option.bind_some]
        simp only
        rw [ih fuel (by omega)]
        rfl
      · have text : isText c = true := text.resolve_right fun h => Bool.false_ne_true h.1
        rw [he, List.singleton_append, List.length_cons] at more
        rw [he, List.singleton_append, basic, if_neg quote, if_neg slash, if_pos text,
          ih fuel (by omega)]
        rfl

theorem literal_append {cs : List Char} (h : ∀ c ∈ cs, c ≠ '\'' ∧ isText c = true)
    (rest : List Char) : literal (cs ++ '\'' :: rest) = some (cs, rest) := by
  induction cs with
  | nil => rfl
  | cons c cs ih =>
    obtain ⟨quote, text⟩ := h c (List.mem_cons_self ..)
    rw [List.cons_append, literal, if_neg quote, if_pos text,
      ih fun d hd => h d (List.mem_cons_of_mem _ hd)]
    rfl

/-! ## Several lines -/

/-- **What may be written of a string of several lines**, after a run of quotes. -/
inductive Body (q : Char) (escapes : Bool) : Nat → List Char → List Char → Prop where
  | nil {run : Nat} : Body q escapes run [] []
  | quote {run : Nat} {cs t : List Char} (few : run < 2) (h : Body q escapes (run + 1) cs t) :
      Body q escapes run (q :: cs) (q :: t)
  | plain {run : Nat} {c : Char} {cs t : List Char} (quote : c ≠ q)
      (slash : ¬ (c = '\\' ∧ escapes)) (text : isText c = true ∨ c = '\n')
      (h : Body q escapes 0 cs t) : Body q escapes run (c :: cs) (c :: t)
  | escape {run : Nat} {c : Char} {e cs t : List Char} (allowed : escapes = true)
      (he : IsEscape e c) (h : Body q escapes 0 cs t) :
      Body q escapes run (c :: cs) ('\\' :: e ++ t)

section MultiLine

variable {q : Char} {escapes : Bool} {cs t rest : List Char}

theorem length_takeWhile_quotes (n : Nat) (h : t.head? ≠ some q) :
    ((List.replicate n q ++ t).takeWhile (· == q)).length = n := by
  have stop : t.takeWhile (· == q) = [] := by
    cases t with
    | nil => rfl
    | cons c t => exact List.takeWhile_cons_of_neg (by simpa using h)
  rw [List.takeWhile_append_of_pos (by simp), stop, List.append_nil, List.length_replicate]

theorem comes_close {run : Nat} (few : run ≤ 2) (h : rest.head? ≠ some q) :
    Comes (multiLine q escapes) (List.replicate (run + 3) q ++ rest)
      (List.replicate run q, rest) := by
  intro fuel more
  cases fuel with
  | zero => cases more
  | succ fuel =>
    have seen : quotes q (List.replicate (run + 3) q ++ rest) = (run, some rest) := by
      have three : ¬ run + 3 < 3 := by omega
      simp only [quotes, length_takeWhile_quotes (run + 3) h, if_neg three]
      rw [show min (run + 3 - 3) 2 = run by omega, show min (run + 3) 5 = run + 3 by omega,
        List.drop_left' List.length_replicate]
    rw [show run + 3 = run + 2 + 1 from rfl, List.replicate_succ, List.cons_append] at seen ⊢
    simp only [multiLine, if_true, seen]

theorem comes_quotes {run : Nat} (few : run ≤ 2) (h : t.head? ≠ some q)
    (later : Comes (multiLine q escapes) t (cs, rest)) :
    Comes (multiLine q escapes) (List.replicate run q ++ t) (List.replicate run q ++ cs, rest) := by
  cases run with
  | zero => exact later
  | succ run =>
    intro fuel more
    cases fuel with
    | zero => cases more
    | succ fuel =>
      have seen : quotes q (List.replicate (run + 1) q ++ t) = (run + 1, none) := by
        simp only [quotes, length_takeWhile_quotes (run + 1) h, if_pos (show run + 1 < 3 by omega)]
      have dropped : (List.replicate (run + 1) q ++ t).drop (run + 1) = t :=
        List.drop_left' List.length_replicate
      rw [List.length_append, List.length_replicate] at more
      rw [List.replicate_succ, List.cons_append] at seen dropped ⊢
      simp only [multiLine, if_true, seen, dropped, later fuel (by omega)]
      rfl

theorem comes_plain {c : Char} (quote : c ≠ q) (slash : ¬ (c = '\\' ∧ escapes = true))
    (text : isText c = true ∨ c = '\n') (later : Comes (multiLine q escapes) t (cs, rest)) :
    Comes (multiLine q escapes) (c :: t) (c :: cs, rest) := by
  intro fuel more
  cases fuel with
  | zero => cases more
  | succ fuel =>
    rw [List.length_cons] at more
    have later := later fuel (by omega)
    rw [multiLine, if_neg quote, if_neg slash]
    by_cases newline : c = '\n'
    · subst newline
      simp only [newline?, later, Option.map_some]
    · have text := text.resolve_right newline
      have inLine : newline? (c :: t) = none := by
        unfold newline?
        split
        · next h => exact absurd (List.cons.inj h).1 newline
        · next h =>
          rw [(List.cons.inj h).1] at text
          cases text
        · rfl
      simp only [inLine, if_pos text, later, Option.map_some]

theorem comes_escape {c : Char} {e : List Char} (allowed : escapes = true) (quote : q ≠ '\\')
    (he : IsEscape e c) (later : Comes (multiLine q escapes) t (cs, rest)) :
    Comes (multiLine q escapes) ('\\' :: (e ++ t)) (c :: cs, rest) := by
  intro fuel more
  cases fuel with
  | zero => cases more
  | succ fuel =>
    rw [List.length_cons, List.length_append] at more
    obtain ⟨goesOn, escapes⟩ := he t
    rw [multiLine, if_neg quote.symm, if_pos ⟨rfl, allowed⟩]
    simp only [goesOn, escapes, Option.bind_some, later fuel (by omega), Option.map_some]

/-- **A string of several lines** is read back, whatever run of quotes stands before it. -/
theorem comes_body {run : Nat} (h : Body q escapes run cs t) (few : run ≤ 2) (quote : q ≠ '\\')
    (ends : rest.head? ≠ some q) :
    Comes (multiLine q escapes) (List.replicate run q ++ (t ++ (List.replicate 3 q ++ rest)))
      (List.replicate run q ++ cs, rest) := by
  induction h with
  | @nil run =>
    rw [List.nil_append, ← List.append_assoc, List.replicate_append_replicate, List.append_nil]
    exact comes_close few ends
  | @quote run cs t lt _ ih =>
    have shift (xs : List Char) : List.replicate run q ++ q :: xs =
        List.replicate (run + 1) q ++ xs := by
      rw [List.replicate_succ', List.append_assoc]
      rfl
    rw [List.cons_append, shift, shift]
    exact ih lt
  | plain other slash text _ ih =>
    exact comes_quotes few (by simpa using other) (comes_plain other slash text (ih (by omega)))
  | escape allowed he _ ih =>
    rw [List.cons_append, List.cons_append, List.append_assoc]
    exact comes_quotes few (by simpa using quote.symm) (comes_escape allowed quote he (ih (by omega)))

end MultiLine

/-! ## What is written -/

theorem body_escaped {run : Nat} (cs : List Char) :
    Body '"' true run cs (Print.escaped true 2 run cs) := by
  induction cs generalizing run with
  | nil => exact .nil
  | cons c cs ih =>
    rw [Print.escaped]
    split
    · next h =>
      obtain ⟨rfl, few⟩ := h
      exact .quote few ih
    · rcases escape_cases true c with ⟨e, he, escapes⟩ | ⟨he, quote, slash, text⟩
      · rw [he]
        exact .escape rfl escapes ih
      · rw [he]
        exact .plain quote (fun h => slash h.1) (text.imp_right And.right) ih

theorem le_longestRun (q : Char) (run : Nat) (cs : List Char) :
    run ≤ Print.longestRun q run cs := by
  induction cs generalizing run with
  | nil => exact Nat.le_refl run
  | cons c cs ih =>
    rw [Print.longestRun]
    split
    · exact Nat.le_trans (Nat.le_succ run) (ih (run + 1))
    · exact Nat.le_max_left ..

/-- Without escapes: no run of quotes may be longer than two. -/
theorem body_plain {q : Char} {run : Nat} {cs : List Char} (few : Print.longestRun q run cs ≤ 2)
    (text : ∀ c ∈ cs, isText c = true ∨ c = '\n') : Body q false run cs cs := by
  induction cs generalizing run with
  | nil => exact .nil
  | cons c cs ih =>
    have text' : ∀ d ∈ cs, isText d = true ∨ d = '\n' :=
      fun d hd => text d (List.mem_cons_of_mem _ hd)
    rw [Print.longestRun] at few
    split at few
    · next h =>
      rw [h]
      have lt := le_longestRun q (run + 1) cs
      exact .quote (by omega) (ih few text')
    · next other =>
      exact .plain other (by simp) (text c (List.mem_cons_self ..)) (ih (by omega) text')

/-! ## Forms -/

theorem mem_of_longestRun_pos {q : Char} {cs : List Char} (run : Nat) (h : q ∈ cs) :
    0 < Print.longestRun q run cs := by
  induction cs generalizing run with
  | nil => cases h
  | cons c cs ih =>
    rw [Print.longestRun]
    split
    · exact Nat.lt_of_lt_of_le run.succ_pos (le_longestRun q (run + 1) cs)
    · next other =>
      have later := ih 0 ((List.mem_cons.1 h).resolve_left (Ne.symm other))
      omega

/-- **What the form of a string says** of its characters. -/
def Print.Form.Suits (cs : List Char) : Print.Form → Prop
  | .basic | .multiBasic => True
  | .literal => cs ≠ [] ∧ ∀ c ∈ cs, c ≠ '\'' ∧ isText c = true
  | .multiLiteral => Print.longestRun '\'' 0 cs ≤ 2 ∧ ∀ c ∈ cs, isText c = true ∨ c = '\n'

theorem suits_form (cs : List Char) : (Print.form cs).Suits cs := by
  have text (h : cs.any Print.isControl = false) : ∀ c ∈ cs, isText c = true ∨ c = '\n' := by
    intro c hc
    have plain : Print.isControl c = false := Bool.eq_false_iff.2 (List.any_eq_false.1 h c hc)
    by_cases newline : c = '\n'
    · exact .inr newline
    · exact .inl (isText_of_not_isControl plain newline)
  unfold Print.form
  simp only
  split
  · trivial
  · next plainer =>
    split
    · next h =>
      simp only [Bool.and_eq_true, Bool.not_eq_true', beq_iff_eq] at h
      obtain ⟨⟨control, single⟩, newline⟩ := h
      constructor
      · rintro rfl
        exact plainer rfl
      · intro c hc
        constructor
        · rintro rfl
          have := mem_of_longestRun_pos 0 hc
          omega
        · refine (text control c hc).resolve_right ?_
          rintro rfl
          exact Bool.eq_false_iff.1 newline (List.contains_iff_mem.2 hc)
    · split
      · trivial
      · split
        · next h =>
          simp only [Bool.and_eq_true, Bool.not_eq_true', decide_eq_true_eq] at h
          exact ⟨h.2, text h.1⟩
        · split <;> trivial

theorem newline?_body {q : Char} {escapes : Bool} {run : Nat} {cs t : List Char}
    (h : Body q escapes run cs t) (newline : '\n' ∉ cs) (quote : q = '"' ∨ q = '\'')
    (rest : List Char) : newline? (t ++ (List.replicate 3 q ++ rest)) = none := by
  cases h with
  | nil => rcases quote with rfl | rfl <;> rfl
  | quote few _ => rcases quote with rfl | rfl <;> rfl
  | @plain _ c _ _ other slash text _ =>
    have text := text.resolve_right fun h => newline (h ▸ List.mem_cons_self ..)
    have other : c ≠ '\n' := fun h => newline (h ▸ List.mem_cons_self ..)
    unfold newline?
    split
    · next h => exact absurd (List.cons.inj h).1 other
    · next h =>
      rw [(List.cons.inj h).1] at text
      cases text
    · rfl
  | escape allowed he _ => rfl

theorem length_dropNewline_le (t : List Char) : (dropNewline t).length ≤ t.length := by
  unfold dropNewline
  cases h : newline? t with
  | none => exact Nat.le_refl _
  | some r => exact Nat.le_of_lt (length_newline? h)

/-- **A string of several lines** is read back, with the end of a line put before it if it has
one. -/
theorem string?_lines {q : Char} {escapes : Bool} {cs t rest : List Char}
    (h : Body q escapes 0 cs t) (quote : q = '"' ∧ escapes = true ∨ q = '\'' ∧ escapes = false)
    (ends : rest.head? ≠ some q) :
    string? (List.replicate 3 q ++ ((if cs.contains '\n' then ['\n'] else []) ++
      (t ++ (List.replicate 3 q ++ rest)))) = some (String.ofList cs, rest) := by
  have opens (u : List Char) : string? (List.replicate 3 q ++ u) =
      (multiLine q escapes (u.length + 3) (dropNewline u)).map
        fun found => (String.ofList found.1, found.2) := by
    rcases quote with ⟨rfl, rfl⟩ | ⟨rfl, rfl⟩ <;> rfl
  have quote : q = '"' ∨ q = '\'' := quote.imp And.left And.left
  have slash : q ≠ '\\' := by rcases quote with rfl | rfl <;> decide
  have read : Comes (multiLine q escapes) (t ++ (List.replicate 3 q ++ rest)) (cs, rest) :=
    comes_body h (Nat.zero_le 2) slash ends
  have first : dropNewline ((if cs.contains '\n' then ['\n'] else []) ++
      (t ++ (List.replicate 3 q ++ rest))) = t ++ (List.replicate 3 q ++ rest) := by
    split
    · rfl
    · next newline =>
      rw [List.nil_append, dropNewline,
        newline?_body h (fun h => newline (List.contains_iff_mem.2 h)) quote rest]
      rfl
  generalize (if cs.contains '\n' then ['\n'] else []) = start at first ⊢
  have le := length_dropNewline_le (start ++ (t ++ (List.replicate 3 q ++ rest)))
  rw [opens, first]
  rw [first] at le
  rw [read _ (by omega)]
  rfl

theorem string?_basic {t : List Char} (h : ∀ u, t ≠ '"' :: '"' :: u) :
    string? ('"' :: t) = (basic (t.length + 1) t).map fun (cs, rest) => (String.ofList cs, rest) := by
  unfold string?
  split
  · next heq => exact absurd (List.cons.inj heq).2 (h _)
  · next heq =>
    cases heq
    rfl
  · next heq => cases heq
  · next heq => cases heq
  · next other _ _ => exact absurd rfl (other t)

theorem string?_literal {t : List Char} (h : ∀ u, t ≠ '\'' :: '\'' :: u) :
    string? ('\'' :: t) = (literal t).map fun (cs, rest) => (String.ofList cs, rest) := by
  unfold string?
  split
  · next heq => cases heq
  · next heq => cases heq
  · next heq => exact absurd (List.cons.inj heq).2 (h _)
  · next heq =>
    cases heq
    rfl
  · next other => exact absurd rfl (other t)

/-- **Any string** is read back from what is written of it. -/
theorem string?_string (s : String) {rest : List Char} (double : rest.head? ≠ some '"')
    (single : rest.head? ≠ some '\'') : string? (Print.string s ++ rest) = some (s, rest) := by
  have suits := suits_form s.toList
  have whole {x : Option (List Char × List Char)} (h : x = some (s.toList, rest)) :
      (x.map fun (cs, rest) => (String.ofList cs, rest)) = some (s, rest) := by
    simp only [h, Option.map_some, String.ofList_toList]
  unfold Print.string
  simp only
  generalize hf : Print.form s.toList = f at suits ⊢
  cases f with
  | basic =>
    show string? ('"' :: ([] ++ Print.escaped false 0 0 s.toList ++ ['"'] ++ rest)) = _
    rw [List.nil_append, List.append_assoc, List.singleton_append]
    rw [string?_basic ?_]
    · exact whole (basic_escaped s.toList rest _ (Nat.lt_succ_self _))
    · intro u hu
      cases hs : s.toList with
      | nil =>
        rw [hs] at hu
        rw [(List.cons.inj hu).2] at double
        exact double rfl
      | cons c cs =>
        rw [hs, Print.escaped, if_neg (by simp)] at hu
        rcases escape_cases false c with ⟨e, he, -⟩ | ⟨he, quote, -⟩
        · rw [he] at hu
          cases (List.cons.inj hu).1
        · rw [he] at hu
          exact quote (List.cons.inj hu).1
  | literal =>
    obtain ⟨some, all⟩ := suits
    show string? ('\'' :: ([] ++ s.toList ++ ['\''] ++ rest)) = _
    rw [List.nil_append, List.append_assoc, List.singleton_append]
    rw [string?_literal ?_]
    · exact whole (literal_append all rest)
    · intro u hu
      cases hs : s.toList with
      | nil => exact some hs
      | cons c cs =>
        rw [hs] at hu
        exact (all c (hs ▸ List.mem_cons_self ..)).1 (List.cons.inj hu).1
  | multiBasic =>
    show string? (List.replicate 3 '"' ++ (if s.toList.contains '\n' then ['\n'] else []) ++
      Print.escaped true 2 0 s.toList ++ List.replicate 3 '"' ++ rest) = _
    rw [List.append_assoc, List.append_assoc, List.append_assoc,
      string?_lines (body_escaped s.toList) (.inl ⟨rfl, rfl⟩) double, String.ofList_toList]
  | multiLiteral =>
    obtain ⟨few, text⟩ := suits
    show string? (List.replicate 3 '\'' ++ (if s.toList.contains '\n' then ['\n'] else []) ++
      s.toList ++ List.replicate 3 '\'' ++ rest) = _
    rw [List.append_assoc, List.append_assoc, List.append_assoc,
      string?_lines (body_plain few text) (.inr ⟨rfl, rfl⟩) single, String.ofList_toList]

end ImageBuild.Toml
