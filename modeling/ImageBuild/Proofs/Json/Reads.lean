import ImageBuild.Json.Record
import ImageBuild.Proofs.Json.Scalars

/-!
# Written values are read back

`Reads p s a` says that the reader `p` finds the value `a` in the written text
`s`, whatever follows, and leaves what follows. It holds of scalars, and of an
object when it holds of its members (`Folds`), so it holds of a record when it
holds of its fields. The texts of a stream are read one after another.
-/

namespace ImageBuild.Json

theorem skipBlank_cons {b : UInt8} (h : isBlank b = false) (s : Octets) :
    skipBlank (b :: s) = b :: s := by
  simp [skipBlank, h]

theorem skipBlank_blank {b : UInt8} (h : isBlank b = true) (s : Octets) :
    skipBlank (b :: s) = skipBlank s := by
  simp [skipBlank, h]

namespace Reader

variable {α β : Type}

/-- **Reading back:** the reader finds this value in this text. -/
def Reads (p : Reader α) (s : Octets) (a : α) : Prop :=
  ∀ rest, Ends rest → p.run (s ++ rest) = .ok (a, rest)

theorem Reads.map {p : Reader α} {s : Octets} {a : α} (h : p.Reads s a) (f : α → β) :
    (p.map f).Reads s (f a) := by
  intro rest hr
  simp only [Reader.map, h rest hr]

/-! ## Scalars -/

theorem reads_string (t : String) : Reader.string.Reads (Print.string t) t := by
  intro rest _
  show Reader.string.run (0x22 :: ((Text.encode t).flatMap Print.escape ++ [0x22] ++ rest)) = _
  rw [List.append_assoc]
  simp only [Reader.string, ofFirst, skipBlank_cons (b := 0x22) (by decide), if_true]
  exact Quoted.read_escapes t rest

theorem nat_eq_cons (n : Nat) : ∃ b s, Print.nat n = b :: s ∧ Numeral.isDigit b = true := by
  rw [Numeral.nat_eq]
  have lt (d) (hd : d ∈ Text.Decimal.digits n) : d < 10 := Text.Decimal.lt_ten_of_mem_digits hd
  rcases hd : Text.Decimal.digits n with _ | ⟨d, ds⟩
  · exact absurd hd (Text.Decimal.digits_ne_nil n)
  · exact ⟨_, Numeral.octets ds, rfl, Numeral.isDigit_octet d (lt d (hd ▸ List.mem_cons_self ..))⟩

theorem isBlank_of_isDigit {b : UInt8} (h : Numeral.isDigit b = true) : isBlank b = false := by
  refine Bool.eq_false_iff.2 fun hb => ?_
  simp only [isBlank, Bool.or_eq_true, beq_iff_eq] at hb
  rcases hb with ((rfl | rfl) | rfl) | rfl <;> cases h

theorem reads_integer {expected : String} {accept : Int → Option α} {n : Nat} {a : α}
    (hn : n ≤ Text.Integer.maxU64) (ha : accept n = some a) :
    (integer expected accept).Reads (Print.nat n) a := by
  intro rest hr
  have hread := Numeral.read_nat false hn hr
  obtain ⟨b, s, hb, hd⟩ := nat_eq_cons n
  rw [hb] at hread ⊢
  have hm : b ≠ 0x2D := by
    rintro rfl
    cases hd
  rw [List.cons_append] at hread ⊢
  simp only [integer, ofFirst, skipBlank_cons (isBlank_of_isDigit hd), if_neg hm, if_pos hd, hread]
  have hn' : n ≤ 0xFFFFFFFFFFFFFFFF := hn
  simp only [Numeral.ofSignificand, dif_pos hn', Bool.false_eq_true, if_false, acceptInteger, ha]

theorem reads_u64 (n : UInt64) : u64.Reads (Print.nat n.toNat) n := by
  have hn : n.toNat ≤ 0xFFFFFFFFFFFFFFFF := Nat.le_of_lt_succ n.toNat_lt
  refine reads_integer hn ?_
  rw [if_pos (by omega)]
  simp

theorem reads_u16 (n : UInt16) : u16.Reads (Print.nat n.toNat) n := by
  have hn : n.toNat ≤ 0xFFFF := Nat.le_of_lt_succ n.toNat_lt
  refine reads_integer (Nat.le_trans hn (by decide)) ?_
  rw [if_pos (by omega)]
  simp

/-- A text that begins like a value and not like a null. -/
def IsGiven (s : Octets) : Prop := ∃ b t, s = b :: t ∧ isBlank b = false ∧ b ≠ 0x6E

theorem isGiven_string (t : String) : IsGiven (Print.string t) :=
  ⟨0x22, _, rfl, by decide, by decide⟩

theorem isGiven_object (ms : List (String × Octets)) : IsGiven (Print.object ms) :=
  ⟨0x7B, _, rfl, by decide, by decide⟩

theorem isGiven_nat (n : Nat) : IsGiven (Print.nat n) := by
  obtain ⟨b, s, hb, hd⟩ := nat_eq_cons n
  refine ⟨b, s, hb, isBlank_of_isDigit hd, ?_⟩
  rintro rfl
  cases hd

theorem Reads.option {p : Reader α} {s : Octets} {a : α} (h : p.Reads s a) (hs : IsGiven s) :
    (Reader.option p).Reads s (some a) := by
  intro rest hr
  have hrun := h rest hr
  obtain ⟨b, t, rfl, hb, hn⟩ := hs
  rw [List.cons_append] at hrun ⊢
  unfold Reader.option
  dsimp only
  rw [skipBlank_cons hb]
  split
  · next heq =>
    cases heq
    exact absurd rfl hn
  · rw [hrun]

/-! ## Objects -/

variable {σ : Type} {take : σ → String → Except Cause (Reader (σ → σ))} {acc acc' acc'' : σ}

/-- **Members are read** one after another, each changing what was collected. -/
inductive Folds (take : σ → String → Except Cause (Reader (σ → σ))) :
    σ → List (String × Octets) → σ → Prop where
  | nil {acc : σ} : Folds take acc [] acc
  | cons {acc acc' : σ} {name : String} {s : Octets} {ms : List (String × Octets)}
      {p : Reader (σ → σ)} {f : σ → σ} (found : take acc name = .ok p) (value : p.Reads s f)
      (rest : Folds take (f acc) ms acc') : Folds take acc ((name, s) :: ms) acc'

theorem Folds.append {ms ns : List (String × Octets)} (h : Folds take acc ms acc')
    (h' : Folds take acc' ns acc'') : Folds take acc (ms ++ ns) acc'' := by
  induction h with
  | nil => exact h'
  | cons found value rest ih => exact .cons found value (ih h')

theorem foldMembers_end {first : Bool} {s rest : Octets}
    (ends : nextMember first s = .ok (.close rest)) :
    foldMembers take acc first s = .ok (acc, rest) := by
  rw [foldMembers]
  split
  · next h => rw [ends] at h; cases h
  · next h =>
    rw [ends] at h
    cases h
    rfl
  · next h => rw [ends] at h; cases h

theorem foldMembers_step {first : Bool} {s t u v r : Octets} {name : String}
    {p : Reader (σ → σ)} {f : σ → σ} (begins : nextMember first s = .ok (.part t))
    (named : Quoted.read t = .ok (name, u)) (found : take acc name = .ok p)
    (colon : readColon u = .ok v) (value : p.run v = .ok (f, r)) :
    foldMembers take acc first s = foldMembers take (f acc) false r := by
  -- four reads, each of which goes as a hypothesis says
  rw [foldMembers]
  split
  · next h => rw [begins] at h; cases h
  · next h => rw [begins] at h; cases h
  · next h =>
    rw [begins] at h
    cases h
    split
    · next h => rw [named] at h; cases h
    · next h =>
      rw [named] at h
      cases h
      rw [found]
      dsimp only
      split
      · next h => rw [colon] at h; cases h
      · next h =>
        rw [colon] at h
        cases h
        split
        · next h => rw [value] at h; cases h
        · next h =>
          rw [value] at h
          cases h
          rfl

theorem foldMembers_part {first : Bool} {s t v : Octets} {name : String} {p : Reader (σ → σ)}
    {f : σ → σ}
    (hs : nextMember first s =
      .ok (.part ((Text.encode name).flatMap Print.escape ++ 0x22 :: 0x3A :: (v ++ t))))
    (found : take acc name = .ok p) (value : p.Reads v f) (ht : Ends t) :
    foldMembers take acc first s = foldMembers take (f acc) false t := by
  have colon : readColon (0x3A :: (v ++ t)) = .ok (v ++ t) := by
    simp [readColon, skipBlank_cons (b := 0x3A) (by decide)]
  exact foldMembers_step hs (Quoted.read_escapes name _) found colon (value t ht)

theorem commas_cons (x : Octets) (xs : List Octets) :
    Print.commas (x :: xs) = x ++ xs.flatMap (0x2C :: ·) := by
  induction xs generalizing x with
  | nil => simp [Print.commas]
  | cons y ys ih =>
    show x ++ 0x2C :: Print.commas (y :: ys) = _
    rw [ih, List.flatMap_cons, List.cons_append]

def more (ms : List (String × Octets)) : Octets := ms.flatMap fun m => 0x2C :: Print.member m.1 m.2

theorem commas_members (x : Octets) (ms : List (String × Octets)) :
    Print.commas (x :: ms.map fun m => Print.member m.1 m.2) = x ++ more ms := by
  rw [commas_cons, List.flatMap_map]
  rfl

theorem ends_more (ms : List (String × Octets)) (rest : Octets) :
    Ends (more ms ++ 0x7D :: rest) := by
  cases ms with
  | nil => exact ends_cons (by decide)
  | cons m ms => exact ends_cons (by decide)

theorem foldMembers_close (take : σ → String → Except Cause (Reader (σ → σ))) (acc : σ)
    (first : Bool) (rest : Octets) :
    foldMembers take acc first (0x7D :: rest) = .ok (acc, rest) := by
  apply foldMembers_end
  simp [nextMember, skipBlank_cons (b := 0x7D) (by decide)]

theorem member_append (name : String) (s t : Octets) :
    Print.member name s ++ t =
      0x22 :: ((Text.encode name).flatMap Print.escape ++ 0x22 :: 0x3A :: (s ++ t)) := by
  show 0x22 :: ((Text.encode name).flatMap Print.escape ++ [0x22]) ++ 0x3A :: s ++ t = _
  simp

theorem nextMember_quote (t : Octets) : nextMember true (0x22 :: t) = .ok (.part t) := by
  simp [nextMember, skipBlank_cons (b := 0x22) (by decide)]

theorem nextMember_comma (t : Octets) : nextMember false (0x2C :: 0x22 :: t) = .ok (.part t) := by
  simp [nextMember, skipBlank_cons (b := 0x2C) (by decide), skipBlank_cons (b := 0x22) (by decide)]

theorem foldMembers_more {ms : List (String × Octets)} (h : Folds take acc ms acc')
    (rest : Octets) : foldMembers take acc false (more ms ++ 0x7D :: rest) = .ok (acc', rest) := by
  induction h with
  | nil => exact foldMembers_close take _ false rest
  | @cons acc acc' name s ms p f found value _ ih =>
    rw [← ih]
    refine foldMembers_part (v := s) ?_ found value (ends_more ms rest)
    have : more ((name, s) :: ms) ++ 0x7D :: rest =
        0x2C :: (Print.member name s ++ (more ms ++ 0x7D :: rest)) := by
      simp [more]
    rw [this, member_append, nextMember_comma]

/-- **Written members** are read back. -/
theorem foldMembers_commas {ms : List (String × Octets)} (h : Folds take acc ms acc')
    (rest : Octets) :
    foldMembers take acc true
      (Print.commas (ms.map fun m => Print.member m.1 m.2) ++ 0x7D :: rest) = .ok (acc', rest) := by
  cases h with
  | nil => exact foldMembers_close take _ true rest
  | @cons _ _ name s ms p f found value after =>
    rw [← foldMembers_more after rest]
    refine foldMembers_part (v := s) ?_ found value (ends_more ms rest)
    rw [List.map_cons, commas_members, List.append_assoc, member_append, nextMember_quote]

theorem reads_value_object {ms : List (String × Octets)} {depth : Nat} {d : Dict Value}
    (h : Folds (fun _ name => .ok ((value depth).map fun v d => d.insert name v)) .empty ms d) :
    (value (depth + 1)).Reads (Print.object ms) (.object d.entries) := by
  intro rest _
  show (value (depth + 1)).run (0x7B :: (Print.commas _ ++ [0x7D] ++ rest)) = _
  rw [List.append_assoc]
  simp only [value, ofFirst, skipBlank_cons (b := 0x7B) (by decide)]
  rw [if_neg (by decide), if_pos trivial, List.singleton_append, foldMembers_commas h]
  rfl

theorem run_value_scalar (depth : Nat) {b : UInt8} (hb : isBlank b = false) (hl : b ≠ 0x5B)
    (ho : b ≠ 0x7B) (s : Octets) : (value depth).run (b :: s) = scalar b s := by
  cases depth with
  | zero =>
    have hn : ¬ (b = 0x5B ∨ b = 0x7B) := fun h => h.elim hl ho
    simp only [value, ofFirst, skipBlank_cons hb, if_neg hn]
  | succ depth => simp only [value, ofFirst, skipBlank_cons hb, if_neg hl, if_neg ho]

theorem reads_value_string (depth : Nat) (t : String) :
    (value depth).Reads (Print.string t) (.string t) := by
  intro rest _
  show (value depth).run (0x22 :: ((Text.encode t).flatMap Print.escape ++ [0x22] ++ rest)) = _
  rw [run_value_scalar depth (by decide) (by decide) (by decide), scalar, if_pos rfl,
    List.append_assoc, List.singleton_append, Quoted.read_escapes]
  rfl

end Reader

/-! ## Records -/

namespace Shape

variable {R : Type} {k : Shape R}

/-- **A record** is read from the members that give its fields. -/
theorem reads_object {ms : List (String × Octets)} (r : R) (names : List String)
    (h : Reader.Folds k.take (k.initial, []) ms (r, names)) (hm : k.missing? names = none) :
    k.reader.Reads (Print.object ms) r := by
  intro rest _
  show k.reader.run (0x7B :: (Print.commas _ ++ [0x7D] ++ rest)) = _
  rw [List.append_assoc]
  simp only [reader, Reader.ofFirst, skipBlank_cons (b := 0x7B) (by decide), if_true, readObject,
    List.singleton_append]
  rw [Reader.foldMembers_commas h]
  simp only [hm]

theorem folds_field {T : Type} (r : R) (names : List String) (name : String) {need : Need}
    {p : Reader T} {set : R → T → R} {a : T} {s : Octets}
    (found : k.fields.find? (·.name == name) = some (.of name need p set))
    (once : name ∉ names) (value : p.Reads s a) :
    Reader.Folds k.take (r, names) [(name, s)] (set r a, name :: names) := by
  have taken : k.take (r, names) name =
      .ok ((p.map fun a r => set r a).map fun g x => (g x.1, name :: x.2)) := by
    simp only [take, found, if_neg once]
    rfl
  exact .cons taken ((value.map _).map _) .nil

/-- The name of a field that is left out when it has no value. -/
def given {T : Type} (name : String) (a : Option T) : List String := if a.isSome then [name] else []

@[simp] theorem mem_given {T : Type} {x name : String} {a : Option T} :
    x ∈ given name a ↔ a.isSome = true ∧ x = name := by
  unfold given
  split <;> simp_all

theorem folds_field? {T : Type} (r : R) (names : List String) (name : String) (a : Option T)
    {need : Need} {p : Reader T} {set : R → Option T → R} {write : T → Octets}
    (found : k.fields.find? (·.name == name) = some (.of name need (.option p) set))
    (once : name ∉ names) (value : ∀ v ∈ a, p.Reads (write v) v ∧ Reader.IsGiven (write v))
    (unset : set r none = r) :
    Reader.Folds k.take (r, names) (Print.field? name write a)
      (set r a, given name a ++ names) := by
  cases a with
  | none =>
    rw [unset]
    exact .nil
  | some v =>
    obtain ⟨reads, begins⟩ := value v rfl
    exact folds_field r names name found once (reads.option begins)

end Shape

/-! ## Streams -/

namespace Reader

variable {α : Type} {p : Reader α} {s t : Octets} {a : α}

/-- A reader that passes over blanks in front. -/
def PassesBlanks (p : Reader α) : Prop := ∀ b s, isBlank b = true → p.run (b :: s) = p.run s

theorem passesBlanks_shape {R : Type} (k : Shape R) : PassesBlanks k.reader := by
  intro b s hb
  simp only [Shape.reader, ofFirst, skipBlank_blank hb]

theorem stream_blank (hp : p.PassesBlanks) {b : UInt8} (hb : isBlank b = true) (s : Octets) :
    p.stream (b :: s) = p.stream s := by
  rw [stream, stream, skipBlank_blank hb, hp b s hb]

theorem stream_blanks (hp : p.PassesBlanks) {gap : Octets} (h : gap.all isBlank = true)
    (s : Octets) : p.stream (gap ++ s) = p.stream s := by
  induction gap with
  | nil => rfl
  | cons b gap ih =>
    obtain ⟨hb, hgap⟩ := Bool.and_eq_true_iff.1 h
    rw [List.cons_append, stream_blank hp hb, ih hgap]

theorem stream_step {r : Octets} (given : skipBlank s ≠ []) (value : p.run s = .ok (a, r)) :
    p.stream s = (p.stream r).map (a :: ·) := by
  rw [stream]
  split
  · next h => exact absurd h given
  · split
    · next h => rw [value] at h; cases h
    · next h =>
      rw [value] at h
      cases h
      cases p.stream r <;> rfl

/-- **The first text** of a stream. -/
theorem stream_append (h : p.Reads s a) (hs : IsGiven s) (ht : Ends t) :
    p.stream (s ++ t) = (p.stream t).map (a :: ·) := by
  refine stream_step ?_ (h t ht)
  obtain ⟨b, u, rfl, hb, -⟩ := hs
  rw [List.cons_append, skipBlank_cons hb]
  exact List.cons_ne_nil b (u ++ t)

end Reader
end ImageBuild.Json
