import ImageBuild.Proofs.Json.Continued
import ImageBuild.Proofs.Json.Values
import Mathlib.Data.List.TakeWhile

/-!
# Values in a text that goes on

A steady reader finds the same value when the text goes on, unless the value was the last
thing in it. The readers of scalars are steady, and so are readers made from steady
ones. Arrays and objects end with their brackets, so a reader of records finds the same value
even where it was the last thing (`Shape.isClosed_reader`), and a stream of such values goes
on with the values of the longer text (`Reader.stream_extend`).
-/

namespace ImageBuild.Json

/-! ## Blanks and words -/

theorem skipBlank_append {s rest : Octets} {b : UInt8} (h : skipBlank s = b :: rest)
    (t : Octets) : skipBlank (s ++ t) = b :: (rest ++ t) := by
  have some : s.dropWhile isBlank ≠ [] := by
    intro none
    rw [skipBlank, none] at h
    cases h
  rw [skipBlank, (Numeral.span_append some t).2]
  exact congrArg (· ++ t) h

theorem readWord_extend {word s r : Octets} (h : readWord word s = .ok r) (t : Octets) :
    readWord word (s ++ t) = .ok (r ++ t) := by
  induction word generalizing s with
  | nil =>
    cases h
    rfl
  | cons c word ih =>
    cases s with
    | nil => cases h
    | cons b s =>
      rw [readWord] at h
      split at h
      · next same =>
        rw [List.cons_append, readWord, if_pos same]
        exact ih h
      · cases h

theorem readColon_append {s r : Octets} (h : readColon s = .ok r) (t : Octets) :
    readColon (s ++ t) = .ok (r ++ t) := by
  unfold readColon at h ⊢
  split at h
  · cases h
  · next b rest hb =>
    rw [skipBlank_append hb]
    dsimp only
    split at h
    · next colon =>
      cases h
      rw [if_pos colon]
    · cases h

/-! ## Parts of arrays and objects -/

def Ahead.append (t : Octets) : Ahead → Ahead
  | .close rest => .close (rest ++ t)
  | .part s => .part (s ++ t)

theorem nextItem_append {first : Bool} {s : Octets} {a : Ahead} (h : nextItem first s = .ok a)
    (t : Octets) : nextItem first (s ++ t) = .ok (a.append t) := by
  unfold nextItem at h ⊢
  split at h
  · cases h
  · next b rest hb =>
    rw [skipBlank_append hb]
    dsimp only
    split at h
    · next close =>
      cases h
      rw [if_pos close]
      rfl
    · next close =>
      rw [if_neg close]
      split at h
      · next hfirst =>
        cases h
        rw [if_pos hfirst]
        rfl
      · next later =>
        rw [if_neg later]
        split at h
        · next comma =>
          rw [if_pos comma]
          split at h
          · cases h
          · next c more hc =>
            rw [skipBlank_append hc]
            dsimp only
            split at h
            · cases h
            · next item =>
              cases h
              rw [if_neg item]
              rfl
        · cases h

theorem nextMember_append {first : Bool} {s : Octets} {a : Ahead}
    (h : nextMember first s = .ok a) (t : Octets) :
    nextMember first (s ++ t) = .ok (a.append t) := by
  unfold nextMember at h ⊢
  split at h
  · cases h
  · next b rest hb =>
    rw [skipBlank_append hb]
    dsimp only
    split at h
    · next close =>
      cases h
      rw [if_pos close]
      rfl
    · next close =>
      rw [if_neg close]
      split at h
      · next hfirst =>
        rw [if_pos hfirst]
        split at h
        · next quote =>
          cases h
          rw [if_pos quote]
          rfl
        · cases h
      · next later =>
        rw [if_neg later]
        split at h
        · next comma =>
          rw [if_pos comma]
          split at h
          · cases h
          · next c more hc =>
            rw [skipBlank_append hc]
            dsimp only
            split at h
            · next quote =>
              cases h
              rw [if_pos quote]
              rfl
            · split at h <;> cases h
        · cases h

namespace Reader

variable {α β σ : Type}

/-- **Whether a reader is steady:** it passes over blanks, and finds the same value when the
text goes on behind what the value leaves of it. -/
structure IsSteady (p : Reader α) : Prop where
  blanks : p.PassesBlanks
  append : ∀ {s a r}, p.run s = .ok (a, r) → r ≠ [] → ∀ t, p.run (s ++ t) = .ok (a, r ++ t)

/-- **Whether a reader is closed:** it finds the same value however the text goes on. -/
structure IsClosed (p : Reader α) : Prop where
  blanks : p.PassesBlanks
  append : ∀ {s a r}, p.run s = .ok (a, r) → ∀ t, p.run (s ++ t) = .ok (a, r ++ t)

theorem IsClosed.isSteady {p : Reader α} (h : p.IsClosed) : p.IsSteady :=
  ⟨h.blanks, fun hs _ => h.append hs⟩

theorem skipBlank_ne_nil {p : Reader α} (h : p.PassesBlanks) {s r : Octets} {a : α}
    (hs : p.run s = .ok (a, r)) : skipBlank s ≠ [] := by
  induction s with
  | nil => exact absurd (p.shorter hs) (Nat.not_lt_zero _)
  | cons b s ih =>
    by_cases hb : isBlank b = true
    · rw [skipBlank_blank hb]
      exact ih (h b s hb ▸ hs)
    · rw [skipBlank_cons (Bool.eq_false_iff.2 hb)]
      exact List.cons_ne_nil b s

/-- **Deciding by the first octet** that is no blank. -/
def ByFirst (p : Reader α) (read : UInt8 → Octets → Except Fault (α × Octets)) : Prop :=
  ∀ s, p.run s =
    match skipBlank s with
    | [] => .error ⟨.endOfValue, 0⟩
    | b :: rest => read b rest

section ByFirst

variable {p : Reader α} {read : UInt8 → Octets → Except Fault (α × Octets)}

theorem ByFirst.blanks (h : p.ByFirst read) : p.PassesBlanks := by
  intro b s hb
  rw [h, h, skipBlank_blank hb]

theorem ByFirst.run_append (h : p.ByFirst read) {s r : Octets} {a : α}
    (hs : p.run s = .ok (a, r)) (t : Octets) :
    ∃ b u, read b u = .ok (a, r) ∧ p.run (s ++ t) = read b (u ++ t) := by
  rw [h] at hs
  split at hs
  · cases hs
  · next b u hb =>
    refine ⟨b, u, hs, ?_⟩
    rw [h, skipBlank_append hb]

theorem ByFirst.isSteady (h : p.ByFirst read) (steady : ∀ {b s a r}, read b s = .ok (a, r) →
    r ≠ [] → ∀ t, read b (s ++ t) = .ok (a, r ++ t)) : p.IsSteady := by
  refine ⟨h.blanks, ?_⟩
  intro s a r hs hr t
  obtain ⟨b, u, found, same⟩ := h.run_append hs t
  rw [same]
  exact steady found hr t

theorem ByFirst.isClosed (h : p.ByFirst read) (closed : ∀ {b s a r}, read b s = .ok (a, r) →
    ∀ t, read b (s ++ t) = .ok (a, r ++ t)) : p.IsClosed := by
  refine ⟨h.blanks, ?_⟩
  intro s a r hs t
  obtain ⟨b, u, found, same⟩ := h.run_append hs t
  rw [same]
  exact closed found t

end ByFirst

theorem map_extend {γ : Type} {x y : Except Fault (γ × Octets)} {f : γ → α} {a : α}
    {r t : Octets} (h : x.map (fun c => (f c.1, c.2)) = .ok (a, r))
    (same : ∀ c, x = .ok (c, r) → y = .ok (c, r ++ t)) :
    y.map (fun c => (f c.1, c.2)) = .ok (a, r ++ t) := by
  obtain ⟨⟨c, u⟩, hx, made⟩ := of_map_ok h
  cases made
  rw [same c hx]
  rfl

theorem word_extend {word s r t : Octets} {x a : α}
    (h : (readWord word s).map (fun r => (x, r)) = .ok (a, r)) :
    (readWord word (s ++ t)).map (fun r => (x, r)) = .ok (a, r ++ t) := by
  obtain ⟨u, hw, made⟩ := of_map_ok h
  cases made
  rw [readWord_extend hw t]
  rfl

theorem IsSteady.map {p : Reader α} (h : p.IsSteady) (f : α → β) : (p.map f).IsSteady := by
  constructor
  · intro b s hb
    simp only [Reader.map, h.blanks b s hb]
  · intro s b r hs hr t
    simp only [Reader.map] at hs ⊢
    split at hs
    · cases hs
    · next found =>
      cases hs
      rw [h.append found hr t]

theorem isClosed_string : string.IsClosed := by
  refine ByFirst.isClosed (fun _ => rfl) ?_
  intro b s a r h t
  split at h
  · next quote =>
    rw [if_pos quote]
    exact Quoted.read_append h t
  · cases h

theorem acceptInteger_append {expected : String} {accept : Int → Option α}
    {x y : Except Fault (Number × Octets)} {a : α} {r t : Octets}
    (h : acceptInteger expected accept x = .ok (a, r))
    (hy : ∀ {n}, x = .ok (n, r) → y = .ok (n, r ++ t)) :
    acceptInteger expected accept y = .ok (a, r ++ t) := by
  unfold acceptInteger at h
  split at h
  · cases h
  · cases h
  · split at h
    · next accepted =>
      cases h
      rw [hy rfl, acceptInteger, accepted]
    · cases h

theorem isSteady_integer (expected : String) (accept : Int → Option α) :
    (integer expected accept).IsSteady := by
  refine ByFirst.isSteady (fun _ => rfl) ?_
  intro b s a r h hr t
  split at h
  · next minus =>
    rw [if_pos minus]
    exact acceptInteger_append h fun hn => Numeral.read_append hn hr t
  · next minus =>
    rw [if_neg minus]
    split at h
    · next digit =>
      rw [if_pos digit]
      exact acceptInteger_append h fun hn => Numeral.read_append hn hr t
    · cases h

theorem IsSteady.option {p : Reader α} (h : p.IsSteady) : (option p).IsSteady := by
  constructor
  · intro b s hb
    simp only [Reader.option, skipBlank_blank hb, h.blanks b s hb]
  · intro s a r hs hr t
    simp only [Reader.option] at hs
    split at hs
    · next rest null =>
      cases hw : readWord [0x75, 0x6C, 0x6C] rest with
      | error f =>
        rw [hw] at hs
        cases hs
      | ok u =>
        rw [hw] at hs
        cases hs
        simp only [Reader.option, skipBlank_append null, readWord_extend hw t]
        rfl
    · next given =>
      split at hs
      · cases hs
      · next found =>
        cases hs
        obtain ⟨b, rest, hb⟩ := List.exists_cons_of_ne_nil (skipBlank_ne_nil h.blanks found)
        have null : b ≠ 0x6E := by
          rintro rfl
          exact given rest hb
        simp [Reader.option, skipBlank_append hb, null, h.append found hr t]

/-! ## Arrays and objects of values -/

variable {p : Reader α} {take : σ → String → Except Cause (Reader (σ → σ))}

theorem items_append (hp : p.IsSteady) {first : Bool} {s r : Octets} {as : List α}
    (h : items p first s = .ok (as, r)) (t : Octets) :
    items p first (s ++ t) = .ok (as, r ++ t) := by
  fun_induction items p first s generalizing as r with
  | case1 => cases h
  | case2 first s rest ends =>
    cases h
    exact items_end (nextItem_append ends t)
  | case3 => cases h
  | case4 => cases h
  | case5 first s u begins a v value as' r' more ih =>
    cases h
    have rest : v ≠ [] := List.ne_nil_of_length_pos (Nat.zero_lt_of_lt (length_items more))
    rw [items_step (nextItem_append begins t) (hp.append value rest t), ih more]
    rfl

theorem foldMembers_append (hp : ∀ {acc name p}, take acc name = .ok p → p.IsSteady)
    {acc a : σ} {first : Bool} {s r : Octets} (h : foldMembers take acc first s = .ok (a, r))
    (t : Octets) : foldMembers take acc first (s ++ t) = .ok (a, r ++ t) := by
  fun_induction foldMembers take acc first s with
  | case1 => cases h
  | case2 acc first s rest ends =>
    cases h
    exact foldMembers_end (nextMember_append ends t)
  | case3 => cases h
  | case4 => cases h
  | case5 => cases h
  | case6 => cases h
  | case7 acc first s u begins name v named p found w colon f x value ih =>
    have rest : x ≠ [] := List.ne_nil_of_length_pos (Nat.zero_lt_of_lt (length_foldMembers h))
    rw [foldMembers_step (nextMember_append begins t) (Quoted.read_append named t) found
      (readColon_append colon t) ((hp found).append value rest t)]
    exact ih h

theorem scalar_append {b : UInt8} {s r : Octets} {v : Value} (h : scalar b s = .ok (v, r))
    (hr : r ≠ []) (t : Octets) : scalar b (s ++ t) = .ok (v, r ++ t) := by
  unfold scalar at h ⊢
  split at h
  · next quote =>
    rw [if_pos quote]
    exact map_extend (f := Value.string) h fun _ hq => Quoted.read_append hq t
  · next quote =>
    rw [if_neg quote]
    split at h
    · next minus =>
      rw [if_pos minus]
      exact map_extend (f := Value.number) h fun _ hn => Numeral.read_append hn hr t
    · next minus =>
      rw [if_neg minus]
      split at h
      · next digit =>
        rw [if_pos digit]
        exact map_extend (f := Value.number) h fun _ hn => Numeral.read_append hn hr t
      · next digit =>
        rw [if_neg digit]
        split at h
        · exact word_extend h
        · exact word_extend h
        · cases h

/-- **Any value** is read steadily, at every depth. -/
theorem isSteady_value (depth : Nat) : (value depth).IsSteady := by
  induction depth with
  | zero =>
    refine ByFirst.isSteady (fun _ => rfl) ?_
    intro b s a r h hr t
    split at h
    · cases h
    · next shallow =>
      rw [if_neg shallow]
      exact scalar_append h hr t
  | succ depth ih =>
    refine ByFirst.isSteady (fun _ => rfl) ?_
    intro b s a r h hr t
    split at h
    · next list =>
      rw [if_pos list]
      exact map_extend (f := Value.array) h fun _ hi => items_append ih hi t
    · next list =>
      rw [if_neg list]
      split at h
      · next object =>
        rw [if_pos object]
        refine map_extend (f := fun d : Dict Value => Value.object d.entries) h fun _ hm => ?_
        refine foldMembers_append ?_ hm t
        intro acc name p taken
        cases taken
        exact ih.map _
      · next object =>
        rw [if_neg object]
        exact scalar_append h hr t

end Reader

/-! ## Passing over values -/

namespace Skip

theorem token_append {s r : Octets} {o : Option Bracket} (h : token s = .ok (o, r))
    (hr : r ≠ []) (t : Octets) : token (s ++ t) = .ok (o, r ++ t) := by
  have passed {x y : Except Fault Octets} (h : x.map (fun r => (none, r)) = .ok (o, r))
      (same : x = .ok r → y = .ok (r ++ t)) :
      y.map (fun r => (none, r)) = .ok (o, r ++ t) := by
    obtain ⟨u, hx, made⟩ := Reader.of_map_ok h
    cases made
    rw [same hx]
    rfl
  unfold token at h ⊢
  split at h
  · cases h
  · next b rest hb =>
    rw [skipBlank_append hb]
    dsimp only
    split at h
    · exact Reader.word_extend h
    · split at h
      · next minus =>
        rw [if_pos minus]
        exact passed h fun hn => Numeral.skip_append hn hr t
      · next minus =>
        rw [if_neg minus]
        split at h
        · next digit =>
          rw [if_pos digit]
          exact passed h fun hn => Numeral.skip_append hn hr t
        · next digit =>
          rw [if_neg digit]
          split at h
          · next quote =>
            rw [if_pos quote]
            exact passed h fun hq => Quoted.skip_append hq t
          · next quote =>
            rw [if_neg quote]
            split at h
            · next list =>
              cases h
              rw [if_pos list]
            · next list =>
              rw [if_neg list]
              split at h
              · next object =>
                cases h
                rw [if_pos object]
              · cases h

theorem key_append {s r : Octets} (h : key s = .ok r) (t : Octets) :
    key (s ++ t) = .ok (r ++ t) := by
  unfold key at h ⊢
  split at h
  · cases h
  · next b rest hb =>
    rw [skipBlank_append hb]
    dsimp only
    split at h
    · next quote =>
      rw [if_pos quote]
      split at h
      · cases h
      · next hq =>
        rw [Quoted.skip_append hq t]
        exact readColon_append h t
    · cases h

theorem intro_append {o : Bracket} {s : Octets} {a : Ahead} (h : intro o s = .ok a)
    (t : Octets) : intro o (s ++ t) = .ok (a.append t) := by
  unfold intro at h ⊢
  split at h
  · cases h
    rfl
  · obtain ⟨r, hk, made⟩ := Reader.of_map_ok h
    cases made
    rw [key_append hk t]
    rfl

theorem nextPart_append {o : Bracket} {first : Bool} {s : Octets} {a : Ahead}
    (h : nextPart o first s = .ok a) (t : Octets) :
    nextPart o first (s ++ t) = .ok (a.append t) := by
  unfold nextPart at h ⊢
  split at h
  · cases h
  · next b rest hb =>
    rw [skipBlank_append hb]
    dsimp only
    split at h
    · next comma =>
      rw [if_pos comma]
      exact intro_append h t
    · next comma =>
      rw [if_neg comma]
      split at h
      · next close =>
        cases h
        rw [if_pos close]
        rfl
      · next close =>
        rw [if_neg close]
        split at h
        · next hfirst =>
          rw [if_pos hfirst]
          exact intro_append h t
        · cases h

theorem run_append {place : Place} {stack : List Bracket} {s r : Octets}
    (h : run place stack s = .ok r) (hr : r ≠ []) (t : Octets) :
    run place stack (s ++ t) = .ok (r ++ t) := by
  fun_induction run place stack s with
  | case1 => cases h
  | case2 s stack o u ht ih =>
    rw [run, token_append ht (ne_nil_of_length_le hr (length_run h)) t]
    exact ih h
  | case3 s stack u ht ih =>
    rw [run, token_append ht (ne_nil_of_length_le hr (length_run h)) t]
    exact ih h
  | case4 =>
    cases h
    rw [run]
  | case5 => cases h
  | case6 s first o stack u hn ih =>
    rw [run, nextPart_append hn t]
    exact ih h
  | case7 s first o stack u hn ih =>
    rw [run, nextPart_append hn t]
    exact ih h

end Skip

namespace Reader

theorem isSteady_skip : skip.IsSteady := by
  constructor
  · intro b s hb
    unfold skip
    dsimp only
    rw [Skip.run, Skip.run]
    unfold Skip.token
    rw [skipBlank_blank hb]
  · intro s a r h hr t
    obtain ⟨u, hu, made⟩ := of_map_ok h
    cases made
    unfold skip
    dsimp only
    rw [Skip.run_append hu hr t]
    rfl

end Reader

/-! ## Records -/

namespace Shape

variable {R : Type} {k : Shape R}

theorem isSteady_of_take (steady : ∀ f ∈ k.fields, f.reader.IsSteady) {seen : R × List String}
    {name : String} {p : Reader (R × List String → R × List String)}
    (h : k.take seen name = .ok p) : p.IsSteady := by
  unfold take at h
  split at h
  · cases h
    exact Reader.isSteady_skip.map _
  · next f found =>
    split at h
    · cases h
    · cases h
      exact (steady f (List.mem_of_find?_eq_some found)).map _

theorem readObject_append (steady : ∀ f ∈ k.fields, f.reader.IsSteady) {s r : Octets} {a : R}
    (h : k.readObject s = .ok (a, r)) (t : Octets) :
    k.readObject (s ++ t) = .ok (a, r ++ t) := by
  unfold readObject at h ⊢
  split at h
  · cases h
  · next members =>
    rw [Reader.foldMembers_append (isSteady_of_take steady) members t]
    dsimp only
    split at h
    · cases h
    · next complete =>
      cases h
      rfl

theorem readEnd_append {s r : Octets} (h : readEnd s = .ok r) (t : Octets) :
    readEnd (s ++ t) = .ok (r ++ t) := by
  unfold readEnd at h ⊢
  split at h
  · cases h
  · next b rest hb =>
    rw [skipBlank_append hb]
    dsimp only
    split at h
    · next close =>
      cases h
      rw [if_pos close]
    · split at h
      · split at h <;> cases h
      · cases h

theorem ne_nil_of_readItems {fs : List (Field R)} {a b : R} {i : Nat} {s r : Octets}
    (h : k.readItems a i s fs = .ok (b, r)) : s ≠ [] := by
  rintro rfl
  cases fs with
  | nil => cases h
  | cons f fs => cases h

theorem readItems_append {fs : List (Field R)} (steady : ∀ f ∈ fs, f.reader.IsSteady)
    {a b : R} {i : Nat} {s r : Octets} (h : k.readItems a i s fs = .ok (b, r)) (t : Octets) :
    k.readItems a i (s ++ t) fs = .ok (b, r ++ t) := by
  induction fs generalizing a i s with
  | nil =>
    obtain ⟨u, hu, made⟩ := Reader.of_map_ok h
    cases made
    rw [readItems, readEnd_append hu t]
    rfl
  | cons f fs ih =>
    obtain ⟨hf, hfs⟩ := List.forall_mem_cons.1 steady
    simp only [readItems] at h
    split at h
    · cases h
    · next ends =>
      split at h
      · cases h
      · next none =>
        cases h
        simp only [readItems, nextItem_append ends t, Ahead.append, none]
    · next u begins =>
      split at h
      · cases h
      · next g v value =>
        have rest : v ≠ [] := ne_nil_of_readItems h
        simp only [readItems, nextItem_append begins t, Ahead.append, hf.append value rest t]
        exact ih hfs h

/-- **A record** ends with its last bracket: its reader finds the same however the text goes
on. -/
theorem isClosed_reader (steady : ∀ f ∈ k.fields, f.reader.IsSteady) : k.reader.IsClosed := by
  refine Reader.ByFirst.isClosed (fun _ => rfl) ?_
  intro b s a r h t
  split at h
  · next object =>
    rw [if_pos object]
    exact readObject_append steady h t
  · next object =>
    rw [if_neg object]
    split at h
    · next list =>
      rw [if_pos list]
      exact readItems_append steady h t
    · cases h

end Shape

theorem isSteady_field {R T : Type} {name : String} {need : Need} {p : Reader T} {set : R → T → R}
    (h : p.IsSteady) : (Field.of name need p set).reader.IsSteady := h.map _

/-! ## Streams -/

/-- **A stream of values that ends where a value does** goes on with the values of what
follows. -/
theorem Reader.stream_extend {α : Type} {p : Reader α} (hp : p.IsClosed) {s : Octets}
    {as : List α} (h : p.stream s = .ok as) (t : Octets) :
    p.stream (s ++ t) = (p.stream t).map (as ++ ·) := by
  fun_induction stream p s generalizing as with
  | case1 s none =>
    cases h
    have blank : s.all isBlank = true := List.all_eq_true.2 (List.dropWhile_eq_nil_iff.1 none)
    rw [stream_blanks hp.blanks blank]
    cases p.stream t <;> rfl
  | case2 => cases h
  | case3 => cases h
  | case4 s a r value as' more _ ih =>
    cases h
    have begins : skipBlank (s ++ t) ≠ [] := skipBlank_ne_nil hp.blanks (hp.append value t)
    rw [stream_step begins (hp.append value t), ih more]
    cases p.stream t <;> rfl

end ImageBuild.Json
