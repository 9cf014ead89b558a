import ImageBuild.Context
import Mathlib.Data.List.Basic

/-!
# Rules for tokens and contexts

What is known of a system of tokens is written down as rules (`LawfulTokens`), which the
tokens of a service keep (`Cancellation.lawful`). What a program says of its contexts is their
kin: the context with which one shares its token, and the context from which that token
was made. A cancellation reaches the contexts with its token and those below
(`Kin.Reaches`), so neither a parent nor a sibling.
-/

namespace ImageBuild

/-! ## Tokens -/

/-- Tokens of which none was cancelled or taken back. -/
def TokenSystem.Same {κ : Type} [TokenSystem κ] (c c' : κ)
    (made : List (Token × Option Token)) : Prop :=
  ∀ u ∈ made.map (·.1), TokenSystem.isCancelled c' u = TokenSystem.isCancelled c u

open TokenSystem in
/-- **The rules for tokens.** `Knows c made` says that the tokens `made` are those that `c` knows,
each with the one that it was made from. -/
structure LawfulTokens (κ : Type) [TokenSystem κ]
    (Knows : κ → List (Token × Option Token) → Prop) : Prop where
  /-- a token that depends on no other one is new and not cancelled -/
  fresh {c : κ} {made} (h : Knows c made) :
    Knows (fresh c).2 (made ++ [((fresh c).1, none)]) ∧ (fresh c).1 ∉ made.map (·.1) ∧
      isCancelled (fresh c).2 (fresh c).1 = false ∧ Same c (fresh c).2 made
  /-- a token that is made from another one is new, and cancelled if that one is -/
  child {c : κ} {made} (h : Knows c made) {t : Token} (ht : t ∈ made.map (·.1)) :
    Knows (child c t).2 (made ++ [((child c t).1, some t)]) ∧ (child c t).1 ∉ made.map (·.1) ∧
      isCancelled (child c t).2 (child c t).1 = isCancelled c t ∧ Same c (child c t).2 made
  /-- holders come and go without a trace -/
  clone {c : κ} {made} (h : Knows c made) {t : Token} (ht : t ∈ made.map (·.1)) :
    Knows (clone c t) made ∧ Same c (clone c t) made
  drop {c : κ} {made} (h : Knows c made) {t : Token} (ht : t ∈ made.map (·.1)) :
    Knows (drop c t) made ∧ Same c (drop c t) made
  /-- a cancellation cancels its token, and a token follows the one that it was made from -/
  cancel {c : κ} {made} (h : Knows c made) {t : Token} (ht : t ∈ made.map (·.1)) :
    Knows (cancel c t) made ∧ ∀ u p, (u, p) ∈ made →
      (isCancelled (cancel c t) u = true ↔ isCancelled c u = true ∨ u = t ∨
        ∃ q, p = some q ∧ isCancelled (cancel c t) q = true)
  /-- who waits for a cancellation goes on when there is one -/
  ready {c : κ} {made} (h : Knows c made) {u : Token} (hu : u ∈ made.map (·.1)) :
    isReady c u = isCancelled c u

namespace Cancellation

/-- What is known of the tokens of a service. -/
structure Knows (c : Cancellation) (made : List (Token × Option Token)) : Prop where
  old : ∀ t ∈ made.map (·.1), t.id < c.next
  past : ∀ n ∈ c.cancelled, n < c.next
  apart : ∀ t ∈ made.map (·.1), ∀ u ∈ made.map (·.1), t.id = u.id → t = u
  line : ∀ t p, (t, p) ∈ made → t.ancestors = p.elim [] fun q => q.id :: q.ancestors

namespace Knows

variable {c : Cancellation} {made : List (Token × Option Token)} {t : Token}

theorem add (h : Knows c made) {p : Option Token} (id : t.id = c.next)
    (line : t.ancestors = p.elim [] fun q => q.id :: q.ancestors) :
    Knows { c with next := c.next + 1 } (made ++ [(t, p)]) := by
  have mem {u : Token} (hu : u ∈ (made ++ [(t, p)]).map (·.1)) : u ∈ made.map (·.1) ∨ u = t := by
    simpa using hu
  constructor
  · intro u hu
    rcases mem hu with hu | rfl
    · exact Nat.lt_succ_of_lt (h.old u hu)
    · exact Nat.lt_succ_of_le (Nat.le_of_eq id)
  · intro n hn
    exact Nat.lt_succ_of_lt (h.past n hn)
  · intro u hu v hv same
    rcases mem hu with hu | hu <;> rcases mem hv with hv | hv
    · exact h.apart u hu v hv same
    · have := h.old u hu
      rw [hv] at same
      omega
    · have := h.old v hv
      rw [hu] at same
      omega
    · exact hu.trans hv.symm
  · intro u q hu
    rcases List.mem_append.1 hu with hu | hu
    · exact h.line u q hu
    · cases List.mem_singleton.1 hu
      exact line

theorem not_mem (h : Knows c made) (id : t.id = c.next) : t ∉ made.map (·.1) := by
  intro ht
  have := h.old t ht
  omega

end Knows

theorem isCancelled_iff (c : Cancellation) (t : Token) :
    c.isCancelled t = true ↔ t.id ∈ c.cancelled ∨ ∃ n ∈ t.ancestors, n ∈ c.cancelled := by
  simp [isCancelled]

/-- **The tokens of a service** keep the rules. -/
theorem lawful : LawfulTokens Cancellation Knows := by
  constructor
  case fresh =>
    intro c made h
    refine ⟨h.add rfl rfl, h.not_mem rfl, ?_, fun _ _ => rfl⟩
    apply Bool.eq_false_iff.2
    intro cancelled
    rcases (isCancelled_iff _ _).1 cancelled with mem | ⟨n, hn, -⟩
    · exact Nat.lt_irrefl _ (h.past _ mem)
    · cases hn
  case child =>
    intro c made h t ht
    refine ⟨h.add rfl rfl, h.not_mem rfl, ?_, fun _ _ => rfl⟩
    have unused : c.next ∉ c.cancelled := fun mem => Nat.lt_irrefl _ (h.past _ mem)
    apply Bool.eq_iff_iff.2
    refine (isCancelled_iff _ _).trans (Iff.trans ?_ (isCancelled_iff c t).symm)
    show c.next ∈ c.cancelled ∨ (∃ n ∈ t.id :: t.ancestors, n ∈ c.cancelled) ↔ _
    simp [unused]
  case clone | drop =>
    intro c made h t ht
    exact ⟨h, fun _ _ => rfl⟩
  case cancel =>
    intro c made h t ht
    constructor
    · refine ⟨h.old, ?_, h.apart, h.line⟩
      intro n hn
      rcases List.mem_cons.1 hn with rfl | hn
      · exact h.old t ht
      · exact h.past n hn
    · intro u p hu
      have same : u.id = t.id ↔ u = t := by
        constructor
        · exact h.apart u (List.mem_map_of_mem hu) t ht
        · exact congrArg Token.id
      have above : (∃ n ∈ u.ancestors, n ∈ (c.cancel t).cancelled) ↔
          ∃ q, p = some q ∧ (c.cancel t).isCancelled q = true := by
        rw [h.line u p hu]
        cases p with
        | none => simp
        | some q => simp [isCancelled_iff]
      have before : (∃ n ∈ u.ancestors, n ∈ c.cancelled) →
          ∃ n ∈ u.ancestors, n ∈ (c.cancel t).cancelled := by
        rintro ⟨n, hn, mem⟩
        exact ⟨n, hn, List.mem_cons_of_mem _ mem⟩
      show (c.cancel t).isCancelled u = true ↔ c.isCancelled u = true ∨ u = t ∨
        ∃ q, p = some q ∧ (c.cancel t).isCancelled q = true
      rw [isCancelled_iff, isCancelled_iff, ← above, ← same]
      show u.id ∈ t.id :: c.cancelled ∨ _ ↔ _
      rw [List.mem_cons]
      constructor
      · rintro ((id | mem) | line)
        · exact .inr (.inl id)
        · exact .inl (.inl mem)
        · exact .inr (.inr line)
      · rintro ((mem | line) | id | line)
        · exact .inl (.inr mem)
        · exact .inr (before line)
        · exact .inl (.inl id)
        · exact .inr line
  case ready =>
    intro c made h u hu
    rfl

end Cancellation

/-! ## Who is above whom -/

/-- What a program says of a context when it makes one. -/
structure Kin where
  /-- the first context with the same token -/
  first : Nat
  /-- the context that the token was made from -/
  parent : Option Nat

def Kin.Shares (kin : List Kin) (k i : Nat) : Prop :=
  ∃ a b, kin[k]? = some a ∧ kin[i]? = some b ∧ a.first = b.first

/-- Whether the token of a context was made from that of another one. -/
def Kin.IsBelow (kin : List Kin) (i p : Nat) : Prop :=
  ∃ a, kin[i]? = some a ∧ a.parent = some p

/-- **Whom a cancellation reaches:** the contexts with the token of `k`, and those whose tokens
were made from that of one that it reaches. -/
inductive Kin.Reaches (kin : List Kin) (k : Nat) : Nat → Prop where
  | share {i : Nat} (h : Shares kin k i) : Reaches kin k i
  | descend {i p : Nat} (h : IsBelow kin i p) (above : Reaches kin k p) : Reaches kin k i

/-- Tokens are made from tokens of contexts that were there before. -/
structure Kin.IsOrderly (kin : List Kin) : Prop where
  first : ∀ (i : Nat) (a : Kin), kin[i]? = some a → a.first ≤ i
  parent : ∀ (i : Nat) (a : Kin) (p : Nat), kin[i]? = some a → a.parent = some p → p < a.first

namespace Kin

variable {kin : List Kin} {k i p : Nat} {a : Kin}

theorem reaches_iff :
    Reaches kin k i ↔ Shares kin k i ∨ ∃ p, IsBelow kin i p ∧ Reaches kin k p := by
  constructor
  · rintro (h | ⟨h, above⟩)
    · exact .inl h
    · exact .inr ⟨_, h, above⟩
  · rintro (h | ⟨p, h, above⟩)
    · exact .share h
    · exact .descend h above

theorem Reaches.first_le (h : Reaches kin k i) (orderly : IsOrderly kin) :
    ∃ a b, kin[k]? = some a ∧ kin[i]? = some b ∧ a.first ≤ b.first := by
  induction h with
  | share h =>
    obtain ⟨a, b, ha, hb, same⟩ := h
    exact ⟨a, b, ha, hb, Nat.le_of_eq same⟩
  | descend h above ih =>
    obtain ⟨b, hb, hp⟩ := h
    obtain ⟨a, q, ha, hq, le⟩ := ih
    have := orderly.parent _ b _ hb hp
    have := orderly.first _ q hq
    exact ⟨a, b, ha, hb, by omega⟩

/-- **No parent is reached** from below. -/
theorem IsBelow.not_reaches (h : IsBelow kin i p) (orderly : IsOrderly kin) :
    ¬ Reaches kin i p := by
  intro reached
  obtain ⟨b, hb, hp⟩ := h
  obtain ⟨a, q, ha, hq, le⟩ := reached.first_le orderly
  have := orderly.parent i b p hb hp
  have := orderly.first p q hq
  rw [hb] at ha
  cases ha
  omega

/-- **No sibling is reached:** what is made from the same token, as another one. -/
theorem IsBelow.apart {j : Nat} (hi : IsBelow kin i p) (hj : IsBelow kin j p)
    (orderly : IsOrderly kin) : Reaches kin i j ↔ Shares kin i j := by
  rw [reaches_iff]
  refine or_iff_left ?_
  rintro ⟨q, hq, reached⟩
  obtain ⟨a, ha, hp⟩ := hj
  obtain ⟨b, hb, hq⟩ := hq
  rw [ha] at hb
  cases hb
  rw [hp] at hq
  cases hq
  exact hi.not_reaches orderly reached

/-! ### One more context -/

theorem getElem?_add (hi : i < kin.length) : (kin ++ [a])[i]? = kin[i]? :=
  List.getElem?_append_left hi

theorem lt_of_getElem? (h : kin[i]? = some a) : i < kin.length :=
  (List.getElem?_eq_some_iff.1 h).1

theorem IsOrderly.add (h : IsOrderly kin) (first : a.first ≤ kin.length)
    (parent : ∀ p, a.parent = some p → p < a.first) : IsOrderly (kin ++ [a]) := by
  have mem {i : Nat} {b : Kin} (hb : (kin ++ [a])[i]? = some b) :
      kin[i]? = some b ∨ i = kin.length ∧ b = a := by
    rcases Nat.lt_trichotomy i kin.length with lt | rfl | lt
    · exact .inl (getElem?_add lt ▸ hb)
    · exact .inr ⟨rfl, by simpa using hb.symm⟩
    · have := lt_of_getElem? hb
      rw [List.length_append, List.length_singleton] at this
      omega
  constructor
  · intro i b hb
    rcases mem hb with hb | ⟨rfl, rfl⟩
    · exact h.first i b hb
    · exact first
  · intro i b p hb hp
    rcases mem hb with hb | ⟨rfl, rfl⟩
    · exact h.parent i b p hb hp
    · exact parent p hp

theorem isBelow_add (hi : i < kin.length) : IsBelow (kin ++ [a]) i p ↔ IsBelow kin i p := by
  unfold IsBelow
  rw [getElem?_add hi]

theorem shares_add (hk : k < kin.length) (hi : i < kin.length) :
    Shares (kin ++ [a]) k i ↔ Shares kin k i := by
  unfold Shares
  rw [getElem?_add hk, getElem?_add hi]

theorem IsBelow.lt (h : IsBelow kin i p) (orderly : IsOrderly kin) : p < i := by
  obtain ⟨b, hb, hp⟩ := h
  exact Nat.lt_of_lt_of_le (orderly.parent i b p hb hp) (orderly.first i b hb)

theorem reaches_add (orderly : IsOrderly kin) (hk : k < kin.length) (hi : i < kin.length) :
    Reaches (kin ++ [a]) k i ↔ Reaches kin k i := by
  induction i using Nat.strongRecOn with
  | _ i ih =>
    rw [reaches_iff, reaches_iff, shares_add hk hi]
    refine or_congr_right (exists_congr fun p => ?_)
    rw [isBelow_add hi]
    refine and_congr_right fun below => ?_
    have := below.lt orderly
    exact ih p this (Nat.lt_trans this hi)

theorem reaches_new (hk : k < kin.length) :
    Reaches (kin ++ [a]) k kin.length ↔ (∃ b, kin[k]? = some b ∧ b.first = a.first) ∨
      ∃ p, a.parent = some p ∧ Reaches (kin ++ [a]) k p := by
  rw [reaches_iff]
  apply or_congr
  · unfold Shares
    rw [getElem?_add hk]
    simp
  · unfold IsBelow
    simp

/-- A context with a token of its own is reached from above. -/
theorem reaches_own (orderly : IsOrderly kin) (hk : k < kin.length) {parent : Option Nat}
    (known : ∀ p, parent = some p → p < kin.length) :
    Reaches (kin ++ [⟨kin.length, parent⟩]) k kin.length ↔
      ∃ p, parent = some p ∧ Reaches kin k p := by
  rw [reaches_new hk]
  constructor
  · rintro (⟨b, hb, same⟩ | ⟨p, hp, reached⟩)
    · have := orderly.first k b hb
      simp only at same
      omega
    · exact ⟨p, hp, (reaches_add orderly hk (known p hp)).1 reached⟩
  · rintro ⟨p, hp, reached⟩
    exact .inr ⟨p, hp, (reaches_add orderly hk (known p hp)).2 reached⟩

/-- A context that shares a token is reached with the one it shares it with. -/
theorem reaches_shared (orderly : IsOrderly kin) (hk : k < kin.length) (hi : kin[i]? = some a) :
    Reaches (kin ++ [a]) k kin.length ↔ Reaches kin k i := by
  have known := lt_of_getElem? hi
  rw [reaches_new hk, ← reaches_add (a := a) orderly hk known, reaches_iff (i := i)]
  apply or_congr
  · unfold Shares
    rw [getElem?_add hk, getElem?_add known, hi]
    simp
  · unfold IsBelow
    rw [getElem?_add known, hi]
    simp

end Kin

end ImageBuild
