import ImageBuild.Proofs.Kinship
import Mathlib.Data.List.Induction

/-!
# Which contexts a cancellation reaches

A program makes contexts: anew, as children of others, and as copies that share a token.
It cancels contexts and drops them, in any order. A `Family` holds its contexts with their
kin. For any system of tokens that keeps the rules, a context is cancelled exactly if a
cancellation reaches it (`Family.cancelled_run`), whatever was dropped in between and
whichever came first, the context or the cancellation.
-/

namespace ImageBuild

/-- A context that a program made. -/
structure Member where
  context : Context
  kin : Kin
  /-- the version that was asked for -/
  version : Version
  isLive : Bool := true

/-- Contexts in the order in which they were made. -/
structure Family (κ : Type) where
  tokens : κ
  members : List Member := []
  /-- the contexts that were cancelled -/
  cancels : List Nat := []

/-- What a program does with contexts. A context that was dropped is not used again. -/
inductive ContextEvent where
  | fresh (version : Version)
  | initial
  | child (i : Nat)
  | clone (i : Nat)
  | withVersion (i : Nat) (version : Version)
  | withToken (i : Nat) (version : Version)
  | cancel (i : Nat)
  | drop (i : Nat)

namespace Family

variable {κ : Type}

def live? (f : Family κ) (i : Nat) : Option Member := f.members[i]?.filter (·.isLive)

/-- What is done with a context that was not dropped. -/
def withLive (f : Family κ) (i : Nat) (use : Member → Family κ) : Family κ :=
  match f.live? i with
  | none => f
  | some m => use m

def kin (f : Family κ) : List Kin := f.members.map (·.kin)

def add (f : Family κ) (made : Context × κ) (kin : Kin) (version : Version) : Family κ :=
  { f with tokens := made.2, members := f.members ++ [{ context := made.1, kin, version }] }

/-- The contexts when one of them was dropped. -/
def forgotten (f : Family κ) (i : Nat) : List Member :=
  f.members.modify i fun m => { m with isLive := false }

def called? (f : Family κ) : ContextEvent → Option Nat
  | .cancel i => (f.live? i).map fun _ => i
  | _ => none

def token? (f : Family κ) (i : Nat) : Option Token := f.members[i]?.map (·.context.token)

theorem live?_eq_some {f : Family κ} {i : Nat} {m : Member} (h : f.live? i = some m) :
    f.members[i]? = some m :=
  (Option.filter_eq_some_iff.1 h).1

theorem lt_of_member {f : Family κ} {i : Nat} {m : Member} (h : f.members[i]? = some m) :
    i < f.members.length :=
  (List.getElem?_eq_some_iff.1 h).1

theorem length_kin (f : Family κ) : f.kin.length = f.members.length := List.length_map _

theorem getElem?_kin {f : Family κ} {i : Nat} {m : Member} (h : f.members[i]? = some m) :
    f.kin[i]? = some m.kin := by
  rw [kin, List.getElem?_map, h]
  rfl

theorem kin_add (f : Family κ) (made : Context × κ) (k : Kin) (v : Version) :
    (f.add made k v).kin = f.kin ++ [k] := by
  simp [kin, add]

theorem mem_add {f : Family κ} {made : Context × κ} {k : Kin} {v : Version} {i : Nat} {m : Member}
    (h : (f.add made k v).members[i]? = some m) :
    f.members[i]? = some m ∨
      i = f.members.length ∧ m = { context := made.1, kin := k, version := v } := by
  have h : (f.members ++ [_])[i]? = some m := h
  by_cases lt : i < f.members.length
  · rw [List.getElem?_append_left lt] at h
    exact .inl h
  · obtain ⟨bound, -⟩ := List.getElem?_eq_some_iff.1 h
    rw [List.length_append, List.length_singleton] at bound
    obtain rfl : i = f.members.length := by omega
    right
    simpa using h.symm

theorem getElem?_add {f : Family κ} (made : Context × κ) (k : Kin) (v : Version) {i : Nat}
    {m : Member} (h : f.members[i]? = some m) : (f.add made k v).members[i]? = some m :=
  (List.getElem?_append_left (lt_of_member h)).trans h

theorem mem_forgotten {f : Family κ} {i j : Nat} {m : Member} (h : (f.forgotten i)[j]? = some m) :
    ∃ n, f.members[j]? = some n ∧ m.context = n.context ∧ m.kin = n.kin ∧
      m.version = n.version := by
  rw [forgotten, List.getElem?_modify] at h
  obtain ⟨n, hn, rfl⟩ := Option.map_eq_some_iff.1 h
  refine ⟨n, hn, ?_⟩
  split <;> exact ⟨rfl, rfl, rfl⟩

theorem map_forgotten {α : Type} (f : Family κ) (i : Nat) {g : Member → α}
    (hg : ∀ m, g { m with isLive := false } = g m) : (f.forgotten i).map g = f.members.map g := by
  apply List.ext_getElem?
  intro j
  rw [forgotten, List.getElem?_map, List.getElem?_map, List.getElem?_modify, Option.map_eq_map,
    Option.map_map]
  congr 1
  funext m
  simp only [Function.comp]
  split
  · exact hg m
  · rfl

variable [TokenSystem κ]

def step (f : Family κ) : ContextEvent → Family κ
  | .fresh v => f.add (Context.fresh f.tokens v) ⟨f.members.length, none⟩ v
  | .initial => f.add (Context.initial f.tokens) ⟨f.members.length, none⟩ .newest
  | .child i => f.withLive i fun m =>
      f.add (m.context.child f.tokens) ⟨f.members.length, some i⟩ m.version
  | .clone i => f.withLive i fun m => f.add (m.context.clone f.tokens) m.kin m.version
  | .withVersion i v => f.withLive i fun m =>
      let (x, tokens) := m.context.clone f.tokens
      f.add (x.withVersion v, tokens) m.kin v
  | .withToken i v => f.withLive i fun m =>
      f.add (Context.withToken f.tokens v m.context.token) m.kin v
  | .cancel i => f.withLive i fun m =>
      { f with tokens := m.context.cancel f.tokens, cancels := i :: f.cancels }
  | .drop i => f.withLive i fun m =>
      { f with tokens := m.context.drop f.tokens, members := f.forgotten i }

def run (f : Family κ) (events : List ContextEvent) : Family κ := events.foldl step f

theorem run_snoc (f : Family κ) (events : List ContextEvent) (e : ContextEvent) :
    f.run (events ++ [e]) = (f.run events).step e := by
  simp [run]

/-! ## What an event does -/

/-- **What an event does:** nothing, it makes a context with a token of its own or with
that of another one, it cancels a context, or it drops one. -/
inductive Turn (Knows : κ → List (Token × Option Token) → Prop) (f : Family κ)
    (made : List (Token × Option Token)) : Option Nat → Family κ → Prop where
  | nothing : Turn Knows f made none f
  | own {x : Context} {c : κ} {parent : Option Nat} {v : Version} (version : x.version = v)
      (knows : Knows c (made ++ [(x.token, parent.bind f.token?)]))
      (new : x.token ∉ made.map (·.1)) (same : TokenSystem.Same f.tokens c made)
      (known : ∀ p, parent = some p → p < f.members.length)
      (follows : x.isCancelled c = true ↔ ∃ p n, parent = some p ∧ f.members[p]? = some n ∧
        n.context.isCancelled f.tokens = true) :
      Turn Knows f made none (f.add (x, c) ⟨f.members.length, parent⟩ v)
  | shared {x : Context} {c : κ} {i : Nat} {m : Member} {v : Version} (version : x.version = v)
      (hm : f.members[i]? = some m) (token : x.token = m.context.token) (knows : Knows c made)
      (same : TokenSystem.Same f.tokens c made) : Turn Knows f made none (f.add (x, c) m.kin v)
  | cancel {i : Nat} {m : Member} (hm : f.members[i]? = some m) :
      Turn Knows f made (some i)
        { f with tokens := m.context.cancel f.tokens, cancels := i :: f.cancels }
  | drop {i : Nat} {c : κ} (knows : Knows c made) (same : TokenSystem.Same f.tokens c made) :
      Turn Knows f made none { f with tokens := c, members := f.forgotten i }

/-- **What is true of a family.** -/
structure IsKept (Knows : κ → List (Token × Option Token) → Prop) (f : Family κ)
    (made : List (Token × Option Token)) : Prop where
  knows : Knows f.tokens made
  orderly : Kin.IsOrderly f.kin
  /-- tokens are made as the contexts say -/
  made : ∀ (i : Nat) (m : Member), f.members[i]? = some m →
    (m.context.token, m.kin.parent.bind f.token?) ∈ made
  /-- and shared as they say -/
  first : ∀ (i j : Nat) (m n : Member), f.members[i]? = some m → f.members[j]? = some n →
    (m.kin.first = n.kin.first ↔ m.context.token = n.context.token)
  called : ∀ k ∈ f.cancels, k < f.members.length
  cancelled : ∀ (i : Nat) (m : Member), f.members[i]? = some m →
    (m.context.isCancelled f.tokens = true ↔ ∃ k ∈ f.cancels, Kin.Reaches f.kin k i)
  version : ∀ (i : Nat) (m : Member), f.members[i]? = some m → m.context.version = m.version

section Rules

variable {Knows : κ → List (Token × Option Token) → Prop} {f f' : Family κ}
  {made : List (Token × Option Token)}

theorem IsKept.mem_made (h : IsKept Knows f made) {i : Nat} {m : Member}
    (hm : f.members[i]? = some m) : m.context.token ∈ made.map (·.1) :=
  List.mem_map_of_mem (h.made i m hm)

theorem Turn.withLive {i : Nat} {use : Member → Family κ}
    (h : ∀ m, f.members[i]? = some m → Turn Knows f made none (use m)) :
    Turn Knows f made none (f.withLive i use) := by
  unfold Family.withLive
  cases hm : f.live? i with
  | none => exact .nothing
  | some m => exact h m (live?_eq_some hm)

/-- **Every event** does one of these things. -/
theorem IsKept.turn (h : IsKept Knows f made) (lawful : LawfulTokens κ Knows) (e : ContextEvent) :
    Turn Knows f made (f.called? e) (f.step e) := by
  have fresh (v : Version) :
      Turn Knows f made none (f.add (Context.fresh f.tokens v) ⟨f.members.length, none⟩ v) := by
    obtain ⟨knows, new, uncancelled, same⟩ := lawful.fresh h.knows
    refine .own rfl knows new same (by rintro _ ⟨⟩) ?_
    constructor
    · intro cancelled
      exact absurd (uncancelled.symm.trans cancelled) Bool.false_ne_true
    · rintro ⟨_, _, ⟨⟩, -⟩
  cases e with
  | fresh v => exact fresh v
  | initial => exact fresh .newest
  | child i =>
    apply Turn.withLive
    intro m hm
    obtain ⟨knows, new, cancelled, same⟩ := lawful.child h.knows (h.mem_made hm)
    refine .own (h.version i m hm) ?_ new same ?_ ?_
    · have token : f.token? i = some m.context.token := by
        rw [token?, hm]
        rfl
      rw [Option.bind_some, token]
      exact knows
    · rintro _ ⟨⟩
      exact lt_of_member hm
    · constructor
      · intro follows
        exact ⟨i, m, rfl, hm, cancelled.symm.trans follows⟩
      · rintro ⟨_, n, ⟨⟩, hn, follows⟩
        rw [hm] at hn
        cases hn
        exact cancelled.trans follows
  | clone i =>
    apply Turn.withLive
    intro m hm
    obtain ⟨knows, same⟩ := lawful.clone h.knows (h.mem_made hm)
    exact .shared (h.version i m hm) hm rfl knows same
  | withVersion i v | withToken i v =>
    apply Turn.withLive
    intro m hm
    obtain ⟨knows, same⟩ := lawful.clone h.knows (h.mem_made hm)
    exact .shared rfl hm rfl knows same
  | cancel i =>
    simp only [called?, step, withLive]
    cases hm : f.live? i with
    | none => exact .nothing
    | some m => exact .cancel (live?_eq_some hm)
  | drop i =>
    apply Turn.withLive
    intro m hm
    obtain ⟨knows, same⟩ := lawful.drop h.knows (h.mem_made hm)
    exact .drop knows same

/-! ## The invariant -/

omit [TokenSystem κ] in
theorem token?_add {x : Context × κ} {k : Kin} {v : Version} {parent : Option Nat}
    (known : ∀ p, parent = some p → p < f.members.length) :
    parent.bind (f.add x k v).token? = parent.bind f.token? := by
  cases parent with
  | none => rfl
  | some p =>
    simp only [Option.bind_some, token?, add]
    rw [List.getElem?_append_left (known p rfl)]

namespace IsKept

theorem parent_lt (h : IsKept Knows f made) {i : Nat} {m : Member} (hm : f.members[i]? = some m)
    {p : Nat} (hp : m.kin.parent = some p) : p < f.members.length := by
  have := h.orderly.parent i m.kin p (getElem?_kin hm) hp
  have := h.orderly.first i m.kin (getElem?_kin hm)
  have := lt_of_member hm
  omega

/-- **One more context** whose token is as it says. -/
theorem add (h : IsKept Knows f made) {x : Context} {c : κ} {k : Kin} {v : Version}
    {made' : List (Token × Option Token)} (knows : Knows c made') (more : made ⊆ made')
    (same : TokenSystem.Same f.tokens c made) (le : k.first ≤ f.members.length)
    (parent : ∀ p, k.parent = some p → p < k.first)
    (mem : (x.token, k.parent.bind f.token?) ∈ made')
    (first : ∀ (j : Nat) (n : Member), f.members[j]? = some n →
      (n.kin.first = k.first ↔ n.context.token = x.token))
    (cancelled : x.isCancelled c = true ↔
      ∃ j ∈ f.cancels, Kin.Reaches (f.kin ++ [k]) j f.members.length)
    (version : x.version = v) : IsKept Knows (f.add (x, c) k v) made' := by
  constructor
  · exact knows
  · rw [kin_add]
    exact h.orderly.add (f.length_kin ▸ le) parent
  · intro i m hm
    rcases mem_add hm with hm | ⟨-, rfl⟩
    · rw [token?_add fun p hp => h.parent_lt hm hp]
      exact more (h.made i m hm)
    · rw [token?_add fun p hp => Nat.lt_of_lt_of_le (parent p hp) le]
      exact mem
  · intro i j m n hm hn
    rcases mem_add hm with hm | ⟨-, rfl⟩ <;> rcases mem_add hn with hn | ⟨-, rfl⟩
    · exact h.first i j m n hm hn
    · exact first i m hm
    · exact eq_comm.trans ((first j n hn).trans eq_comm)
    · exact iff_of_true rfl rfl
  · intro j hj
    have := h.called j hj
    show j < (f.members ++ [_]).length
    rw [List.length_append]
    omega
  · intro i m hm
    rw [kin_add]
    rcases mem_add hm with hm | ⟨rfl, rfl⟩
    · refine Iff.trans ?_ ((h.cancelled i m hm).trans ?_)
      · exact Bool.eq_iff_iff.1 (same _ (h.mem_made hm))
      · refine exists_congr fun j => and_congr_right fun hj => ?_
        have bound := lt_of_member hm
        have hj := h.called j hj
        rw [← f.length_kin] at bound hj
        exact (Kin.reaches_add h.orderly hj bound).symm
    · exact cancelled
  · intro i m hm
    rcases mem_add hm with hm | ⟨-, rfl⟩
    · exact h.version i m hm
    · exact version

/-- **A cancellation** cancels those whom it reaches. -/
theorem cancelled_cancel (h : IsKept Knows f made) (lawful : LawfulTokens κ Knows) {k : Nat}
    {n : Member} (hn : f.members[k]? = some n) {i : Nat} {m : Member}
    (hm : f.members[i]? = some m) :
    m.context.isCancelled (n.context.cancel f.tokens) = true ↔
      m.context.isCancelled f.tokens = true ∨ Kin.Reaches f.kin k i := by
  induction i using Nat.strongRecOn generalizing m with
  | _ i ih =>
    have rule := (lawful.cancel h.knows (h.mem_made hn)).2 _ _ (h.made i m hm)
    have shares : m.context.token = n.context.token ↔ Kin.Shares f.kin k i := by
      rw [← h.first i k m n hm hn]
      unfold Kin.Shares
      rw [getElem?_kin hm, getElem?_kin hn]
      constructor
      · intro same
        exact ⟨_, _, rfl, rfl, same.symm⟩
      · rintro ⟨_, _, ⟨⟩, ⟨⟩, same⟩
        exact same.symm
    have reached := h.cancelled i m hm
    constructor
    · intro cancelled
      rcases rule.1 cancelled with before | same | ⟨q, hq, above⟩
      · exact .inl before
      · exact .inr (.share (shares.1 same))
      · -- the token was made from that of a context before
        obtain ⟨p, hp, hq⟩ := Option.bind_eq_some_iff.1 hq
        obtain ⟨o, ho, rfl⟩ := Option.map_eq_some_iff.1 hq
        have below : Kin.IsBelow f.kin i p := ⟨_, getElem?_kin hm, hp⟩
        rcases (ih p (below.lt h.orderly) ho).1 above with before | reaches
        · obtain ⟨j, hj, reaches⟩ := (h.cancelled p o ho).1 before
          exact .inl (reached.2 ⟨j, hj, .descend below reaches⟩)
        · exact .inr (.descend below reaches)
    · rintro (before | reaches)
      · exact rule.2 (.inl before)
      · rcases Kin.reaches_iff.1 reaches with same | ⟨p, ⟨a, ha, hp⟩, reaches⟩
        · exact rule.2 (.inr (.inl (shares.2 same)))
        · cases (getElem?_kin hm).symm.trans ha
          have ho := List.getElem?_eq_getElem (h.parent_lt hm hp)
          have below : Kin.IsBelow f.kin i p := ⟨_, getElem?_kin hm, hp⟩
          have above := (ih p (below.lt h.orderly) ho).2 (.inr reaches)
          refine rule.2 (.inr (.inr ⟨_, ?_, above⟩))
          rw [hp, Option.bind_some, token?, ho]
          rfl

/-- **A token of its own** is cancelled if the context that it was made from is. -/
theorem own (h : IsKept Knows f made) {x : Context} {c : κ} {parent : Option Nat} {v : Version}
    (version : x.version = v) (knows : Knows c (made ++ [(x.token, parent.bind f.token?)]))
    (new : x.token ∉ made.map (·.1)) (same : TokenSystem.Same f.tokens c made)
    (known : ∀ p, parent = some p → p < f.members.length)
    (follows : x.isCancelled c = true ↔ ∃ p n, parent = some p ∧ f.members[p]? = some n ∧
      n.context.isCancelled f.tokens = true) :
    IsKept Knows (f.add (x, c) ⟨f.members.length, parent⟩ v)
      (made ++ [(x.token, parent.bind f.token?)]) := by
  have length := f.length_kin
  apply h.add knows (List.subset_append_left _ _) same (Nat.le_refl _) known
  case mem => exact List.mem_append_right _ (List.mem_singleton_self _)
  case version => exact version
  case first =>
    -- neither its number nor its token was there before
    intro j n hn
    apply iff_of_false
    · have := h.orderly.first j n.kin (getElem?_kin hn)
      have := lt_of_member hn
      show n.kin.first ≠ f.members.length
      omega
    · intro token
      exact new (token ▸ h.mem_made hn)
  case cancelled =>
    have reached {j : Nat} (hj : j ∈ f.cancels) :
        Kin.Reaches (f.kin ++ [⟨f.members.length, parent⟩]) j f.members.length ↔
          ∃ p, parent = some p ∧ Kin.Reaches f.kin j p := by
      rw [← length]
      exact Kin.reaches_own h.orderly (length ▸ h.called j hj) (length ▸ known)
    rw [follows]
    constructor
    · rintro ⟨p, n, hp, hn, cancelled⟩
      obtain ⟨j, hj, reaches⟩ := (h.cancelled p n hn).1 cancelled
      exact ⟨j, hj, (reached hj).2 ⟨p, hp, reaches⟩⟩
    · rintro ⟨j, hj, reaches⟩
      obtain ⟨p, hp, reaches⟩ := (reached hj).1 reaches
      have hn := List.getElem?_eq_getElem (known p hp)
      exact ⟨p, _, hp, hn, (h.cancelled p _ hn).2 ⟨j, hj, reaches⟩⟩

/-- **A shared token** is cancelled with the context that it is shared with. -/
theorem shared (h : IsKept Knows f made) {x : Context} {c : κ} {i : Nat} {m : Member}
    {v : Version} (version : x.version = v) (hm : f.members[i]? = some m)
    (token : x.token = m.context.token) (knows : Knows c made)
    (same : TokenSystem.Same f.tokens c made) : IsKept Knows (f.add (x, c) m.kin v) made := by
  have length := f.length_kin
  have le : m.kin.first ≤ f.members.length :=
    Nat.le_trans (h.orderly.first i m.kin (getElem?_kin hm)) (Nat.le_of_lt (lt_of_member hm))
  have parent (p : Nat) : m.kin.parent = some p → p < m.kin.first :=
    h.orderly.parent i m.kin p (getElem?_kin hm)
  apply h.add knows (List.Subset.refl _) same le parent
  case mem =>
    rw [token]
    exact h.made i m hm
  case version => exact version
  case first =>
    intro j n hn
    rw [token]
    exact h.first j i n m hn hm
  case cancelled =>
    have cancelled : x.isCancelled c = m.context.isCancelled f.tokens := by
      rw [Context.isCancelled, token]
      exact same _ (h.mem_made hm)
    rw [cancelled, h.cancelled i m hm, ← length]
    refine exists_congr fun j => and_congr_right fun hj => ?_
    exact (Kin.reaches_shared h.orderly (length ▸ h.called j hj) (getElem?_kin hm)).symm

/-- **A cancellation** is noted. -/
theorem cancel (h : IsKept Knows f made) (lawful : LawfulTokens κ Knows) {k : Nat} {n : Member}
    (hn : f.members[k]? = some n) :
    IsKept Knows { f with tokens := n.context.cancel f.tokens, cancels := k :: f.cancels }
      made := by
  refine ⟨(lawful.cancel h.knows (h.mem_made hn)).1, h.orderly, h.made, h.first, ?_, ?_,
    h.version⟩
  · intro j hj
    rcases List.mem_cons.1 hj with rfl | hj
    · exact lt_of_member hn
    · exact h.called j hj
  · intro i m hm
    refine (h.cancelled_cancel lawful hn hm).trans ?_
    rw [h.cancelled i m hm]
    constructor
    · rintro (⟨j, hj, reaches⟩ | reaches)
      · exact ⟨j, List.mem_cons_of_mem _ hj, reaches⟩
      · exact ⟨k, List.mem_cons_self, reaches⟩
    · rintro ⟨j, hj, reaches⟩
      rcases List.mem_cons.1 hj with rfl | hj
      · exact .inr reaches
      · exact .inl ⟨j, hj, reaches⟩

/-- **A context that is dropped** leaves its token and its kin behind. -/
theorem drop (h : IsKept Knows f made) (i : Nat) {c : κ} (knows : Knows c made)
    (same : TokenSystem.Same f.tokens c made) :
    IsKept Knows { f with tokens := c, members := f.forgotten i } made := by
  have kin : Family.kin { f with tokens := c, members := f.forgotten i } = f.kin :=
    f.map_forgotten i fun _ => rfl
  have token (j : Nat) :
      Family.token? { f with tokens := c, members := f.forgotten i } j = f.token? j := by
    rw [token?, token?, ← List.getElem?_map, ← List.getElem?_map]
    exact congrArg (·[j]?) (f.map_forgotten i fun _ => rfl)
  refine ⟨knows, kin ▸ h.orderly, ?_, ?_, ?_, ?_, ?_⟩
  · intro j m hm
    obtain ⟨n, hn, context, same, -⟩ := mem_forgotten hm
    rw [context, same, funext token]
    exact h.made j n hn
  · intro j k m n hm hn
    obtain ⟨m', hm', context, kin, -⟩ := mem_forgotten hm
    obtain ⟨n', hn', context', kin', -⟩ := mem_forgotten hn
    rw [context, kin, context', kin']
    exact h.first j k m' n' hm' hn'
  · intro j hj
    show j < (f.forgotten i).length
    rw [forgotten, List.length_modify]
    exact h.called j hj
  · intro j m hm
    obtain ⟨n, hn, context, -⟩ := mem_forgotten hm
    rw [kin, context]
    refine Iff.trans ?_ (h.cancelled j n hn)
    exact Bool.eq_iff_iff.1 (same _ (h.mem_made hn))
  · intro j m hm
    obtain ⟨n, hn, context, -, version⟩ := mem_forgotten hm
    rw [context, version]
    exact h.version j n hn

/-- **Every event** keeps a family. -/
theorem after (h : IsKept Knows f made) (lawful : LawfulTokens κ Knows) {called : Option Nat}
    (turn : Turn Knows f made called f') : ∃ made', IsKept Knows f' made' := by
  cases turn with
  | nothing => exact ⟨made, h⟩
  | own version knows new same known follows =>
    exact ⟨_, h.own version knows new same known follows⟩
  | shared version hm token knows same => exact ⟨made, h.shared version hm token knows same⟩
  | cancel hn => exact ⟨made, h.cancel lawful hn⟩
  | drop knows same => exact ⟨made, h.drop _ knows same⟩

/-- **What an event changes** for a context that is there: it stays as it was, and it is
cancelled if it was before or if the event cancels one that reaches it. -/
theorem change (h : IsKept Knows f made) (lawful : LawfulTokens κ Knows) {called : Option Nat}
    (turn : Turn Knows f made called f') {i : Nat} {m : Member} (hm : f.members[i]? = some m) :
    ∃ m', f'.members[i]? = some m' ∧ m'.context = m.context ∧ m'.kin = m.kin ∧
      (m.context.isCancelled f'.tokens = true ↔ m.context.isCancelled f.tokens = true ∨
        ∃ k, called = some k ∧ Kin.Reaches f.kin k i) := by
  have unchanged {c : κ} (same : TokenSystem.Same f.tokens c made) :
      m.context.isCancelled c = true ↔ m.context.isCancelled f.tokens = true ∨
        ∃ k, none = some k ∧ Kin.Reaches f.kin k i := by
    rw [or_iff_left (by rintro ⟨_, ⟨⟩, -⟩)]
    exact Bool.eq_iff_iff.1 (same _ (h.mem_made hm))
  cases turn with
  | nothing => exact ⟨m, hm, rfl, rfl, unchanged fun _ _ => rfl⟩
  | own version knows new same => exact ⟨m, getElem?_add _ _ _ hm, rfl, rfl, unchanged same⟩
  | shared version hn token knows same =>
    exact ⟨m, getElem?_add _ _ _ hm, rfl, rfl, unchanged same⟩
  | @cancel k n hn =>
    refine ⟨m, hm, rfl, rfl, ?_⟩
    refine (h.cancelled_cancel lawful hn hm).trans (or_congr_right ?_)
    constructor
    · intro reaches
      exact ⟨k, rfl, reaches⟩
    · rintro ⟨_, ⟨⟩, reaches⟩
      exact reaches
  | @drop j c knows same =>
    refine ⟨if j = i then { m with isLive := false } else m, ?_, ?_, ?_, unchanged same⟩
    · show (f.forgotten j)[i]? = _
      rw [forgotten, List.getElem?_modify, hm]
      rfl
    · split <;> rfl
    · split <;> rfl

theorem start {c : κ} (h : Knows c []) : IsKept Knows { tokens := c } [] := by
  have none {i : Nat} {m : Member} : ¬ ([] : List Member)[i]? = some m := by simp
  refine ⟨h, ⟨?_, ?_⟩, ?_, ?_, ?_, ?_, ?_⟩
  · intro i a ha
    cases ha
  · intro i a p ha
    cases ha
  · intro i m hm
    exact absurd hm none
  · intro i j m n hm
    exact absurd hm none
  · rintro k ⟨⟩
  · intro i m hm
    exact absurd hm none
  · intro i m hm
    exact absurd hm none

theorem run (lawful : LawfulTokens κ Knows) {c : κ} (h : Knows c []) (events : List ContextEvent) :
    ∃ made, IsKept Knows (({ tokens := c } : Family κ).run events) made := by
  induction events using List.reverseRecOn with
  | nil => exact ⟨[], start h⟩
  | append_singleton events e ih =>
    obtain ⟨made, kept⟩ := ih
    rw [run_snoc]
    exact kept.after lawful (kept.turn lawful e)

end IsKept

/-- **Cancellation follows the tree of contexts and nothing else.** Whatever a program did, a
context that was not dropped is cancelled exactly if a context was cancelled that reaches
it, who waits for that goes on exactly then, and the version is the one that was asked for. No
context reaches the one that its token was made from, nor another one made from that, unless
they share a token. And whatever the program does next, a context stays as it was, and
it is cancelled afterwards if it was before or if the program cancels one that reaches it. -/
theorem cancelled_run (lawful : LawfulTokens κ Knows) {c : κ} (start : Knows c [])
    (events : List ContextEvent) :
    let f := ({ tokens := c } : Family κ).run events
    (∀ i m, f.members[i]? = some m → m.isLive = true →
      (m.context.isCancelled f.tokens = true ↔ ∃ k ∈ f.cancels, Kin.Reaches f.kin k i) ∧
        m.context.isReady f.tokens = m.context.isCancelled f.tokens ∧
        m.context.version = m.version) ∧
    (∀ i p, Kin.IsBelow f.kin i p → ¬ Kin.Reaches f.kin i p ∧
      ∀ j, Kin.IsBelow f.kin j p → (Kin.Reaches f.kin i j ↔ Kin.Shares f.kin i j)) ∧
    ∀ e i m, f.members[i]? = some m → ∃ m', (f.step e).members[i]? = some m' ∧
      m'.context = m.context ∧ m'.kin = m.kin ∧
      (m.context.isCancelled (f.step e).tokens = true ↔
        m.context.isCancelled f.tokens = true ∨
          ∃ k, f.called? e = some k ∧ Kin.Reaches f.kin k i) := by
  intro f
  obtain ⟨made, kept⟩ := IsKept.run lawful start events
  refine ⟨?_, ?_, ?_⟩
  · intro i m hm _
    refine ⟨kept.cancelled i m hm, ?_, kept.version i m hm⟩
    exact lawful.ready kept.knows (kept.mem_made hm)
  · intro i p below
    refine ⟨below.not_reaches kept.orderly, ?_⟩
    intro j below'
    exact below.apart below' kept.orderly
  · intro e i m hm
    exact kept.change lawful (kept.turn lawful e) hm

end Rules

/-- A grandchild of a context that is cancelled after the child in between was dropped. -/
def orphan : List ContextEvent := [.initial, .child 0, .child 1, .drop 1, .cancel 0]

/-- It is cancelled, too. -/
theorem cancelled_run_orphan :
    ∃ m, (({ tokens := {} } : Family Cancellation).run orphan).members[2]? = some m ∧
      m.context.isCancelled (({ tokens := {} } : Family Cancellation).run orphan).tokens = true ∧
      m.context.version = .newest := by
  have start : Cancellation.Knows {} [] := by
    constructor
    · rintro t ⟨⟩
    · rintro n ⟨⟩
    · rintro t ⟨⟩
    · rintro t p ⟨⟩
  obtain ⟨cancelled, -, version⟩ :=
    (cancelled_run Cancellation.lawful start orphan).1 2 _ rfl rfl
  refine ⟨_, rfl, cancelled.2 ⟨0, List.mem_singleton_self 0, ?_⟩, version⟩
  apply Kin.Reaches.descend (p := 1) ⟨_, rfl, rfl⟩
  apply Kin.Reaches.descend (p := 0) ⟨_, rfl, rfl⟩
  exact .share ⟨_, _, rfl, rfl, rfl⟩

end Family
end ImageBuild
