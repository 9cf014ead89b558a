import ImageBuild.ContextEngine.Job

/-!
# The context engine

Every move of a build takes an item from the upload or brings the build closer
to its end, so the builds of this module form an engine.
-/

namespace ImageBuild.ContextEngine

namespace Phase

def rank : Phase → Nat
  | .opening => 12
  | .writing .. => 11
  | .reporting .. => 10
  | .receiving .. => 9
  | .flushing .. => 8
  | .totalling .. => 7
  | .looking .. => 6
  | .noting .. => 5
  | .inspecting .. => 4
  | .telling .. => 3
  | .concluding .. => 2
  | .discarding .. => 1
  | .leaving .. => 0

def steps : Phase → Nat
  | .telling _ _ steps _ => steps.length
  | _ => 0

end Phase

variable {τ : Type}

theorem rank_inspect (token : Token) (o : BuildOptions) (c : ReceivedContext) (isKnown : Bool)
    (d : Desk Store τ) : (inspect token o c isKnown d).rank < 4 := by
  rcases inspect_fails_or_tells token o c isKnown d with ⟨e, h⟩ | ⟨steps, id, h⟩ <;> rw [h] <;>
    simp [Phase.rank]

theorem rank_written (file threshold received : Nat) :
    (Phase.written file threshold received).rank < 11 := by
  unfold Phase.written
  split <;> simp [Phase.rank]

theorem rank_conclude (o : BuildOptions) (c : ReceivedContext) (isKnown : Bool)
    (result : Except BuildError String) (s : Store) :
    (conclude o c isKnown result s).1.rank < 2 := by
  rcases conclude_cases o c isKnown result s with
    ⟨-, h⟩ | ⟨id, -, -, -, -, h⟩ | ⟨id, -, -, -, -, h⟩ <;> rw [h] <;> simp [Phase.rank]

variable [Sink τ]

def work (p : Phase) (d : Desk Store τ) : Work := ⟨d.items, p.rank, p.steps⟩

theorem less_of_offer {d d' : Desk Store τ} {f : Frame} {p next p' : Phase}
    {failed : SinkError → Move Phase (Except BuildError String)}
    (h : d.offer f next failed = (.go p', d')) (hn : next.rank < p.rank)
    (hf : ∀ e q, failed e = .go q → q.rank < p.rank) : Work.Less (work p' d') (work p d) := by
  obtain ⟨hi, hp⟩ := Desk.next_of_offer h
  refine Work.less_of_rank (Nat.le_of_eq hi) ?_
  rcases hp with rfl | ⟨e, he⟩
  · exact hn
  · exact hf e p' he

omit [Sink τ] in
theorem less_of_spool {α : Type} {d d' : Desk Store τ} {a : α}
    {next : Except String α → Phase × Store} {p p' : Phase} (h : spool d a next = (.go p', d'))
    (done : (next (.ok a)).1.rank < p.rank)
    (failed : ∀ reason, (next (.error reason)).1.rank < p.rank) :
    Work.Less (work p' d') (work p d) := by
  rcases spool_cases d a next with ⟨-, hs⟩ | ⟨reason, -, hs⟩ <;> rw [hs] at h <;> cases h
  · exact Work.less_of_rank (Nat.le_refl _) done
  · exact Work.less_of_rank (Nat.le_refl _) (failed reason)

theorem less_of_receive {token : Token} {file threshold : Nat} {d d' : Desk Store τ} {p' : Phase}
    (h : receive token file threshold d = (.go p', d')) :
    Work.Less (work p' d') (work (.receiving file threshold) d) := by
  rcases receive_cases token file threshold d with
    ⟨-, hr⟩ | ⟨-, hr⟩ | ⟨s, hs, ⟨-, hr⟩ | ⟨found, hr⟩⟩ <;> rw [hr] at h <;> cases h
  · exact Work.less_of_rank (Nat.le_refl _) (by simp [work, Phase.rank, Phase.fail])
  · exact Work.less_of_rank (Nat.le_refl _) (by simp [work, Phase.rank, Phase.fail])
  · by_cases ended : s.next.1 = .ended
    · rw [ended]
      exact Work.less_of_rank (Desk.items_take_le hs) (by simp [work, Phase.found, Phase.rank])
    · exact Work.less_of_items (Desk.items_take_lt hs ended found)

theorem less_of_phase_move {token : Token} {o : BuildOptions} {p p' : Phase} {d d' : Desk Store τ}
    (h : p.move token o d = (.go p', d')) : Work.Less (work p' d') (work p d) := by
  cases p with
  | opening =>
    simp only [Phase.move] at h
    exact less_of_spool h (by simp [Phase.rank]) fun _ => by simp [Phase.rank]
  | receiving => exact less_of_receive h
  | writing =>
    simp only [Phase.move] at h
    exact less_of_spool h (rank_written ..) fun _ => by simp [Phase.rank, Phase.fail]
  | reporting =>
    exact less_of_offer h (by simp [Phase.rank]) (by rintro e _ ⟨⟩; simp [Phase.rank, Phase.fail])
  | flushing =>
    simp only [Phase.move] at h
    exact less_of_spool h (by simp [Phase.rank]) fun _ => by simp [Phase.rank, Phase.fail]
  | totalling =>
    exact less_of_offer h (by simp [Phase.rank]) (by rintro e _ ⟨⟩; simp [Phase.rank, Phase.fail])
  | looking =>
    simp only [Phase.move] at h
    split at h
    · simp only [Prod.mk.injEq, Move.go.injEq] at h
      obtain ⟨rfl, rfl⟩ := h
      exact Work.less_of_rank (by simp [work]) (by simp [work, Phase.rank])
    · simp only [Prod.mk.injEq, Move.go.injEq] at h
      obtain ⟨rfl, rfl⟩ := h
      refine Work.less_of_rank (by simp [work]) ?_
      split <;> simp [work, Phase.rank]
  | noting =>
    exact less_of_offer h (by simp [Phase.rank]) (by rintro e _ ⟨⟩; simp [Phase.rank])
  | inspecting =>
    simp only [Phase.move, Prod.mk.injEq, Move.go.injEq] at h
    obtain ⟨rfl, rfl⟩ := h
    exact Work.less_of_rank (Nat.le_refl _) (rank_inspect ..)
  | telling c isKnown steps id =>
    cases steps with
    | nil =>
      simp only [Phase.move, Prod.mk.injEq, Move.go.injEq] at h
      obtain ⟨rfl, rfl⟩ := h
      exact Work.less_of_rank (Nat.le_refl _) (by simp [work, Phase.rank])
    | cons step rest =>
      cases step with
      | check =>
        simp only [Phase.move, Prod.mk.injEq, Move.go.injEq] at h
        obtain ⟨rfl, rfl⟩ := h
        split
        · exact Work.less_of_rank (Nat.le_refl _) (by simp [work, Phase.rank])
        · exact Work.less_of_steps (Nat.le_refl _) rfl (by simp [work, Phase.steps])
      | line text =>
        obtain ⟨hi, hp⟩ := Desk.next_of_offer h
        rcases hp with rfl | ⟨e, he⟩
        · exact Work.less_of_steps (Nat.le_of_eq hi) rfl (by simp [work, Phase.steps])
        · cases he
          exact Work.less_of_rank (Nat.le_of_eq hi) (by simp [work, Phase.rank])
  | concluding =>
    simp only [Phase.move, Prod.mk.injEq, Move.go.injEq] at h
    obtain ⟨rfl, rfl⟩ := h
    exact Work.less_of_rank (Nat.le_refl _) (rank_conclude ..)
  | discarding =>
    simp only [Phase.move, Prod.mk.injEq, Move.go.injEq] at h
    obtain ⟨rfl, rfl⟩ := h
    exact Work.less_of_rank (Nat.le_refl _) (by simp [work, Phase.rank])
  | leaving => simp [Phase.move] at h

namespace Job

def rank : Job → Nat
  | .arriving .. => 13
  | .running _ _ p => p.rank

def steps : Job → Nat
  | .arriving .. => 0
  | .running _ _ p => p.steps

theorem less_of_move {j j' : Job} {d d' : Desk Store τ} (h : j.move d = (.go j', d')) :
    Work.Less ⟨d'.items, j'.rank, j'.steps⟩ ⟨d.items, j.rank, j.steps⟩ := by
  cases j with
  | arriving context options =>
    simp only [move, arrive] at h
    split at h
    · simp at h
    · split at h
      · simp at h
      · simp only [Prod.mk.injEq, Move.go.injEq] at h
        obtain ⟨rfl, rfl⟩ := h
        exact Work.less_of_rank (Nat.le_refl _) (by simp [rank, Phase.rank])
  | running token o p =>
    simp only [move] at h
    split at h
    · next hp =>
      simp only [Prod.mk.injEq, Move.go.injEq] at h
      obtain ⟨rfl, rfl⟩ := h
      exact less_of_phase_move hp
    · simp at h
    · simp at h

end Job

instance : Engine Job Store where
  start context options := .arriving context options
  move := Job.move
  abandon := Job.abandon
  cancel _ id w := (.ok (), { w with tokens := w.store.cancel id w.tokens })
  prune _ o s := s.prune o
  rank := Job.rank
  steps := Job.steps
  less := Job.less_of_move

end ImageBuild.ContextEngine
