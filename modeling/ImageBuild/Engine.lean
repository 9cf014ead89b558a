import ImageBuild.Context
import ImageBuild.Options
import ImageBuild.Progress
import ImageBuild.Upload

/-!
# Build engines

A build works at a desk: it takes chunks of the upload, writes progress, and
changes the workshop that it shares with the other builds. It goes in moves,
and between two moves anything else may happen in the workshop. A build that
can only go on when something happens outside waits. Every engine tells how
much work a build has left, so that moves without waiting come to an end.
-/

namespace ImageBuild

/-- What the builds of an engine share. -/
structure Workshop (σ : Type) where
  store : σ
  tokens : Cancellation

/-- What a build works with. -/
structure Desk (σ τ : Type) extends Workshop σ where
  /-- the upload, until it is put away -/
  source : Option Source
  writer : Writer τ

/-- How a piece of work goes on. -/
inductive Move (ι ρ : Type) where
  | go (next : ι)
  /-- nothing can be done now -/
  | wait
  | stop (result : ρ)

/-- How much work is left: items of the upload come first, because what they
bring is not known before. -/
structure Work where
  items : Nat
  rank : Nat
  steps : Nat

namespace Work

def Less (a b : Work) : Prop :=
  Prod.Lex (· < ·) (Prod.Lex (· < ·) (· < ·)) (a.items, a.rank, a.steps) (b.items, b.rank, b.steps)

theorem less_wf : WellFounded Less :=
  InvImage.wf (fun w : Work => (w.items, w.rank, w.steps))
    (Prod.lex ⟨_, Nat.lt_wfRel.wf⟩ (Prod.lex ⟨_, Nat.lt_wfRel.wf⟩ ⟨_, Nat.lt_wfRel.wf⟩)).wf

instance : WellFoundedRelation Work := ⟨Less, less_wf⟩

theorem less_of_items {a b : Work} (h : a.items < b.items) : Less a b := .left _ _ h

theorem less_of_rank {a b : Work} (h : a.items ≤ b.items) (h' : a.rank < b.rank) : Less a b := by
  rcases Nat.lt_or_eq_of_le h with h | h
  · exact less_of_items h
  · unfold Less
    rw [h]
    exact .right _ (.left _ _ h')

theorem less_of_steps {a b : Work} (h : a.items ≤ b.items) (h' : a.rank = b.rank)
    (h'' : a.steps < b.steps) : Less a b := by
  rcases Nat.lt_or_eq_of_le h with h | h
  · exact less_of_items h
  · unfold Less
    rw [h, h']
    exact .right _ (.right _ h'')

theorem less_raise {a b : Work} (h : Less a b) (n : Nat) :
    Less { a with rank := a.rank + n } { b with rank := b.rank + n } := by
  unfold Less at h ⊢
  simp only [Prod.lex_def] at h ⊢
  omega

end Work

namespace Desk

variable {σ τ : Type}

/-- The number of items of the upload that wait to be taken. -/
def items (d : Desk σ τ) : Nat :=
  match d.source with
  | none => 0
  | some s => s.upload.items.length

def inWorkshop (d : Desk σ τ) (w : Workshop σ) : Desk σ τ := { d with toWorkshop := w }

def withStore (d : Desk σ τ) (store : σ) : Desk σ τ := d.inWorkshop { d.toWorkshop with store }

@[simp] theorem items_withStore (d : Desk σ τ) (s : σ) : (d.withStore s).items = d.items := rfl

variable [Sink τ]

def write (d : Desk σ τ) (f : Frame) : Sent × Desk σ τ :=
  let (sent, writer) := d.writer.write f
  (sent, { d with writer })

/-- Tells the sink that no more of the upload will be read. -/
def uploadDone (d : Desk σ τ) : Desk σ τ :=
  { d with writer := { d.writer with sink := Sink.uploadDone d.writer.sink } }

/-- Takes the next chunk of the upload `s`. The sink is told when it ends. -/
def take (d : Desk σ τ) (s : Source) : Polled × Desk σ τ :=
  let d' := { d with source := some s.next.2 }
  (s.next.1, if s.next.1 = .ended then d'.uploadDone else d')

def dropSource (d : Desk σ τ) : Desk σ τ :=
  match d.source with
  | none => d
  | some _ => { d with source := none }.uploadDone

/-- Writes a frame and goes on to `next`, or as `failed` says if it was not
taken. -/
def offer {ι ρ : Type} (d : Desk σ τ) (f : Frame) (next : ι) (failed : SinkError → Move ι ρ) :
    Move ι ρ × Desk σ τ :=
  match d.write f with
  | (.accepted, d) => (.go next, d)
  | (.blocked, d) => (.wait, d)
  | (.failed e, d) => (failed e, d)

@[simp] theorem items_uploadDone (d : Desk σ τ) : d.uploadDone.items = d.items := rfl

@[simp] theorem items_write (d : Desk σ τ) (f : Frame) : (d.write f).2.items = d.items := rfl

@[simp] theorem items_dropSource (d : Desk σ τ) : d.dropSource.items = 0 := by
  unfold dropSource
  split
  · next h => simp [items, h]
  · rfl

theorem items_take_le {d : Desk σ τ} {s : Source} (h : d.source = some s) :
    (d.take s).2.items ≤ d.items := by
  have : (d.take s).2.items = s.next.2.upload.items.length := by
    unfold take
    split <;> rfl
  rw [this]
  simp only [items, h]
  exact Source.length_items_next_le s

theorem items_take_lt {d : Desk σ τ} {s : Source} (h : d.source = some s)
    (h' : (d.take s).1 ≠ .ended) (h'' : (d.take s).1 ≠ .starved) :
    (d.take s).2.items < d.items := by
  have : (d.take s).2.items = s.next.2.upload.items.length := by
    unfold take
    split <;> rfl
  rw [this]
  simp only [items, h]
  exact Source.length_items_next h' h''

@[simp] theorem items_offer {ι ρ : Type} (d : Desk σ τ) (f : Frame) (next : ι)
    (failed : SinkError → Move ι ρ) : (d.offer f next failed).2.items = d.items := by
  have := items_write d f
  unfold offer
  split <;> simp_all

theorem next_of_offer {ι ρ : Type} {d d' : Desk σ τ} {f : Frame} {next n : ι}
    {failed : SinkError → Move ι ρ} (h : d.offer f next failed = (.go n, d')) :
    d'.items = d.items ∧ (n = next ∨ ∃ e, failed e = .go n) := by
  have hi := items_offer d f next failed
  rw [h] at hi
  refine ⟨hi, ?_⟩
  unfold offer at h
  split at h
  · simp only [Prod.mk.injEq, Move.go.injEq] at h
    exact .inl h.1.symm
  · simp at h
  · next e _ _ =>
    simp only [Prod.mk.injEq] at h
    exact .inr ⟨e, h.1⟩

end Desk

/-- An engine with builds `ι` and states `σ`. -/
class Engine (ι : Type) (σ : outParam Type) where
  start : Context → BuildOptions → ι
  move : {τ : Type} → [Sink τ] → ι → Desk σ τ → Move ι (Except BuildError String) × Desk σ τ
  /-- What becomes of the store when a build is given up between two moves. -/
  abandon : ι → σ → σ
  /-- Cancels the running build with an id. -/
  cancel : Version → String → Workshop σ → Except BuildError Unit × Workshop σ
  /-- Removes records from the cache of the engine. -/
  prune : Version → PruneOptions → σ → Except BuildError PruneReport × σ
  /-- How far a build is from its end. -/
  rank : ι → Nat
  /-- How many moves are left to the next rank, at most. -/
  steps : ι → Nat
  /-- A build that moves has less work left. -/
  less : ∀ {τ : Type} [Sink τ] {j j' : ι} {d d' : Desk σ τ}, move j d = (.go j', d') →
    Work.Less ⟨d'.items, rank j', steps j'⟩ ⟨d.items, rank j, steps j⟩

namespace Engine

variable {ι σ τ : Type} [Engine ι σ] [Sink τ]

def work (j : ι) (d : Desk σ τ) : Work := ⟨d.items, rank j, steps j⟩

/-- Makes moves as long as possible. A build that has come to its end has a
result, any other one waits. -/
def run (j : ι) (d : Desk σ τ) : (ι ⊕ Except BuildError String) × Desk σ τ :=
  match _h : move j d with
  | (.go j', d') => run j' d'
  | (.wait, d') => (.inl j, d')
  | (.stop result, d') => (.inr result, d')
termination_by work j d
decreasing_by exact less _h

end Engine
end ImageBuild
