import ImageBuild.Engine

/-!
# An engine that does as it likes

The builds of this engine follow a strategy. A strategy decides from all that a
build has seen so far, which is what became of the frames it wrote and what it
found in the upload, whether to write or to read next; after a number of acts
the build ends with a result. Whatever a build of any engine writes and reads
before it ends, some strategy does the same. The engine notes what was written
and how the build ended.
-/

namespace ImageBuild

namespace Strategy

/-- What a build sees of an act. -/
inductive Sight where
  /-- a frame was accepted, or refused with a cause -/
  | written (refusal : Option SinkError)
  | chunk (data : ByteArray)
  | fault (reason : String)
  | ended
  | putAway

/-- What a build can do next. -/
inductive Act where
  | write (f : Frame)
  | tell (m : Message)
  /-- takes the next chunk of the upload -/
  | read
  | putAway

end Strategy

/-- What a build does, as far as it has seen, latest sight first. -/
structure Strategy where
  acts : Nat
  next : List Strategy.Sight → Strategy.Act
  result : List Strategy.Sight → Except BuildError String

/-- An engine whose builds follow a strategy. -/
structure FreeEngine where
  strategy : Strategy
  /-- the frames that were written, whether they were accepted or not -/
  written : List Frame := []
  /-- how the build has ended -/
  result : Option (Except BuildError String) := none

namespace FreeEngine

open Strategy (Sight Act)

inductive Job where
  | arriving
  | acting (left : Nat) (seen : List Sight)

variable {τ : Type}

def note (d : Desk FreeEngine τ) (f : Frame) : Desk FreeEngine τ :=
  d.withStore { d.store with written := d.store.written ++ [f] }

@[simp] theorem items_note (d : Desk FreeEngine τ) (f : Frame) : (note d f).items = d.items := rfl

variable [Sink τ]

/-- Writes a frame. A refusal is only seen; the strategy says what follows. -/
def put (left : Nat) (seen : List Sight) (f : Frame) (d : Desk FreeEngine τ) :
    Move Job (Except BuildError String) × Desk FreeEngine τ :=
  match d.write f with
  | (.accepted, d) => (.go (.acting left (.written none :: seen)), note d f)
  | (.blocked, d) => (.wait, d)
  | (.failed e, d) => (.go (.acting left (.written (some e) :: seen)), note d f)

def take (left : Nat) (seen : List Sight) (d : Desk FreeEngine τ) :
    Move Job (Except BuildError String) × Desk FreeEngine τ :=
  match d.source with
  | none => (.go (.acting left (.ended :: seen)), d)
  | some s =>
    match d.take s with
    | (.starved, _) => (.wait, d)
    | (.paused, d) => (.go (.acting (left + 1) seen), d)
    | (.chunk data, d) => (.go (.acting left (.chunk data :: seen)), d)
    | (.fault reason, d) => (.go (.acting left (.fault reason :: seen)), d)
    | (.ended, d) => (.go (.acting left (.ended :: seen)), d)

def Job.move (j : Job) (d : Desk FreeEngine τ) :
    Move Job (Except BuildError String) × Desk FreeEngine τ :=
  match j with
  | .arriving => (.go (.acting d.store.strategy.acts []), d)
  | .acting 0 seen =>
    (.stop (d.store.strategy.result seen),
      d.withStore { d.store with result := some (d.store.strategy.result seen) })
  | .acting (left + 1) seen =>
    match d.store.strategy.next seen with
    | .write f => put left seen f d
    | .tell m => put left seen m.frame d
    | .read => take left seen d
    | .putAway => (.go (.acting left (.putAway :: seen)), d.dropSource)

def Job.rank : Job → Nat
  | .arriving => 1
  | .acting .. => 0

def Job.steps : Job → Nat
  | .arriving => 0
  | .acting left _ => left

theorem less_of_put {left : Nat} {seen : List Sight} {f : Frame} {d d' : Desk FreeEngine τ}
    {j : Job} (h : put left seen f d = (.go j, d')) :
    Work.Less ⟨d'.items, j.rank, j.steps⟩ ⟨d.items, 0, left + 1⟩ := by
  have hi := Desk.items_write d f
  unfold put at h
  split at h
  · next hw =>
    rw [hw] at hi
    cases h
    exact Work.less_of_steps (Nat.le_of_eq hi) rfl (Nat.lt_succ_self _)
  · cases h
  · next hw =>
    rw [hw] at hi
    cases h
    exact Work.less_of_steps (Nat.le_of_eq hi) rfl (Nat.lt_succ_self _)

theorem less_of_take {left : Nat} {seen : List Sight} {d d' : Desk FreeEngine τ} {j : Job}
    (h : take left seen d = (.go j, d')) :
    Work.Less ⟨d'.items, j.rank, j.steps⟩ ⟨d.items, 0, left + 1⟩ := by
  unfold take at h
  split at h
  · cases h
    exact Work.less_of_steps (Nat.le_refl _) rfl (Nat.lt_succ_self _)
  · next s hs =>
    have le := Desk.items_take_le hs
    have lt := Desk.items_take_lt hs
    split at h
    · cases h
    · next ht =>
      rw [ht] at lt
      cases h
      exact Work.less_of_items (lt (by simp) (by simp))
    · next ht =>
      rw [ht] at le
      cases h
      exact Work.less_of_steps le rfl (Nat.lt_succ_self _)
    · next ht =>
      rw [ht] at le
      cases h
      exact Work.less_of_steps le rfl (Nat.lt_succ_self _)
    · next ht =>
      rw [ht] at le
      cases h
      exact Work.less_of_steps le rfl (Nat.lt_succ_self _)

theorem less_of_move {j j' : Job} {d d' : Desk FreeEngine τ} (h : j.move d = (.go j', d')) :
    Work.Less ⟨d'.items, j'.rank, j'.steps⟩ ⟨d.items, j.rank, j.steps⟩ := by
  cases j with
  | arriving =>
    cases h
    exact Work.less_of_rank (Nat.le_refl _) Nat.zero_lt_one
  | acting left seen =>
    cases left with
    | zero => cases h
    | succ left =>
      simp only [Job.move] at h
      split at h
      · exact less_of_put h
      · exact less_of_put h
      · exact less_of_take h
      · cases h
        exact Work.less_of_steps (by simp) rfl (Nat.lt_succ_self _)

instance : Engine Job FreeEngine where
  start _ _ := .arriving
  move := Job.move
  abandon _ s := s
  cancel _ _ w := (.ok (), w)
  prune _ _ s := (.ok {}, s)
  rank := Job.rank
  steps := Job.steps
  less := less_of_move

end FreeEngine
end ImageBuild
