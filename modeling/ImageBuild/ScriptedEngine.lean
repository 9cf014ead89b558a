import ImageBuild.Engine

/-!
# Scripted engines

A scripted engine builds nothing. Each of its builds performs the same list
of actions, and the engine keeps a log of what happened to it. It stands in
for any engine that reads, writes and stops in a fixed order.
-/

namespace ImageBuild

namespace ScriptedEngine

inductive Action where
  | write (f : Frame)
  /-- takes one chunk of the upload -/
  | read
  | drain
  | dropSource
  | cancel
  /-- stops if the request was cancelled -/
  | check
  /-- waits until the request is cancelled -/
  | awaitCancel
  | finish (result : Except BuildError String)

inductive Event where
  | build (version : Version) (tags : List String) (hasSource isQuiet : Bool)
  | chunk (data : ByteArray)
  | ended
  | drained (count : Nat)
  | canceling (id : String) (version : Version)
  | pruning (options : PruneOptions) (version : Version)

end ScriptedEngine

/-- What a scripted engine is told to do, and what happened to it. -/
structure ScriptedEngine where
  script : List ScriptedEngine.Action := []
  cancelResult : Except BuildError Unit := .ok ()
  pruneResult : Except BuildError PruneReport := .ok {}
  log : List ScriptedEngine.Event := []

namespace ScriptedEngine

inductive Phase where
  | arriving
  | acting (rest : List Action)

structure Job where
  context : Context
  options : BuildOptions
  phase : Phase

variable {τ : Type}

def note (d : Desk ScriptedEngine τ) (e : Event) : Desk ScriptedEngine τ :=
  d.withStore { d.store with log := d.store.log ++ [e] }

@[simp] theorem items_note (d : Desk ScriptedEngine τ) (e : Event) : (note d e).items = d.items :=
  rfl

/-- The result of a script that says nothing else. -/
def defaultResult : Except BuildError String := .ok "done"

def Job.isCancelled (j : Job) (d : Desk ScriptedEngine τ) : Bool :=
  d.tokens.isCancelled j.context.token

def Job.acting (j : Job) (rest : List Action) : Job := { j with phase := .acting rest }

variable [Sink τ]

/-- Makes one move, the next action being `a`. -/
def Job.act (j : Job) (a : Action) (rest : List Action) (d : Desk ScriptedEngine τ) :
    Move Job (Except BuildError String) × Desk ScriptedEngine τ :=
  match a with
  | .write f =>
    d.offer f (j.acting rest) fun e => .stop (.error (.progress e))
  | .read =>
    match d.source with
    | none => (.stop (.error .missingContext), d)
    | some s =>
      match d.take s with
      | (.starved, _) => (.wait, d)
      | (.chunk data, d) => (.go (j.acting rest), note d (.chunk data))
      | (.fault reason, d) => (.stop (.error (.upload reason)), d)
      | (.paused, d) => (.go j, d)
      | (.ended, d) => (.go (j.acting rest), note d .ended)
  | .drain =>
    match d.source with
    | none => (.stop (.error .missingContext), d)
    | some s =>
      match d.take s with
      | (.starved, _) => (.wait, d)
      | (.chunk _, d) => (.go j, d)
      | (.fault reason, d) => (.stop (.error (.upload reason)), d)
      | (.paused, d) => (.go j, d)
      | (.ended, d) => (.go (j.acting rest), note d (.drained s.bytesRead))
  | .dropSource => (.go (j.acting rest), d.dropSource)
  | .cancel =>
    (.go (j.acting rest), d.inWorkshop
      { d.toWorkshop with tokens := d.tokens.cancel j.context.token })
  | .check =>
    (if j.isCancelled d then .stop (.error .canceled) else .go (j.acting rest), d)
  | .awaitCancel => (if j.isCancelled d then .stop (.error .canceled) else .wait, d)
  | .finish result => (.stop result, d)

def Job.move (j : Job) (d : Desk ScriptedEngine τ) :
    Move Job (Except BuildError String) × Desk ScriptedEngine τ :=
  match j.phase with
  | .arriving =>
    (.go (j.acting d.store.script),
      note d (.build j.context.version j.options.tags d.source.isSome d.writer.isQuiet))
  | .acting [] => (.stop defaultResult, d)
  | .acting (a :: rest) => j.act a rest d

def Job.rank (j : Job) : Nat :=
  match j.phase with
  | .arriving => 1
  | .acting _ => 0

def Job.steps (j : Job) : Nat :=
  match j.phase with
  | .arriving => 0
  | .acting rest => rest.length

theorem less_of_act {j j' : Job} {a : Action} {rest : List Action} {d d' : Desk ScriptedEngine τ}
    (hj : j.phase = .acting (a :: rest)) (h : j.act a rest d = (.go j', d')) :
    Work.Less ⟨d'.items, j'.rank, j'.steps⟩ ⟨d.items, j.rank, j.steps⟩ := by
  have next : d'.items ≤ d.items → j' = j.acting rest →
      Work.Less ⟨d'.items, j'.rank, j'.steps⟩ ⟨d.items, j.rank, j.steps⟩ := by
    rintro hi rfl
    exact Work.less_of_steps hi (by simp [Job.rank, Job.acting, hj])
      (by simp [Job.steps, Job.acting, hj])
  have take_le {s : Source} {p : Polled} {d'' : Desk ScriptedEngine τ} (hs : d.source = some s)
      (ht : d.take s = (p, d'')) : d''.items ≤ d.items := by
    have := Desk.items_take_le hs
    rwa [ht] at this
  have same {s : Source} {p : Polled} {d'' : Desk ScriptedEngine τ} (hs : d.source = some s)
      (ht : d.take s = (p, d'')) (h1 : p ≠ .ended) (h2 : p ≠ .starved) :
      Work.Less ⟨d''.items, j.rank, j.steps⟩ ⟨d.items, j.rank, j.steps⟩ := by
    have := Desk.items_take_lt hs (by rwa [ht]) (by rwa [ht])
    rw [ht] at this
    exact Work.less_of_items this
  cases a with
  | write f =>
    obtain ⟨hi, hn⟩ := Desk.next_of_offer h
    rcases hn with hn | ⟨e, he⟩
    · exact next (Nat.le_of_eq hi) hn
    · cases he
  | read =>
    simp only [Job.act] at h
    split at h
    · simp at h
    · next hs =>
      split at h
      · simp at h
      · next ht =>
        simp only [Prod.mk.injEq, Move.go.injEq] at h
        obtain ⟨rfl, rfl⟩ := h
        have hi := take_le hs ht
        exact next hi rfl
      · simp at h
      · next ht =>
        simp only [Prod.mk.injEq, Move.go.injEq] at h
        obtain ⟨rfl, rfl⟩ := h
        exact same hs ht (by simp) (by simp)
      · next ht =>
        simp only [Prod.mk.injEq, Move.go.injEq] at h
        obtain ⟨rfl, rfl⟩ := h
        have hi := take_le hs ht
        exact next hi rfl
  | drain =>
    simp only [Job.act] at h
    split at h
    · simp at h
    · next hs =>
      split at h
      · simp at h
      · next ht =>
        simp only [Prod.mk.injEq, Move.go.injEq] at h
        obtain ⟨rfl, rfl⟩ := h
        exact same hs ht (by simp) (by simp)
      · simp at h
      · next ht =>
        simp only [Prod.mk.injEq, Move.go.injEq] at h
        obtain ⟨rfl, rfl⟩ := h
        exact same hs ht (by simp) (by simp)
      · next ht =>
        simp only [Prod.mk.injEq, Move.go.injEq] at h
        obtain ⟨rfl, rfl⟩ := h
        have hi := take_le hs ht
        exact next hi rfl
  | dropSource =>
    simp only [Job.act, Prod.mk.injEq, Move.go.injEq] at h
    obtain ⟨rfl, rfl⟩ := h
    exact next (by simp) rfl
  | cancel =>
    simp only [Job.act, Prod.mk.injEq, Move.go.injEq] at h
    obtain ⟨rfl, rfl⟩ := h
    exact next (Nat.le_refl _) rfl
  | check =>
    simp only [Job.act, Prod.mk.injEq] at h
    obtain ⟨h, rfl⟩ := h
    split at h
    · cases h
    · simp only [Move.go.injEq] at h
      exact next (Nat.le_refl _) h.symm
  | awaitCancel =>
    simp only [Job.act, Prod.mk.injEq] at h
    obtain ⟨h, -⟩ := h
    split at h <;> cases h
  | finish result => simp [Job.act] at h

theorem less_of_move {j j' : Job} {d d' : Desk ScriptedEngine τ} (h : j.move d = (.go j', d')) :
    Work.Less ⟨d'.items, j'.rank, j'.steps⟩ ⟨d.items, j.rank, j.steps⟩ := by
  unfold Job.move at h
  split at h
  · next hp =>
    simp only [Prod.mk.injEq, Move.go.injEq] at h
    obtain ⟨rfl, rfl⟩ := h
    exact Work.less_of_rank (Nat.le_refl _) (by simp [Job.rank, Job.acting, hp])
  · simp at h
  · next hp => exact less_of_act hp h

instance : Engine Job ScriptedEngine where
  start context options := ⟨context, options, .arriving⟩
  move := Job.move
  abandon _ s := s
  cancel v id w :=
    (w.store.cancelResult,
      { w with store := { w.store with log := w.store.log ++ [.canceling id v] } })
  prune v o s := (s.pruneResult, { s with log := s.log ++ [.pruning o v] })
  rank := Job.rank
  steps := Job.steps
  less := less_of_move

end ScriptedEngine
end ImageBuild
