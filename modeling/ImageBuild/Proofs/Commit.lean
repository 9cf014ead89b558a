import ImageBuild.Proofs.Channel
import Mathlib.Data.List.Induction
import Mathlib.Logic.Relation

/-!
# What commits a response

The sender, the uploads that it has wrapped and the client share one channel,
and each of them can go away at any time. `Channel.Step` lists what they can do
to it. A channel stays `Governed`: its gate holds only while the sender is there
and has no leave for full duplex, and whatever is ready for the client has
committed the response. So the response is committed in the very step that gets
the first frame ready, and a send that has to wait finds it committed.
-/

namespace ImageBuild

namespace Gate

@[simp] theorem hold_isCommitted (g : Gate) (f : Frame) :
    (g.hold f).isCommitted = g.isCommitted := rfl
@[simp] theorem commit_isCommitted (g : Gate) : g.commit.isCommitted = true := rfl

@[simp] theorem release_isCommitted (g : Gate) :
    g.release.isCommitted = (g.isCommitted || (g.isHolding && !g.held.isEmpty)) := by
  unfold release
  cases hh : g.isHolding with
  | true => simp
  | false => simp

theorem length_hold {g : Gate} (pos : 0 < g.limit) (h : g.held.length ≤ g.limit) (f : Frame) :
    (g.hold f).held.length ≤ g.limit := by
  simp only [hold, List.length_append, List.length_singleton]
  split
  · next full =>
    have nonempty : g.held ≠ [] := by
      intro empty
      rw [empty, List.length_nil] at full
      omega
    rw [List.length_eraseIdx_of_lt (victim_lt nonempty _)]
    omega
  · omega

end Gate

namespace Channel

@[simp] theorem hold_isCommitted (c : Channel) : c.hold.gate.isCommitted = c.gate.isCommitted := by
  unfold hold
  split <;> rfl

@[simp] theorem hold_isDuplex (c : Channel) : c.hold.isDuplex = c.isDuplex := by
  unfold hold
  split <;> rfl

@[simp] theorem hold_allowsDuplex (c : Channel) : c.hold.allowsDuplex = c.allowsDuplex := by
  unfold hold
  split <;> rfl

/-- Whether there is a frame for the client. -/
def IsReady (c : Channel) : Prop := ∃ f, c.receive.1 = .frame f

theorem isReady_iff (c : Channel) :
    c.IsReady ↔ (c.gate.isHolding = false ∧ c.gate.held ≠ []) ∨ c.queue ≠ [] := by
  rcases c.receive_cases with ⟨x, rest, free, held, hr⟩ | ⟨f, rest, -, queue, hr⟩ | ⟨no, queue, hr⟩
  · simp [IsReady, hr, free, held]
  · simp [IsReady, hr, queue]
  · constructor
    · rintro ⟨f, hf⟩
      rw [hr] at hf
      dsimp only at hf
      split at hf <;> cases hf
    · rintro (⟨free, held⟩ | hq)
      · rcases no with holding | empty
        · rw [free] at holding
          cases holding
        · exact absurd empty held
      · exact absurd queue hq

/-- **Leave for full duplex** is refused where it cannot be had, and after the
response was committed. -/
theorem enableDuplex_spec (c : Channel) :
    (c.enableDuplex.1 = .error .notSupported ↔ c.allowsDuplex = false) ∧
      (c.enableDuplex.1 = .error .alreadyCommitted ↔
        c.allowsDuplex = true ∧ c.gate.isCommitted = true) ∧
      (c.enableDuplex.1 = .ok () → c.enableDuplex.2.isDuplex = true) ∧
      ∀ e, c.enableDuplex.1 = .error e → c.enableDuplex.2 = c := by
  unfold enableDuplex
  cases c.allowsDuplex with
  | false => simp
  | true =>
    cases c.gate.isCommitted with
    | false => simp
    | true => simp

/-! ## The invariant -/

/-- **The gate holds only while it may,** and what is ready has committed the
response. -/
structure Governed (c : Channel) : Prop where
  pos : 0 < c.gate.limit
  room : c.gate.held.length ≤ c.gate.limit
  duplex : c.isDuplex = true → c.gate.isHolding = false
  closed : c.isOpen = false → c.gate.isHolding = false
  released : c.gate.isHolding = false → c.gate.held ≠ [] → c.gate.isCommitted = true
  queued : c.queue ≠ [] → c.gate.isCommitted = true

variable {c : Channel}

theorem Governed.committed_of_isReady (h : c.Governed) (ready : c.IsReady) :
    c.gate.isCommitted = true := by
  rcases c.isReady_iff.1 ready with ⟨free, held⟩ | queue
  · exact h.released free held
  · exact h.queued queue

/-- A send has to wait only behind a frame that has committed the response. -/
theorem Governed.committed_of_blocked (h : c.Governed) {f : Frame}
    (blocked : (c.send f).1 = .blocked) : c.gate.isCommitted = true := by
  apply h.queued
  intro empty
  have full := capacity_le_of_blocked blocked
  rw [empty] at full
  exact absurd h.pos (Nat.not_lt.2 full)

theorem governed_new (capacity : Nat) (allowsDuplex : Bool) :
    (new capacity allowsDuplex).Governed := by
  constructor
  · exact Nat.lt_of_lt_of_le Nat.zero_lt_one (Nat.le_max_right capacity 1)
  · exact Nat.zero_le _
  · intro h
    cases h
  · intro h
    cases h
  · intro _ h
    exact absurd rfl h
  · intro h
    exact absurd rfl h

theorem Governed.hold (h : c.Governed) (isOpen : c.isOpen = true) : c.hold.Governed := by
  by_cases hd : c.isDuplex = true
  · rw [Channel.hold, if_pos hd]
    exact h
  · constructor
    · simpa using h.pos
    · simpa using h.room
    · intro duplex
      rw [hold_isDuplex] at duplex
      exact absurd duplex hd
    · intro closed
      rw [hold_isOpen, isOpen] at closed
      cases closed
    · intro free
      rw [Channel.hold, if_neg hd] at free
      cases free
    · simpa using h.queued

theorem Governed.release (h : c.Governed) : c.release.Governed := by
  constructor
  · simpa using h.pos
  · simpa using h.room
  · intro _
    simp
  · intro _
    simp
  · intro _ held
    rw [release_gate, Gate.release_held] at held
    cases hh : c.gate.isHolding with
    | true => simp [hh, held]
    | false => simp [h.released hh held]
  · intro queue
    simp [h.queued queue]

theorem Governed.enableDuplex (h : c.Governed) : c.enableDuplex.2.Governed := by
  rcases c.enableDuplex_cases with he | he <;> rw [he]
  · obtain ⟨pos, room, -, closed, released, queued⟩ := h.release
    exact ⟨pos, room, fun _ => by simp, closed, released, queued⟩
  · exact h

theorem Governed.send (h : c.Governed) (f : Frame) : (c.send f).2.Governed := by
  rcases c.send_cases f with ⟨holding, hs⟩ | ⟨-, -, hs⟩ | ⟨free, -, hs⟩ | ⟨-, -, hs⟩ <;> rw [hs]
  · refine ⟨h.pos, Gate.length_hold h.pos h.room f, h.duplex, h.closed, ?_, h.queued⟩
    intro free
    rw [Gate.hold_isHolding, holding] at free
    cases free
  · exact h
  · exact ⟨h.pos, h.room, fun _ => free, fun _ => free, fun _ _ => rfl, fun _ => rfl⟩
  · exact h

theorem Governed.receive (h : c.Governed) : c.receive.2.Governed := by
  rcases c.receive_cases with ⟨x, rest, free, held, hr⟩ | ⟨f, rest, -, queue, hr⟩ | ⟨-, -, hr⟩ <;>
    rw [hr]
  · have committed := h.released free (by simp [held])
    refine ⟨h.pos, ?_, h.duplex, h.closed, fun _ _ => committed, h.queued⟩
    have room := h.room
    rw [held] at room
    exact Nat.le_of_succ_le room
  · exact ⟨h.pos, h.room, h.duplex, h.closed, h.released, fun _ => h.queued (by simp [queue])⟩
  · exact h

theorem Governed.close (h : c.Governed) : c.close.Governed := by
  obtain ⟨pos, room, duplex, -, released, queued⟩ := h.release
  exact ⟨pos, room, duplex, fun _ => by simp, released, queued⟩

theorem Governed.dropReader (h : c.Governed) : c.dropReader.Governed :=
  ⟨h.pos, h.room, h.duplex, h.closed, h.released, h.queued⟩

/-! ## Steps -/

/-- What can be done to a channel. The sender acts only as long as it is there,
and the client too. -/
inductive Step (c : Channel) : Channel → Prop where
  | keep : Step c c
  | hold : c.isOpen = true → Step c c.hold
  | release : Step c c.release
  | enableDuplex : c.isOpen = true → Step c c.enableDuplex.2
  | send (f : Frame) : c.isOpen = true → Step c (c.send f).2
  | receive : c.hasReader = true → Step c c.receive.2
  | close : Step c c.close
  | dropReader : Step c c.dropReader

namespace Step

variable {c' : Channel}

theorem governed (step : Step c c') (h : c.Governed) : c'.Governed := by
  cases step with
  | keep => exact h
  | hold isOpen => exact h.hold isOpen
  | release => exact h.release
  | enableDuplex => exact h.enableDuplex
  | send f => exact h.send f
  | receive => exact h.receive
  | close => exact h.close
  | dropReader => exact h.dropReader

/-- **What lasts:** the limit, whether leave for full duplex can be had, leave
that was given, and that the response is committed. -/
structure Lasts (c c' : Channel) : Prop where
  limit : c'.gate.limit = c.gate.limit
  allowsDuplex : c'.allowsDuplex = c.allowsDuplex
  isDuplex : c.isDuplex = true → c'.isDuplex = true
  isCommitted : c.gate.isCommitted = true → c'.gate.isCommitted = true

theorem Lasts.trans {c'' : Channel} (h : Lasts c c') (h' : Lasts c' c'') : Lasts c c'' :=
  ⟨h'.limit.trans h.limit, h'.allowsDuplex.trans h.allowsDuplex, h'.isDuplex ∘ h.isDuplex,
    h'.isCommitted ∘ h.isCommitted⟩

theorem lasts (step : Step c c') : Lasts c c' := by
  cases step with
  | keep => exact ⟨rfl, rfl, id, id⟩
  | hold => exact ⟨by simp, by simp, by simp, by simp⟩
  | release => exact ⟨by simp, rfl, id, fun h => by simp [h]⟩
  | enableDuplex =>
    rcases c.enableDuplex_cases with he | he <;> rw [he]
    · exact ⟨by simp, rfl, fun _ => rfl, fun h => by simp [h]⟩
    · exact ⟨rfl, rfl, id, id⟩
  | send f =>
    rcases c.send_cases f with ⟨-, hs⟩ | ⟨-, -, hs⟩ | ⟨-, -, hs⟩ | ⟨-, -, hs⟩ <;> rw [hs]
    · exact ⟨rfl, rfl, id, id⟩
    · exact ⟨rfl, rfl, id, id⟩
    · exact ⟨rfl, rfl, id, fun _ => rfl⟩
    · exact ⟨rfl, rfl, id, id⟩
  | receive =>
    rcases c.receive_cases with ⟨x, rest, -, -, hr⟩ | ⟨f, rest, -, -, hr⟩ | ⟨-, -, hr⟩ <;>
      rw [hr] <;> exact ⟨rfl, rfl, id, id⟩
  | close => exact ⟨by simp, rfl, id, fun h => by simp [h]⟩
  | dropReader => exact ⟨rfl, rfl, id, id⟩

theorem isReady_of_release (before : c.gate.isCommitted = false)
    (after : c.gate.release.isCommitted = true) {d : Channel} (gate : d.gate = c.gate.release) :
    d.IsReady := by
  rw [Gate.release_isCommitted, before, Bool.false_or, Bool.and_eq_true] at after
  refine d.isReady_iff.2 (.inl ⟨by simp [gate], ?_⟩)
  rw [gate, Gate.release_held]
  intro empty
  simp [empty] at after

/-- **The response is committed** only in a step that gets a frame ready. -/
theorem isReady_of_commits (step : Step c c') (before : c.gate.isCommitted = false)
    (after : c'.gate.isCommitted = true) : c'.IsReady := by
  -- most steps leave the question as it was
  have same {d : Channel} (h : d.gate.isCommitted = c.gate.isCommitted)
      (hd : d.gate.isCommitted = true) : d.IsReady := by
    rw [h, before] at hd
    cases hd
  cases step with
  | keep => exact same rfl after
  | hold => exact same (by simp) after
  | release => exact isReady_of_release before after rfl
  | enableDuplex =>
    rcases c.enableDuplex_cases with he | he <;> rw [he] at after ⊢
    · exact isReady_of_release before after rfl
    · exact same rfl after
  | send f =>
    rcases c.send_cases f with ⟨-, hs⟩ | ⟨-, -, hs⟩ | ⟨-, -, hs⟩ | ⟨-, -, hs⟩ <;> rw [hs] at after ⊢
    · exact same rfl after
    · exact same rfl after
    · exact (isReady_iff _).2 (.inr (by simp))
    · exact same rfl after
  | receive =>
    rcases c.receive_cases with ⟨x, rest, -, -, hr⟩ | ⟨f, rest, -, -, hr⟩ | ⟨-, -, hr⟩ <;>
      rw [hr] at after ⊢ <;> exact same rfl after
  | close => exact isReady_of_release before after rfl
  | dropReader => exact same rfl after

end Step
end Channel

/-! ## Three ends of one channel -/

/-- Something that one of the ends does. -/
inductive LinkEvent where
  /-- the sender holds frames back until this upload ends or is put away -/
  | wrap (upload : Upload)
  | enableDuplex
  /-- a send that has to wait and is given up has changed nothing; one that is
  taken up again is another send -/
  | send (f : Frame)
  | dropSink
  | arrive (i : Nat) (items : List Upload.Item)
  | complete (i : Nat)
  | pollUpload (i : Nat)
  | dropUpload (i : Nat)
  /-- the client asks for the next frame -/
  | poll
  | dropReader

/-- A channel with the uploads that hold its gate. -/
structure Link where
  channel : Channel
  /-- the uploads in the order of wrapping, until they are put away -/
  uploads : List (Option Signal) := []
  /-- the frames that the queue of the channel has ever taken -/
  queued : List Frame := []

namespace Link

def start (capacity : Nat) (allowsDuplex : Bool) : Link :=
  { channel := .new capacity allowsDuplex }

/-- The upload with a number, unless it was put away. -/
def upload? (l : Link) (i : Nat) : Option Signal := l.uploads[i]?.join

def alter (l : Link) (i : Nat) (f : Upload → Upload) : Link :=
  match l.upload? i with
  | none => l
  | some s => { l with uploads := l.uploads.set i (some { s with upload := f s.upload }) }

/-- A link after an event. What needs an end that is gone changes nothing. -/
def step (l : Link) : LinkEvent → Link
  | .wrap upload =>
    if l.channel.isOpen then
      { l with channel := l.channel.hold, uploads := l.uploads ++ [some ⟨upload, true⟩] }
    else l
  | .enableDuplex => if l.channel.isOpen then { l with channel := l.channel.enableDuplex.2 } else l
  | .send f =>
    if l.channel.isOpen then
      let isQueued := (l.channel.send f).1 = .accepted ∧ ¬ l.channel.gate.isHolding
      { l with
        channel := (l.channel.send f).2
        queued := if isQueued then l.queued ++ [f] else l.queued }
    else l
  | .dropSink => { l with channel := l.channel.close }
  | .arrive i items => l.alter i (·.feed items)
  | .complete i => l.alter i (·.close)
  | .pollUpload i =>
    match l.upload? i with
    | none => l
    | some s =>
      { l with
        uploads := l.uploads.set i (some (s.next l.channel).2.1)
        channel := (s.next l.channel).2.2 }
  | .dropUpload i =>
    match l.upload? i with
    | none => l
    | some s => { l with uploads := l.uploads.set i none, channel := (s.fire l.channel).2 }
  | .poll => if l.channel.hasReader then { l with channel := l.channel.receive.2 } else l
  | .dropReader => { l with channel := l.channel.dropReader }

def run (l : Link) (events : List LinkEvent) : Link := events.foldl step l

theorem run_snoc (l : Link) (events : List LinkEvent) (e : LinkEvent) :
    l.run (events ++ [e]) = (l.run events).step e := by
  unfold run
  rw [List.foldl_append]
  rfl

@[simp] theorem alter_channel (l : Link) (i : Nat) (f : Upload → Upload) :
    (l.alter i f).channel = l.channel := by
  unfold alter
  split <;> rfl

@[simp] theorem alter_queued (l : Link) (i : Nat) (f : Upload → Upload) :
    (l.alter i f).queued = l.queued := by
  unfold alter
  split <;> rfl

/-- An event does one thing to the channel at most. -/
theorem step_channel (l : Link) (e : LinkEvent) : Channel.Step l.channel (l.step e).channel := by
  have fired {c : Channel} (h : c = l.channel.release ∨ c = l.channel) : l.channel.Step c := by
    rcases h with rfl | rfl
    · exact .release
    · exact .keep
  cases e with
  | wrap upload =>
    simp only [step]
    split
    · next isOpen => exact .hold isOpen
    · exact .keep
  | enableDuplex =>
    simp only [step]
    split
    · next isOpen => exact .enableDuplex isOpen
    · exact .keep
  | send f =>
    simp only [step]
    split
    · next isOpen => exact .send f isOpen
    · exact .keep
  | dropSink => exact .close
  | arrive i items =>
    simp only [step, alter_channel]
    exact .keep
  | complete i =>
    simp only [step, alter_channel]
    exact .keep
  | pollUpload i =>
    simp only [step]
    split
    · exact .keep
    · next s _ => exact fired (s.next_cases l.channel)
  | dropUpload i =>
    simp only [step]
    split
    · exact .keep
    · next s _ => exact fired (s.fire_cases l.channel)
  | poll =>
    simp only [step]
    split
    · next here => exact .receive here
    · exact .keep
  | dropReader => exact .dropReader

/-- **The queue has taken what it holds,** and something only after the response
was committed. -/
structure Recalls (l : Link) : Prop where
  queue : l.channel.queue <:+ l.queued
  isCommitted : l.queued ≠ [] → l.channel.gate.isCommitted = true

variable {l : Link}

theorem Recalls.step (h : l.Recalls) (e : LinkEvent) : (l.step e).Recalls := by
  have lasts := (l.step_channel e).lasts
  have keep (same : (l.step e).queued = l.queued)
      (less : (l.step e).channel.queue <:+ l.channel.queue) : (l.step e).Recalls := by
    constructor
    · rw [same]
      exact less.trans h.queue
    · intro some
      rw [same] at some
      exact lasts.isCommitted (h.isCommitted some)
  have fired {c : Channel} (hc : c = l.channel.release ∨ c = l.channel) :
      c.queue <:+ l.channel.queue := by
    rcases hc with rfl | rfl <;> exact List.suffix_refl _
  cases e with
  | wrap upload =>
    apply keep <;> simp only [Link.step] <;> split <;> simp
  | enableDuplex =>
    apply keep <;> simp only [Link.step] <;> split
    · rfl
    · rfl
    · rcases l.channel.enableDuplex_cases with he | he
      · simp only [he]
        exact fired (.inl rfl)
      · simp only [he]
        exact fired (.inr rfl)
    · exact List.suffix_refl _
  | send f =>
    by_cases isOpen : l.channel.isOpen = true
    · rcases l.channel.send_cases f with ⟨holding, hs⟩ | ⟨-, -, hs⟩ | ⟨free, -, hs⟩ | ⟨-, -, hs⟩
      · apply keep <;> simp [Link.step, isOpen, hs, holding]
      · apply keep <;> simp [Link.step, isOpen, hs]
      · simp only [Link.step, isOpen, hs, free, if_true, true_and, Bool.false_eq_true,
          not_false_eq_true]
        obtain ⟨gone, all⟩ := h.queue
        exact ⟨⟨gone, by rw [← all, List.append_assoc]⟩, fun _ => rfl⟩
      · apply keep <;> simp [Link.step, isOpen, hs]
    · apply keep <;> simp [Link.step, isOpen]
  | dropSink => exact keep rfl (List.suffix_refl _)
  | arrive i items => apply keep <;> simp [Link.step]
  | complete i => apply keep <;> simp [Link.step]
  | pollUpload i =>
    apply keep <;> simp only [Link.step] <;> split
    · rfl
    · rfl
    · exact List.suffix_refl _
    · next s _ => exact fired (s.next_cases l.channel)
  | dropUpload i =>
    apply keep <;> simp only [Link.step] <;> split
    · rfl
    · rfl
    · exact List.suffix_refl _
    · next s _ => exact fired (s.fire_cases l.channel)
  | poll =>
    apply keep <;> simp only [Link.step] <;> split
    · rfl
    · rfl
    · rcases l.channel.receive_cases with
        ⟨x, rest, -, -, hr⟩ | ⟨f, rest, -, queue, hr⟩ | ⟨-, -, hr⟩ <;> simp only [hr]
      · exact List.suffix_refl _
      · exact ⟨[f], queue.symm⟩
      · exact List.suffix_refl _
    · exact List.suffix_refl _
  | dropReader => exact keep rfl (List.suffix_refl _)

/-! ## Whole runs -/

theorem lasts_run (l : Link) (events : List LinkEvent) :
    Channel.Step.Lasts l.channel (l.run events).channel := by
  induction events using List.reverseRecOn with
  | nil => exact ⟨rfl, rfl, id, id⟩
  | append_singleton events e ih =>
    rw [run_snoc]
    exact ih.trans (step_channel _ e).lasts

theorem governed_run (capacity : Nat) (allowsDuplex : Bool) (events : List LinkEvent) :
    ((start capacity allowsDuplex).run events).channel.Governed ∧
      ((start capacity allowsDuplex).run events).Recalls := by
  induction events using List.reverseRecOn with
  | nil =>
    refine ⟨Channel.governed_new capacity allowsDuplex, List.suffix_refl _, ?_⟩
    intro some
    exact absurd rfl some
  | append_singleton events e ih =>
    rw [run_snoc]
    exact ⟨(step_channel _ e).governed ih.1, ih.2.step e⟩

/-- **Holding and committing.** Whatever the three ends did, the gate keeps to its
limit and does not hold against leave for full duplex or after the sender; what
is ready, what the queue has ever taken and a send that has to wait find the
response committed. It is committed in the step that gets the first frame
ready, and stays so, as leave for full duplex does. Leave is refused where it
cannot be had and after the response was committed, at no other time, and
then nothing changes. -/
theorem committed_when_ready (capacity : Nat) (allowsDuplex : Bool)
    (before after : List LinkEvent) :
    let l := (start capacity allowsDuplex).run before
    let c := l.channel
    (c.gate.held.length ≤ max capacity 1 ∧
      (c.isDuplex = true → c.gate.isHolding = false) ∧
      (c.isOpen = false → c.gate.isHolding = false) ∧
      (c.gate.held ≠ [] → c.gate.isHolding = false → c.gate.isCommitted = true)) ∧
    ((c.IsReady → c.gate.isCommitted = true) ∧ c.queue <:+ l.queued ∧
      (l.queued ≠ [] → c.gate.isCommitted = true) ∧
      ∀ f, (c.send f).1 = .blocked → c.gate.isCommitted = true) ∧
    (∀ e, c.gate.isCommitted = false → (l.step e).channel.gate.isCommitted = true →
      ¬ c.IsReady ∧ (l.step e).channel.IsReady) ∧
    ((c.gate.isCommitted = true → (l.run after).channel.gate.isCommitted = true) ∧
      (c.isDuplex = true → (l.run after).channel.isDuplex = true)) ∧
    ((c.enableDuplex.1 = .error .notSupported ↔ allowsDuplex = false) ∧
      (c.enableDuplex.1 = .error .alreadyCommitted ↔
        allowsDuplex = true ∧ c.gate.isCommitted = true) ∧
      (c.enableDuplex.1 = .ok () → c.enableDuplex.2.isDuplex = true) ∧
      ∀ e, c.enableDuplex.1 = .error e → c.enableDuplex.2 = c) := by
  intro l c
  obtain ⟨governed, recalls⟩ := governed_run capacity allowsDuplex before
  have lasts := lasts_run (start capacity allowsDuplex) before
  have limit : c.gate.limit = max capacity 1 := lasts.limit
  have allows : c.allowsDuplex = allowsDuplex := lasts.allowsDuplex
  refine ⟨⟨?_, governed.duplex, governed.closed, ?_⟩,
    ⟨governed.committed_of_isReady, recalls.queue, recalls.isCommitted, ?_⟩, ?_, ⟨?_, ?_⟩, ?_⟩
  · rw [← limit]
    exact governed.room
  · intro held free
    exact governed.released free held
  · intro f blocked
    exact governed.committed_of_blocked blocked
  · intro e uncommitted committed
    refine ⟨?_, (l.step_channel e).isReady_of_commits uncommitted committed⟩
    intro ready
    have := governed.committed_of_isReady ready
    rw [uncommitted] at this
    cases this
  · exact (lasts_run l after).isCommitted
  · exact (lasts_run l after).isDuplex
  · rw [← allows]
    exact c.enableDuplex_spec

/-- Two uploads hold one gate. The end of either releases it, and the frame that
was held commits the response; a gate that holds again does not undo that. -/
example :
    let l := (start 1 true).run
      [.wrap ⟨[], false⟩, .wrap ⟨[], true⟩, .send [0x61], .pollUpload 1, .wrap ⟨[], false⟩]
    l.channel.gate.isHolding = true ∧ l.channel.gate.isCommitted = true ∧
      l.channel.enableDuplex.1 = .error .alreadyCommitted := by
  decide

end Link
end ImageBuild
