import ImageBuild.Proofs.Channel
import Mathlib.Data.List.Induction

/-!
# Delivery in order through the hold gate

A frame that is sent while an upload arrives waits in the gate, a later one in
the queue of the channel, and the gate can be released by the end of the
upload, by putting the upload away, by leave for full duplex, or by the end of
the sender. A `Transmission` is a channel, whose client stays, with what has gone in
and come out; its events can come in any order. The invariant `InOrder` says
that gate and queue are one queue for the client: what was delivered, what the
gate holds and what is queued are, in this order, what was sent.
-/

namespace ImageBuild

/-- Something that happens at one of the two ends of a channel. -/
inductive ChannelEvent where
  /-- frames are held back from now on, until this upload ends or is put away -/
  | wrap (upload : Upload)
  | send (f : Frame)
  | enableDuplex
  | arrive (items : List Upload.Item)
  /-- no more of the upload will arrive -/
  | complete
  /-- the sender asks for the next item of the upload -/
  | pollUpload
  | dropUpload
  /-- the client asks for the next frame -/
  | poll
  | dropSink

/-- A channel with what has gone in and come out. -/
structure Transmission where
  channel : Channel
  signal : Option Signal := none
  /-- whether an upload was wrapped or a send tried -/
  hasBegun : Bool := false
  /-- the frames that were accepted while the gate was holding -/
  early : List Frame := []
  /-- the frames that were accepted at other times -/
  late : List Frame := []
  delivered : List Frame := []
  /-- whether the client was told that there is no more -/
  hasEnded : Bool := false

namespace Transmission

def start (capacity : Nat) (allowsDuplex : Bool) : Transmission :=
  { channel := .new capacity allowsDuplex }

/-- A transmission after an event. An upload is wrapped once at most and before
the first send. What needs an end that is gone changes nothing. -/
def step (t : Transmission) : ChannelEvent → Transmission
  | .wrap upload =>
    if t.channel.isOpen ∧ ¬ t.hasBegun then
      { t with channel := t.channel.hold, signal := some ⟨upload, true⟩, hasBegun := true }
    else t
  | .send f =>
    if t.channel.isOpen then
      let isTaken := (t.channel.send f).1 = .accepted
      { t with
        channel := (t.channel.send f).2
        hasBegun := true
        early := if isTaken ∧ t.channel.gate.isHolding then t.early ++ [f] else t.early
        late := if isTaken ∧ ¬ t.channel.gate.isHolding then t.late ++ [f] else t.late }
    else t
  | .enableDuplex =>
    if t.channel.isOpen then { t with channel := t.channel.enableDuplex.2 } else t
  | .arrive items =>
    { t with signal := t.signal.map fun s => { s with upload := s.upload.feed items } }
  | .complete => { t with signal := t.signal.map fun s => { s with upload := s.upload.close } }
  | .pollUpload =>
    match t.signal with
    | none => t
    | some s => { t with signal := some (s.next t.channel).2.1, channel := (s.next t.channel).2.2 }
  | .dropUpload =>
    match t.signal with
    | none => t
    | some s => { t with signal := none, channel := (s.fire t.channel).2 }
  | .poll =>
    match t.channel.receive with
    | (.frame f, c) => { t with channel := c, delivered := t.delivered ++ [f] }
    | (.pending, c) => { t with channel := c }
    | (.ended, c) => { t with channel := c, hasEnded := true }
  | .dropSink => { t with channel := t.channel.close }

def run (t : Transmission) (events : List ChannelEvent) : Transmission := events.foldl step t

/-! ## The invariant -/

/-- A gate that has held these frames back, one by one. -/
def holdAll (capacity : Nat) (fs : List Frame) : Gate :=
  fs.foldl Gate.hold { limit := max capacity 1 }

/-- What a gate of this capacity keeps of the frames that it held back. -/
def heldBack (capacity : Nat) (fs : List Frame) : List Frame :=
  (holdAll capacity fs).held.map (·.frame)

theorem holdAll_snoc (capacity : Nat) (fs : List Frame) (f : Frame) :
    holdAll capacity (fs ++ [f]) = (holdAll capacity fs).hold f := by
  simp [holdAll]

theorem holdAll_limit (capacity : Nat) (fs : List Frame) :
    (holdAll capacity fs).limit = max capacity 1 := by
  induction fs using List.reverseRecOn with
  | nil => rfl
  | append_singleton fs f ih => rw [holdAll_snoc, Gate.hold_limit, ih]

/-- **Gate and queue are one queue.** -/
structure InOrder (capacity : Nat) (t : Transmission) : Prop where
  frames : t.delivered ++ t.channel.gate.held.map (·.frame) ++ t.channel.queue =
    heldBack capacity t.early ++ t.late
  limit : t.channel.gate.limit = max capacity 1
  /-- a gate that holds has let nothing past it -/
  holding : t.channel.gate.isHolding = true →
    t.channel.gate.held = (holdAll capacity t.early).held ∧
      t.delivered = [] ∧ t.channel.queue = [] ∧ t.late = [] ∧ t.channel.isOpen = true
  unbegun : t.hasBegun = false →
    t.channel.gate.held = [] ∧ t.delivered = [] ∧ t.channel.queue = [] ∧ t.early = [] ∧ t.late = []
  ended : t.hasEnded = true →
    t.channel.isOpen = false ∧ t.channel.gate.held = [] ∧ t.channel.queue = []

variable {capacity : Nat} {t : Transmission}

theorem inOrder_start (capacity : Nat) (allowsDuplex : Bool) :
    InOrder capacity (start capacity allowsDuplex) := by
  constructor
  · rfl
  · rfl
  · intro h
    cases h
  · intro _
    exact ⟨rfl, rfl, rfl, rfl, rfl⟩
  · intro h
    cases h

theorem InOrder.relax (h : InOrder capacity t) {c : Channel} {signal : Option Signal}
    (hheld : c.gate.held = t.channel.gate.held) (hlimit : c.gate.limit = t.channel.gate.limit)
    (hqueue : c.queue = t.channel.queue)
    (hhold : c.gate.isHolding = true → t.channel.gate.isHolding = true ∧ c.isOpen = t.channel.isOpen)
    (hopen : t.channel.isOpen = false → c.isOpen = false) :
    InOrder capacity { t with channel := c, signal } := by
  constructor
  · show t.delivered ++ c.gate.held.map (·.frame) ++ c.queue = _
    rw [hheld, hqueue]
    exact h.frames
  · exact hlimit.trans h.limit
  · intro hc
    obtain ⟨hg, ho⟩ := hhold hc
    obtain ⟨h1, h2, h3, h4, h5⟩ := h.holding hg
    exact ⟨hheld.trans h1, h2, hqueue.trans h3, h4, ho.trans h5⟩
  · intro hb
    obtain ⟨h1, h2, h3, h4⟩ := h.unbegun hb
    exact ⟨hheld.trans h1, h2, hqueue.trans h3, h4⟩
  · intro he
    obtain ⟨h1, h2, h3⟩ := h.ended he
    exact ⟨hopen h1, hheld.trans h2, hqueue.trans h3⟩

theorem InOrder.release (h : InOrder capacity t) (signal : Option Signal) :
    InOrder capacity { t with channel := t.channel.release, signal } :=
  h.relax (by simp) (by simp) (by simp) (by simp) (by simp)

/-! ## One step -/

theorem InOrder.wrap (h : InOrder capacity t) (ho : t.channel.isOpen = true)
    (hb : t.hasBegun = false) (s : Signal) :
    InOrder capacity { t with channel := t.channel.hold, signal := some s, hasBegun := true } := by
  obtain ⟨h1, h2, h3, h4, h5⟩ := h.unbegun hb
  constructor
  · simpa using h.frames
  · simpa using h.limit
  · intro _
    refine ⟨?_, h2, by simpa using h3, h5, by simpa using ho⟩
    simp only [Channel.hold_held, h1, h4]
    rfl
  · intro hn
    cases hn
  · intro he
    rw [(h.ended he).1] at ho
    cases ho

theorem InOrder.send (h : InOrder capacity t) (ho : t.channel.isOpen = true) (f : Frame) :
    InOrder capacity (t.step (.send f)) := by
  have hne : t.hasEnded = false := by
    by_contra he
    rw [(h.ended (by simpa using he)).1] at ho
    cases ho
  rcases t.channel.send_cases f with ⟨hh, hs⟩ | ⟨hh, -, hs⟩ | ⟨hh, -, hs⟩ | ⟨hh, -, hs⟩
  · -- the gate takes the frame; what it drops for it, the gate of the invariant drops too
    obtain ⟨h1, h2, h3, h4, h5⟩ := h.holding hh
    have held : (t.channel.gate.hold f).held = (holdAll capacity (t.early ++ [f])).held := by
      rw [holdAll_snoc]
      exact Gate.hold_held_congr f (h.limit.trans (holdAll_limit _ _).symm) h1
    simp only [step, if_pos ho, hs, hh, if_true, true_and, not_true_eq_false, if_false]
    constructor
    · show t.delivered ++ (t.channel.gate.hold f).held.map (·.frame) ++ t.channel.queue = _
      rw [h2, h3, h4, held]
      simp [heldBack]
    · exact h.limit
    · intro _
      exact ⟨held, h2, h3, h4, h5⟩
    · intro hn
      cases hn
    · intro he
      rw [hne] at he
      cases he
  · simp only [step, if_pos ho, hs, reduceCtorEq, false_and, if_false]
    exact ⟨h.frames, h.limit, h.holding, (by intro hn; cases hn), h.ended⟩
  · simp only [step, if_pos ho, hs, hh, true_and, Bool.false_eq_true, if_false, not_false_iff,
      if_true]
    constructor
    · show t.delivered ++ t.channel.gate.held.map (·.frame) ++ (t.channel.queue ++ [f]) = _
      rw [← List.append_assoc, h.frames, List.append_assoc]
    · exact h.limit
    · intro hg
      exact absurd hg (by simp [hh])
    · intro hn
      cases hn
    · intro he
      rw [hne] at he
      cases he
  · simp only [step, if_pos ho, hs, reduceCtorEq, false_and, if_false]
    exact ⟨h.frames, h.limit, h.holding, (by intro hn; cases hn), h.ended⟩

theorem InOrder.poll (h : InOrder capacity t) : InOrder capacity (t.step .poll) := by
  rcases t.channel.receive_cases with ⟨x, rest, hh, hg, hc⟩ | ⟨f, rest, hg, hq, hc⟩ | ⟨hg, hq, hc⟩
  · simp only [step, hc]
    constructor
    · have := h.frames
      rw [hg] at this
      simpa using this
    · exact h.limit
    · intro hn
      exact absurd hn (by simp [hh])
    · intro hb
      rw [(h.unbegun hb).1] at hg
      cases hg
    · intro he
      rw [(h.ended he).2.1] at hg
      cases hg
  · -- a queued frame is taken only when the gate holds nothing
    have empty : t.channel.gate.isHolding = false ∧ t.channel.gate.held = [] := by
      rcases hg with hg | hg
      · rw [(h.holding hg).2.2.1] at hq
        cases hq
      · refine ⟨?_, hg⟩
        by_contra hn
        rw [(h.holding (by simpa using hn)).2.2.1] at hq
        cases hq
    simp only [step, hc]
    constructor
    · have := h.frames
      rw [hq, empty.2] at this
      rw [empty.2]
      simpa using this
    · exact h.limit
    · intro hn
      exact absurd hn (by simp [empty.1])
    · intro hb
      rw [(h.unbegun hb).2.2.1] at hq
      cases hq
    · intro he
      rw [(h.ended he).2.2] at hq
      cases hq
  · simp only [step, hc]
    by_cases ho : t.channel.isOpen = true
    · simpa [ho] using h
    · have closed : t.channel.isOpen = false := by simpa using ho
      have held : t.channel.gate.held = [] := by
        rcases hg with hg | hg
        · exact absurd (h.holding hg).2.2.2.2 ho
        · exact hg
      simp only [closed, Bool.false_eq_true, if_false]
      exact ⟨h.frames, h.limit, h.holding, h.unbegun, fun _ => ⟨closed, held, hq⟩⟩

theorem InOrder.step (h : InOrder capacity t) (e : ChannelEvent) :
    InOrder capacity (t.step e) := by
  cases e with
  | wrap upload =>
    by_cases hc : t.channel.isOpen = true ∧ ¬ t.hasBegun = true
    · have := h.wrap hc.1 (by simpa using hc.2) ⟨upload, true⟩
      simpa only [Transmission.step, if_pos hc] using this
    · simpa only [Transmission.step, if_neg hc] using h
  | send f =>
    by_cases ho : t.channel.isOpen = true
    · exact h.send ho f
    · simpa only [Transmission.step, if_neg ho] using h
  | enableDuplex =>
    by_cases ho : t.channel.isOpen = true
    · simp only [Transmission.step, if_pos ho]
      rcases t.channel.enableDuplex_cases with he | he <;> rw [he]
      · exact h.relax (by simp) (by simp) (by simp) (by simp) (by simp)
      · exact h
    · simpa only [Transmission.step, if_neg ho] using h
  | arrive items => exact h.relax rfl rfl rfl (fun hc => ⟨hc, rfl⟩) id
  | complete => exact h.relax rfl rfl rfl (fun hc => ⟨hc, rfl⟩) id
  | pollUpload =>
    cases hs : t.signal with
    | none => simpa only [Transmission.step, hs] using h
    | some s =>
      simp only [Transmission.step, hs]
      rcases s.next_cases t.channel with he | he <;> rw [he]
      · exact h.release _
      · exact h.relax rfl rfl rfl (fun hc => ⟨hc, rfl⟩) id
  | dropUpload =>
    cases hs : t.signal with
    | none => simpa only [Transmission.step, hs] using h
    | some s =>
      simp only [Transmission.step, hs]
      rcases s.fire_cases t.channel with he | he <;> rw [he]
      · exact h.release _
      · exact h.relax rfl rfl rfl (fun hc => ⟨hc, rfl⟩) id
  | poll => exact h.poll
  | dropSink => exact h.relax (by simp) (by simp) (by simp) (by simp) (by simp)

/-! ## Whole runs -/

theorem inOrder_run (capacity : Nat) (allowsDuplex : Bool) (events : List ChannelEvent) :
    InOrder capacity ((start capacity allowsDuplex).run events) := by
  induction events using List.reverseRecOn with
  | nil => exact inOrder_start capacity allowsDuplex
  | append_singleton events e ih =>
    unfold run at ih ⊢
    rw [List.foldl_append]
    exact ih.step e

/-- **Order and no loss.** What was delivered, what the gate holds and what is
queued are together what the gate kept of the early frames, and then the late
ones. Nothing is delivered while the gate holds, and the client is told that
there is no more only when the sender is gone and everything was delivered. -/
theorem delivered_held_queued (capacity : Nat) (allowsDuplex : Bool)
    (events : List ChannelEvent) :
    let t := (start capacity allowsDuplex).run events
    t.delivered ++ t.channel.gate.held.map (·.frame) ++ t.channel.queue =
        heldBack capacity t.early ++ t.late ∧
      (t.channel.gate.isHolding = true → t.delivered = []) ∧
      (t.hasEnded = true →
        t.channel.isOpen = false ∧ t.delivered = heldBack capacity t.early ++ t.late) := by
  intro t
  have order := inOrder_run capacity allowsDuplex events
  refine ⟨order.frames, fun hh => (order.holding hh).2.1, fun he => ?_⟩
  obtain ⟨closed, held, queue⟩ := order.ended he
  have frames := order.frames
  rw [held, queue] at frames
  exact ⟨closed, by simpa using frames⟩

/-- A gate for one frame: the second frame takes the place of the first, and the
third comes after the upload has ended. -/
example :
    let t := (start 1 false).run
      [.wrap ⟨[], false⟩, .send [0x61], .poll, .send [0x62], .complete, .pollUpload,
        .send [0x63], .poll, .dropSink, .poll, .poll]
    t.early = [[0x61], [0x62]] ∧ t.delivered = [[0x62], [0x63]] ∧ t.hasEnded = true := by
  decide

end Transmission
end ImageBuild
