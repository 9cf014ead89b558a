import ImageBuild.Channel

/-!
# What the operations of a channel do

One lemma for each operation: `send_cases` and `receive_cases` list everything
that a send and a receive can do, and the lemmas on `release`, `hold`,
`enableDuplex` and `close` say which parts of a channel they leave alone. Later
proofs use these and do not open the operations again.
-/

namespace ImageBuild

namespace Gate

@[simp] theorem hold_isHolding (g : Gate) (f : Frame) : (g.hold f).isHolding = g.isHolding := rfl
@[simp] theorem hold_limit (g : Gate) (f : Frame) : (g.hold f).limit = g.limit := rfl
@[simp] theorem commit_isHolding (g : Gate) : g.commit.isHolding = g.isHolding := rfl
@[simp] theorem commit_held (g : Gate) : g.commit.held = g.held := rfl
@[simp] theorem commit_limit (g : Gate) : g.commit.limit = g.limit := rfl

@[simp] theorem release_isHolding (g : Gate) : g.release.isHolding = false := by
  unfold release
  split
  · rfl
  · next h => simpa using h

@[simp] theorem release_held (g : Gate) : g.release.held = g.held := by
  unfold release
  split <;> rfl

@[simp] theorem release_limit (g : Gate) : g.release.limit = g.limit := by
  unfold release
  split <;> rfl

/-- What a gate holds after another frame depends on what it held and on its
limit, not on whether the response is committed. -/
theorem hold_held_congr {g g' : Gate} (f : Frame) (hl : g.limit = g'.limit)
    (hh : g.held = g'.held) : (g.hold f).held = (g'.hold f).held := by
  simp only [hold, hl, hh]

theorem hold_held (g : Gate) (f : Frame) :
    ∃ kept, (g.hold f).held = kept ++ [HeldFrame.ofFrame f] ∧ kept.Sublist g.held := by
  refine ⟨_, rfl, ?_⟩
  split
  · exact List.eraseIdx_sublist _ _
  · exact List.Sublist.refl _

theorem victim_lt {held : List HeldFrame} (h : held ≠ []) (x : HeldFrame) :
    victim held x < held.length := by
  have pos : 0 < held.length := List.length_pos_iff.2 h
  have found {p : HeldFrame → Bool} {i : Nat} (hi : held.findIdx? p = some i) : i < held.length :=
    (List.findIdx?_eq_some_iff_getElem.1 hi).1
  have status : (held.findIdx? (·.isStatus)).getD 0 < held.length := by
    cases hs : held.findIdx? (·.isStatus) with
    | none => exact pos
    | some i => exact found hs
  unfold victim
  dsimp only
  split
  · next i hi =>
    split at hi
    · exact found hi
    · cases hi
  · exact status

end Gate

namespace Channel

/-! ## Sending and receiving -/

/-- **A send** is held back, refused, queued or blocked. -/
theorem send_cases (c : Channel) (f : Frame) :
    (c.gate.isHolding = true ∧ c.send f = (.accepted, { c with gate := c.gate.hold f })) ∨
    (c.gate.isHolding = false ∧ c.hasReader = false ∧
      c.send f = (.failed .disconnected, c)) ∨
    (c.gate.isHolding = false ∧ c.hasReader = true ∧
      c.send f = (.accepted, { c with queue := c.queue ++ [f], gate := c.gate.commit })) ∨
    (c.gate.isHolding = false ∧ c.hasReader = true ∧ c.send f = (.blocked, c)) := by
  unfold send
  by_cases hh : c.gate.isHolding = true
  · exact .inl ⟨hh, by rw [if_pos hh]⟩
  · rw [if_neg hh]
    rw [Bool.not_eq_true] at hh
    by_cases hr : c.hasReader = true
    · rw [if_neg (not_not_intro hr)]
      by_cases hq : c.queue.length < c.capacity
      · exact .inr (.inr (.inl ⟨hh, hr, by rw [if_pos hq]⟩))
      · exact .inr (.inr (.inr ⟨hh, hr, by rw [if_neg hq]⟩))
    · rw [if_pos hr]
      rw [Bool.not_eq_true] at hr
      exact .inr (.inl ⟨hh, hr, rfl⟩)

/-- **A receive** takes the oldest released frame, or else the oldest queued
one, or else finds none. -/
theorem receive_cases (c : Channel) :
    (∃ h rest, c.gate.isHolding = false ∧ c.gate.held = h :: rest ∧
      c.receive = (.frame h.frame, { c with gate := { c.gate with held := rest } })) ∨
    (∃ f rest, (c.gate.isHolding = true ∨ c.gate.held = []) ∧ c.queue = f :: rest ∧
      c.receive = (.frame f, { c with queue := rest })) ∨
    ((c.gate.isHolding = true ∨ c.gate.held = []) ∧ c.queue = [] ∧
      c.receive = (if c.isOpen then .pending else .ended, c)) := by
  -- with nothing to pop the queue decides
  have queued (hp : c.gate.pop? = none) :
      (∃ f rest, c.queue = f :: rest ∧ c.receive = (.frame f, { c with queue := rest })) ∨
      (c.queue = [] ∧ c.receive = (if c.isOpen then .pending else .ended, c)) := by
    unfold receive
    rw [hp]
    cases hq : c.queue with
    | nil => exact .inr ⟨rfl, rfl⟩
    | cons f rest => exact .inl ⟨f, rest, rfl, rfl⟩
  by_cases hh : c.gate.isHolding = true
  · rcases queued (by simp [Gate.pop?, hh]) with ⟨f, rest, hq, hr⟩ | ⟨hq, hr⟩
    · exact .inr (.inl ⟨f, rest, .inl hh, hq, hr⟩)
    · exact .inr (.inr ⟨.inl hh, hq, hr⟩)
  · cases hg : c.gate.held with
    | nil =>
      rcases queued (by simp [Gate.pop?, hg]) with ⟨f, rest, hq, hr⟩ | ⟨hq, hr⟩
      · exact .inr (.inl ⟨f, rest, .inr rfl, hq, hr⟩)
      · exact .inr (.inr ⟨.inr rfl, hq, hr⟩)
    | cons h rest =>
      refine .inl ⟨h, rest, by simpa using hh, rfl, ?_⟩
      unfold receive
      simp [Gate.pop?, hh, hg]

theorem capacity_le_of_blocked {c : Channel} {f : Frame} (h : (c.send f).1 = .blocked) :
    c.capacity ≤ c.queue.length := by
  rcases Nat.lt_or_ge c.queue.length c.capacity with room | full
  · unfold send at h
    rw [if_pos room] at h
    split at h
    · cases h
    · split at h <;> cases h
  · exact full

theorem receive_limit {c c' : Channel} {f : Frame} (h : c.receive = (.frame f, c')) :
    c'.gate.limit = c.gate.limit := by
  rcases c.receive_cases with ⟨x, rest, -, -, hr⟩ | ⟨g, rest, -, -, hr⟩ | ⟨-, -, hr⟩
  · rw [hr] at h
    cases h
    rfl
  · rw [hr] at h
    cases h
    rfl
  · rw [hr] at h
    split at h <;> cases h

/-! ## Opening and closing the gate -/

@[simp] theorem release_gate (c : Channel) : c.release.gate = c.gate.release := rfl
@[simp] theorem release_queue (c : Channel) : c.release.queue = c.queue := rfl
@[simp] theorem release_isOpen (c : Channel) : c.release.isOpen = c.isOpen := rfl
@[simp] theorem release_hasReader (c : Channel) : c.release.hasReader = c.hasReader := rfl
@[simp] theorem close_gate (c : Channel) : c.close.gate = c.gate.release := rfl
@[simp] theorem close_queue (c : Channel) : c.close.queue = c.queue := rfl
@[simp] theorem close_isOpen (c : Channel) : c.close.isOpen = false := rfl
@[simp] theorem close_hasReader (c : Channel) : c.close.hasReader = c.hasReader := rfl

@[simp] theorem hold_queue (c : Channel) : c.hold.queue = c.queue := by
  unfold hold
  split <;> rfl

@[simp] theorem hold_isOpen (c : Channel) : c.hold.isOpen = c.isOpen := by
  unfold hold
  split <;> rfl

@[simp] theorem hold_hasReader (c : Channel) : c.hold.hasReader = c.hasReader := by
  unfold hold
  split <;> rfl

@[simp] theorem hold_held (c : Channel) : c.hold.gate.held = c.gate.held := by
  unfold hold
  split <;> rfl

@[simp] theorem hold_limit (c : Channel) : c.hold.gate.limit = c.gate.limit := by
  unfold hold
  split <;> rfl

/-- **Asking for full duplex** releases the gate or changes nothing. -/
theorem enableDuplex_cases (c : Channel) :
    c.enableDuplex.2 = { c.release with isDuplex := true } ∨ c.enableDuplex.2 = c := by
  unfold enableDuplex
  split
  · exact .inr rfl
  · split
    · exact .inr rfl
    · exact .inl rfl

end Channel

namespace Signal

theorem fire_cases (s : Signal) (c : Channel) :
    (s.fire c).2 = c.release ∨ (s.fire c).2 = c := by
  unfold fire
  split
  · exact .inl rfl
  · exact .inr rfl

theorem next_cases (s : Signal) (c : Channel) :
    (s.next c).2.2 = c.release ∨ (s.next c).2.2 = c := by
  unfold next
  split
  next p upload _ =>
    split
    · exact fire_cases _ c
    · exact .inr rfl

end Signal
end ImageBuild
