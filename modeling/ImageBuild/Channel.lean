import ImageBuild.Progress
import ImageBuild.Upload

/-!
# The response channel

Frames travel to the client through a queue of bounded length. While an
upload is still arriving and the response may not begin, a gate holds frames
back instead. The gate cannot make its writer wait, because the writer is also
the reader of the upload, so a full gate drops a frame: the oldest status with
the id of the new one, or else the oldest status, or else the oldest frame.
The gate is released when the upload ends, and what it held is delivered
before anything sent later. The first frame that can be delivered commits the
response.
-/

namespace ImageBuild

structure HeldFrame where
  frame : Frame
  /-- the id of a status; other frames have none -/
  statusId : Option (Option String)
  deriving DecidableEq

namespace HeldFrame

def ofFrame (f : Frame) : HeldFrame :=
  ⟨f, (Message.ofFrame? f).bind (·.statusId?)⟩

def isStatus (h : HeldFrame) : Bool := h.statusId.isSome

end HeldFrame

/-- Holds frames back while an upload arrives. -/
structure Gate where
  isHolding : Bool := false
  held : List HeldFrame := []
  /-- how many frames can be held -/
  limit : Nat
  /-- whether a frame has become ready for the client -/
  isCommitted : Bool := false
  deriving DecidableEq

namespace Gate

/-- Which of the held frames gives way to a new one. -/
def victim (held : List HeldFrame) (incoming : HeldFrame) : Nat :=
  let superseded :=
    if incoming.isStatus then held.findIdx? (·.statusId == incoming.statusId) else none
  match superseded with
  | some i => i
  | none => (held.findIdx? (·.isStatus)).getD 0

def hold (g : Gate) (f : Frame) : Gate :=
  let h := HeldFrame.ofFrame f
  let held := if g.limit ≤ g.held.length then g.held.eraseIdx (victim g.held h) else g.held
  { g with held := held ++ [h] }

def commit (g : Gate) : Gate := { g with isCommitted := true }

def release (g : Gate) : Gate :=
  if g.isHolding then
    { g with isHolding := false, isCommitted := g.isCommitted || !g.held.isEmpty }
  else g

/-- Takes the oldest frame of a gate that no longer holds. -/
def pop? (g : Gate) : Option (Frame × Gate) :=
  if g.isHolding then none
  else
    match g.held with
    | [] => none
    | h :: rest => some (h.frame, { g with held := rest })

end Gate

/-- The way of frames from a build to a client. -/
structure Channel where
  gate : Gate
  /-- the frames that were sent and not delivered -/
  queue : List Frame := []
  allowsDuplex : Bool
  isDuplex : Bool := false
  /-- whether more can be sent -/
  isOpen : Bool := true
  /-- whether anybody reads -/
  hasReader : Bool := true
  deriving DecidableEq

namespace Channel

/-- How many frames can be queued at most, whatever is asked for: one less than `2 ^ 61`. -/
def maxCapacity : Nat := 0x1FFFFFFFFFFFFFFF

/-- A channel that queues up to `capacity` frames, at least one. -/
def new (capacity : Nat) (allowsDuplex : Bool) : Channel :=
  { gate := { limit := max capacity 1 }, allowsDuplex }

def capacity (c : Channel) : Nat := c.gate.limit

/-- Holds frames back from now on, unless the response may begin at any time. -/
def hold (c : Channel) : Channel :=
  if c.isDuplex then c else { c with gate := { c.gate with isHolding := true } }

def release (c : Channel) : Channel := { c with gate := c.gate.release }

/-- Lets the response begin before the request is complete. This has to be
asked for before the response is committed. -/
def enableDuplex (c : Channel) : Except DuplexError Unit × Channel :=
  if ¬ c.allowsDuplex then (.error .notSupported, c)
  else if c.gate.isCommitted then (.error .alreadyCommitted, c)
  else (.ok (), { c.release with isDuplex := true })

def send (c : Channel) (f : Frame) : Sent × Channel :=
  if c.gate.isHolding then (.accepted, { c with gate := c.gate.hold f })
  else if ¬ c.hasReader then (.failed .disconnected, c)
  else if c.queue.length < c.capacity then
    (.accepted, { c with queue := c.queue ++ [f], gate := c.gate.commit })
  else (.blocked, c)

/-- What a reader of the channel finds. -/
inductive Received where
  | frame (f : Frame)
  | pending
  | ended
  deriving DecidableEq

/-- Takes the next frame: released frames come first. -/
def receive (c : Channel) : Received × Channel :=
  match c.gate.pop? with
  | some (f, gate) => (.frame f, { c with gate })
  | none =>
    match c.queue with
    | f :: rest => (.frame f, { c with queue := rest })
    | [] => (if c.isOpen then .pending else .ended, c)

theorem length_receive {c c' : Channel} {f : Frame} (h : c.receive = (.frame f, c')) :
    c'.gate.held.length + c'.queue.length < c.gate.held.length + c.queue.length := by
  unfold receive at h
  split at h
  · next gate hp =>
    simp only [Prod.mk.injEq] at h
    obtain ⟨-, rfl⟩ := h
    unfold Gate.pop? at hp
    split at hp
    · cases hp
    · split at hp
      · cases hp
      · next hh =>
        simp only [Option.some.injEq, Prod.mk.injEq] at hp
        obtain ⟨-, rfl⟩ := hp
        simp [hh]
  · split at h
    · next hq =>
      simp only [Prod.mk.injEq] at h
      obtain ⟨-, rfl⟩ := h
      simp [hq]
    · split at h <;> simp at h

/-- Nothing more will be sent; what is held is final. -/
def close (c : Channel) : Channel := { c.release with isOpen := false }

def dropReader (c : Channel) : Channel := { c with hasReader := false }

instance : Sink Channel where
  send := send
  enableDuplex := enableDuplex
  uploadDone := release

end Channel

/-- An upload whose end releases a gate, once. -/
structure Signal where
  upload : Upload
  isArmed : Bool := true
  deriving DecidableEq

namespace Signal

/-- Releases the gate unless that was done before. -/
def fire (s : Signal) (c : Channel) : Signal × Channel :=
  if s.isArmed then ({ s with isArmed := false }, c.release) else (s, c)

/-- Takes the next item of the upload. Its end releases the gate. -/
def next (s : Signal) (c : Channel) : Polled × Signal × Channel :=
  let (p, upload) := s.upload.next
  let s := { s with upload }
  if p = .ended then (p, s.fire c) else (p, s, c)

end Signal
end ImageBuild
