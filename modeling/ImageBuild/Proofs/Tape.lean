import ImageBuild.Proofs.Delivery
import ImageBuild.Proofs.Exchange
import ImageBuild.Proofs.Oblivious

/-!
# What a channel makes of what is sent

A `Tape` is a sink that takes every frame, and notes which ones came before the
upload was over. Whatever the mode, a channel carries what a tape has: in full
duplex all of it, in half duplex what the gate keeps of the early frames, and
then all late ones (`Carries`). An oblivious build at a channel does what it
would do with a tape, or waits (`Desk.Matches.move`).
-/

namespace ImageBuild

namespace Transmission

/-! ## What a gate keeps -/

theorem length_holdAll (n : Nat) (fs : List Frame) :
    (holdAll n fs).held.length = min fs.length (max n 1) := by
  induction fs using List.reverseRecOn with
  | nil => simp [holdAll]
  | append_singleton fs f ih =>
    have limit := holdAll_limit n fs
    rw [holdAll_snoc]
    simp only [Gate.hold, List.length_append, List.length_singleton]
    split
    · next full =>
      -- one frame gives way
      have nonempty : (holdAll n fs).held ≠ [] := by
        intro empty
        rw [empty, limit] at full
        simp at full
      rw [List.length_eraseIdx_of_lt (Gate.victim_lt nonempty _)]
      omega
    · omega

theorem holdAll_sublist (n : Nat) (fs : List Frame) :
    (holdAll n fs).held.Sublist (fs.map HeldFrame.ofFrame) := by
  induction fs using List.reverseRecOn with
  | nil => exact List.Sublist.refl _
  | append_singleton fs f ih =>
    obtain ⟨kept, hk, sub⟩ := Gate.hold_held (holdAll n fs) f
    rw [holdAll_snoc, hk, List.map_append]
    exact (sub.trans ih).append (List.Sublist.refl _)

theorem heldBack_sublist (n : Nat) (fs : List Frame) : (heldBack n fs).Sublist fs := by
  have sub := (holdAll_sublist n fs).map (·.frame)
  rwa [List.map_map, show (HeldFrame.frame ∘ HeldFrame.ofFrame) = id from rfl, List.map_id] at sub

theorem length_heldBack (n : Nat) (fs : List Frame) :
    (heldBack n fs).length = min fs.length (max n 1) := by
  rw [heldBack, List.length_map, length_holdAll]

theorem heldBack_of_le {n : Nat} {fs : List Frame} (h : fs.length ≤ max n 1) :
    heldBack n fs = fs :=
  (heldBack_sublist n fs).eq_of_length (by rw [length_heldBack]; omega)

theorem getLast?_heldBack (n : Nat) (fs : List Frame) : (heldBack n fs).getLast? = fs.getLast? := by
  rcases List.eq_nil_or_concat fs with rfl | ⟨rest, f, rfl⟩
  · rfl
  · obtain ⟨kept, hk, -⟩ := Gate.hold_held (holdAll n rest) f
    rw [heldBack, List.concat_eq_append, holdAll_snoc, hk]
    simp [HeldFrame.ofFrame]

end Transmission

open Transmission

/-! ## Tapes and channels -/

/-- A sink that takes every frame. -/
structure Tape where
  /-- the frames that came before the upload was over -/
  early : List Frame := []
  late : List Frame := []
  isDone : Bool := false

namespace Tape

def send (t : Tape) (f : Frame) : Tape :=
  if t.isDone then { t with late := t.late ++ [f] } else { t with early := t.early ++ [f] }

def finish (t : Tape) : Tape := { t with isDone := true }

instance : Sink Tape where
  send t f := (.accepted, t.send f)
  enableDuplex t := (.ok (), t)
  uploadDone := finish

@[simp] theorem isDone_send (t : Tape) (f : Frame) : (t.send f).isDone = t.isDone := by
  unfold send
  split <;> rfl

/-- What one move adds to a tape: early frames come before the late ones. -/
structure Grows (t t' : Tape) : Prop where
  late : t.isDone = false → t'.late = t.late
  early : t.isDone = true → t'.isDone = true ∧ t'.early = t.early

theorem Grows.refl (t : Tape) : t.Grows t := ⟨fun _ => rfl, fun h => ⟨h, rfl⟩⟩

theorem Grows.finish {t t' : Tape} (h : t.Grows t') : t.Grows t'.finish :=
  ⟨h.late, fun hd => ⟨rfl, (h.early hd).2⟩⟩

variable {t : Tape}

theorem send_early (h : t.isDone = false) (f : Frame) :
    t.send f = { t with early := t.early ++ [f] } := by
  simp only [send, h, Bool.false_eq_true, if_false]

theorem send_late (h : t.isDone = true) (f : Frame) :
    t.send f = { t with late := t.late ++ [f] } := by
  simp only [send, h, if_true]

theorem grows_send (t : Tape) (f : Frame) : t.Grows (t.send f) := by
  cases hd : t.isDone with
  | false =>
    rw [send_early hd]
    exact ⟨fun _ => rfl, fun hn => by simp [hd] at hn⟩
  | true =>
    rw [send_late hd]
    exact ⟨fun hn => by simp [hd] at hn, fun _ => ⟨hd, rfl⟩⟩

end Tape

/-- **A channel carries** what is on a tape, in full duplex or in half duplex. -/
structure Carries (n : Nat) (isDuplex : Bool) (delivered : List Frame) (c : Channel) (t : Tape) :
    Prop where
  frames : delivered ++ c.onWay = (if isDuplex then t.early else heldBack n t.early) ++ t.late
  limit : c.gate.limit = max n 1
  hasReader : c.hasReader = true
  isHolding : c.gate.isHolding = (!isDuplex && !t.isDone)
  holding : c.gate.isHolding = true → c.gate.held = (holdAll n t.early).held ∧ delivered = [] ∧
    c.queue = [] ∧ c.gate.isCommitted = false
  late : t.isDone = false → t.late = []

namespace Carries

variable {n : Nat} {isDuplex : Bool} {delivered : List Frame} {c : Channel} {t : Tape}

theorem hold (h : Carries n isDuplex delivered c t) (hh : c.gate.isHolding = true) (f : Frame) :
    Carries n isDuplex delivered { c with gate := c.gate.hold f } (t.send f) := by
  have holding := h.isHolding
  rw [hh] at holding
  simp only [Bool.true_eq, Bool.and_eq_true, Bool.not_eq_true'] at holding
  obtain ⟨rfl, early⟩ := holding
  obtain ⟨held, nothing, queue, committed⟩ := h.holding hh
  have kept : (c.gate.hold f).held = (holdAll n (t.early ++ [f])).held := by
    rw [holdAll_snoc]
    exact Gate.hold_held_congr f (h.limit.trans (holdAll_limit _ _).symm) held
  rw [Tape.send_early early]
  refine ⟨?_, h.limit, h.hasReader, h.isHolding, fun _ => ⟨kept, nothing, queue, committed⟩, h.late⟩
  show delivered ++ ((c.gate.hold f).held.map (·.frame) ++ c.queue) = _
  simp only [kept, nothing, queue, h.late early, List.nil_append, List.append_nil,
    Bool.false_eq_true, if_false]
  rfl

theorem enqueue (h : Carries n isDuplex delivered c t) (hh : c.gate.isHolding = false) (f : Frame) :
    Carries n isDuplex delivered { c with queue := c.queue ++ [f], gate := c.gate.commit }
      (t.send f) := by
  have closed (hc : c.gate.isHolding = true) {p : Prop} : p := by
    rw [hh] at hc
    cases hc
  have frames : delivered ++ (c.gate.held.map (·.frame) ++ (c.queue ++ [f])) =
      (if isDuplex then t.early else heldBack n t.early) ++ (t.late ++ [f]) := by
    rw [← List.append_assoc _ c.queue, ← List.append_assoc delivered, ← List.append_assoc _ t.late,
      ← h.frames]
    rfl
  cases done : t.isDone with
  | true =>
    rw [Tape.send_late done]
    refine ⟨frames, h.limit, h.hasReader, h.isHolding, fun hc => closed hc, fun early => ?_⟩
    rw [show t.isDone = false from early] at done
    cases done
  | false =>
    rw [Tape.send_early done]
    have duplex : isDuplex = true := by
      have holding := h.isHolding
      rw [hh, done] at holding
      simpa using holding
    refine ⟨frames.trans ?_, h.limit, h.hasReader, h.isHolding, fun hc => closed hc, h.late⟩
    simp only [duplex, if_true, h.late done, List.nil_append, List.append_nil]

/-- **A frame** goes where it should, or the queue is full. -/
theorem send (h : Carries n isDuplex delivered c t) (f : Frame) :
    ((c.send f).1 = .accepted ∧ (c.send f).2.isOpen = c.isOpen ∧
      Carries n isDuplex delivered (c.send f).2 (t.send f)) ∨
    ((c.send f).1 = .blocked ∧ c.gate.isHolding = false ∧ c.queue ≠ []) := by
  rcases c.send_cases f with ⟨hh, hs⟩ | ⟨-, gone, -⟩ | ⟨hh, -, hs⟩ | ⟨hh, -, hs⟩
  · rw [hs]
    exact .inl ⟨rfl, rfl, h.hold hh f⟩
  · rw [h.hasReader] at gone
    cases gone
  · rw [hs]
    exact .inl ⟨rfl, rfl, h.enqueue hh f⟩
  · have full := Channel.capacity_le_of_blocked (congrArg Prod.fst hs)
    rw [Channel.capacity, h.limit] at full
    refine .inr ⟨congrArg Prod.fst hs, hh, fun empty => ?_⟩
    rw [empty] at full
    exact absurd (Nat.le_trans (Nat.le_max_right n 1) full) (Nat.not_succ_le_zero 0)

theorem release (h : Carries n isDuplex delivered c t) :
    Carries n isDuplex delivered c.release t.finish := by
  refine ⟨?_, by simpa using h.limit, h.hasReader, by simp [Tape.finish], ?_, ?_⟩
  · rw [c.onWay_release]
    exact h.frames
  · intro hc
    simp at hc
  · rintro ⟨⟩

theorem close (h : Carries n isDuplex delivered c t) (hd : t.isDone = true) :
    Carries n isDuplex delivered c.close t := by
  refine ⟨?_, by simpa using h.limit, h.hasReader, by simp [hd], ?_, h.late⟩
  · rw [c.onWay_close]
    exact h.frames
  · intro hc
    simp at hc

theorem receive (h : Carries n isDuplex delivered c t) {f : Frame} {c' : Channel}
    (hr : c.receive = (.frame f, c')) :
    Carries n isDuplex (delivered ++ [f]) c' t ∧ c'.isOpen = c.isOpen := by
  obtain ⟨onWay, isOpen, hasReader, holding', holding⟩ :=
    Channel.receive_onWay hr fun hh => (h.holding hh).2.2.1
  refine ⟨⟨?_, (Channel.receive_limit hr).trans h.limit, hasReader.trans h.hasReader, ?_, ?_,
    h.late⟩, isOpen⟩
  · rw [List.append_assoc, List.singleton_append, ← onWay]
    exact h.frames
  · rw [holding', ← holding]
    exact h.isHolding
  · intro hc
    rw [holding'] at hc
    cases hc

end Carries

/-! ## Uploads that arrive and uploads that are there -/

/-- A source whose upload is still arriving, of which `a` has arrived so far, next
to one with all the `items` of it. -/
structure Source.Ahead (items : List Upload.Item) (a : Upload) (s t : Source) : Prop where
  rest : ∃ rest, a.items ++ rest = items ∧ s.upload.items ++ rest = t.upload.items ∧
    (a.isClosed = true → rest = [])
  isClosed : s.upload.isClosed = a.isClosed
  whole : t.upload.isClosed = true
  bytesRead : s.bytesRead = t.bytesRead
  isFinished : s.isFinished = t.isFinished

namespace Source

theorem next_isFinished (s : Source) :
    s.next.2.isFinished = (s.isFinished || decide (s.next.1 = .ended)) := by
  by_cases finished : s.isFinished
  · simp [next_of_isFinished finished, finished]
  · obtain ⟨_, x, _, -, -, -, look⟩ | ⟨-, look⟩ := looks_next (Bool.eq_false_iff.2 finished)
    · cases x <;> simp [look, finished, Upload.Item.polled]
    · cases closed : s.upload.isClosed <;> simp [look, finished, closed]

/-- **The next item** is the same for both, unless it has not arrived. -/
theorem Ahead.next {items : List Upload.Item} {a : Upload} {s t : Source}
    (h : Ahead items a s t) :
    (s.next.1 = .starved ∧ a.isClosed = false) ∨
      (s.next.1 = t.next.1 ∧ Ahead items a s.next.2 t.next.2) := by
  obtain ⟨rest, hitems, hrest, closed⟩ := h.rest
  have go (xs : List Upload.Item) (hf : s.isFinished = false) :
      ((Source.next.go s xs).1 = .starved ∧ a.isClosed = false) ∨
        ((Source.next.go s xs).1 = (Source.next.go t (xs ++ rest)).1 ∧
          Ahead items a (Source.next.go s xs).2 (Source.next.go t (xs ++ rest)).2) := by
    induction xs with
    | nil =>
      cases hc : a.isClosed with
      | false =>
        refine .inl ⟨?_, rfl⟩
        simp only [Source.next.go, h.isClosed, hc, Bool.false_eq_true, if_false]
      | true =>
        -- everything has arrived
        have none := closed hc
        subst none
        simp only [Source.next.go, h.isClosed, hc, h.whole, if_true, List.append_nil, true_and]
        exact .inr ⟨⟨[], hitems, rfl, fun _ => rfl⟩, hc.symm, rfl, h.bytesRead, rfl⟩
    | cons x xs ih =>
      cases x with
      | chunk data =>
        simp only [Source.next.go, List.cons_append]
        split
        · exact ih
        · refine .inr ⟨rfl, ⟨rest, hitems, rfl, closed⟩, h.isClosed, h.whole, ?_, h.isFinished⟩
          simp only [h.bytesRead]
      | fault | pause =>
        exact .inr ⟨rfl, ⟨rest, hitems, rfl, closed⟩, h.isClosed, h.whole, h.bytesRead,
          h.isFinished⟩
  unfold Source.next
  cases hf : s.isFinished with
  | true =>
    rw [← h.isFinished, hf]
    exact .inr ⟨rfl, h⟩
  | false =>
    rw [← h.isFinished, hf, ← hrest]
    exact go _ hf

end Source

/-- Whether an upload has come to its end or was put away. -/
def isOver : Option Source → Bool
  | none => true
  | some s => s.isFinished

/-! ## A build at a channel and at a tape -/

section Builds

variable {ι σ : Type}

/-- What a build has of its upload at a channel and at a tape. -/
def Uploads (items : List Upload.Item) (a : Upload) (u v : Option Source) : Prop :=
  (u = none ∧ v = none) ∨ ∃ s t, u = some s ∧ v = some t ∧ s.Ahead items a t

/-- Two desks at which the same has happened so far. -/
structure Desk.Matches (n : Nat) (isDuplex : Bool) (delivered : List Frame)
    (items : List Upload.Item) (a : Upload) (d : Desk σ Channel) (x : Desk σ Tape) : Prop where
  workshop : d.toWorkshop = x.toWorkshop
  source : Uploads items a d.source x.source
  kept : d.writer.kept = x.writer.kept
  carries : Carries n isDuplex delivered d.writer.sink x.writer.sink
  isDone : x.writer.sink.isDone = isOver d.source

/-- What happens at a channel and at a tape, from `d` and `x` on. -/
structure Desk.Alike (n : Nat) (isDuplex : Bool) (delivered : List Frame)
    (items : List Upload.Item) (a : Upload) (d : Desk σ Channel) (x : Desk σ Tape)
    (d' : Desk σ Channel) (x' : Desk σ Tape) : Prop where
  desks : Desk.Matches n isDuplex delivered items a d' x'
  isOpen : d'.writer.sink.isOpen = d.writer.sink.isOpen
  grows : x.writer.sink.Grows x'.writer.sink

/-- Why a build at a channel may have to wait. -/
def Desk.IsStuck (a : Upload) (d : Desk σ Channel) : Prop :=
  (d.writer.sink.gate.isHolding = false ∧ d.writer.sink.queue ≠ []) ∨ a.isClosed = false

namespace Desk

variable {τ : Type} [Sink τ] {d : Desk σ τ} {f : Frame}

theorem write_empty (h : f.isEmpty = true) : d.write f = (.accepted, d) := by
  simp only [write, Writer.write, if_pos h]

theorem write_keep (h : f.isEmpty = false) {fs : Array Frame} (hk : d.writer.kept = some fs) :
    d.write f = (.accepted, { d with writer := { d.writer with kept := some (fs.push f) } }) := by
  simp only [write, Writer.write, h, hk, Bool.false_eq_true, if_false]

theorem write_send (h : f.isEmpty = false) (hk : d.writer.kept = none) :
    d.write f = ((Sink.send d.writer.sink f).1,
      { d with writer := { d.writer with sink := (Sink.send d.writer.sink f).2 } }) := by
  simp only [write, Writer.write, h, hk, Bool.false_eq_true, if_false]

end Desk

theorem Tape.Grows.dropSource {t : Tape} {x : Desk σ Tape} (h : t.Grows x.writer.sink) :
    t.Grows x.dropSource.writer.sink := by
  unfold Desk.dropSource
  split
  · exact h
  · exact h.finish

namespace Desk.Matches

variable {n : Nat} {isDuplex : Bool} {delivered : List Frame} {items : List Upload.Item}
  {a : Upload} {d : Desk σ Channel} {x : Desk σ Tape}

theorem view_eq (h : Desk.Matches n isDuplex delivered items a d x) : x.view = d.view := by
  have received : d.source.map (·.bytesRead) = x.source.map (·.bytesRead) := by
    rcases h.source with ⟨hd, hx⟩ | ⟨s, t, hd, hx, ahead⟩
    · rw [hd, hx]
    · rw [hd, hx]
      exact congrArg some ahead.bytesRead
  unfold Desk.view Writer.isQuiet
  rw [h.workshop, h.kept, received]

theorem inWorkshop (h : Desk.Matches n isDuplex delivered items a d x) (w : Workshop σ) :
    Desk.Matches n isDuplex delivered items a (d.inWorkshop w) (x.inWorkshop w) :=
  ⟨rfl, h.source, h.kept, h.carries, h.isDone⟩

theorem write (h : Desk.Matches n isDuplex delivered items a d x) (f : Frame) :
    ((d.write f).1 = .blocked ∧ d.IsStuck a) ∨
      ((d.write f).1 = .accepted ∧ (x.write f).1 = .accepted ∧
        Alike n isDuplex delivered items a d x (d.write f).2 (x.write f).2) := by
  cases empty : f.isEmpty with
  | true =>
    rw [write_empty empty, write_empty empty]
    exact .inr ⟨rfl, rfl, h, rfl, .refl _⟩
  | false =>
    cases hk : d.writer.kept with
    | some fs =>
      rw [write_keep empty hk, write_keep empty (h.kept.symm.trans hk)]
      exact .inr ⟨rfl, rfl, ⟨h.workshop, h.source, rfl, h.carries, h.isDone⟩, rfl, .refl _⟩
    | none =>
      rw [write_send empty hk, write_send empty (h.kept.symm.trans hk)]
      rcases h.carries.send f with ⟨accepted, isOpen, carries⟩ | ⟨blocked, free, full⟩
      · refine .inr ⟨accepted, rfl, ⟨h.workshop, h.source, h.kept, carries, ?_⟩, isOpen,
          x.writer.sink.grows_send f⟩
        show (x.writer.sink.send f).isDone = _
        rw [Tape.isDone_send]
        exact h.isDone
      · exact .inl ⟨blocked, .inl ⟨free, full⟩⟩

theorem uploadDone (h : Desk.Matches n isDuplex delivered items a d x)
    {source source' : Option Source} (ended : isOver source = true)
    (uploads : Uploads items a source source') :
    Alike n isDuplex delivered items a d x ({ d with source := source }).uploadDone
      ({ x with source := source' }).uploadDone :=
  ⟨⟨h.workshop, uploads, h.kept, h.carries.release, ended.symm⟩, rfl, (Tape.Grows.refl _).finish⟩

theorem take (h : Desk.Matches n isDuplex delivered items a d x) {s t : Source}
    (hd : d.source = some s) (ahead : s.Ahead items a t) :
    (s.next.1 = .starved ∧ d.IsStuck a) ∨
      (s.next.1 = t.next.1 ∧ s.next.2.bytesRead = t.next.2.bytesRead ∧
        Alike n isDuplex delivered items a d x (d.take s).2 (x.take t).2) := by
  rcases ahead.next with ⟨starved, incomplete⟩ | ⟨same, next⟩
  · exact .inl ⟨starved, .inr incomplete⟩
  · refine .inr ⟨same, next.bytesRead, ?_⟩
    have finished := s.next_isFinished
    unfold Desk.take
    rw [← same]
    by_cases ended : s.next.1 = .ended
    · simp only [if_pos ended]
      exact h.uploadDone (by simp [isOver, finished, ended]) (.inr ⟨_, _, rfl, rfl, next⟩)
    · simp only [if_neg ended]
      refine ⟨⟨h.workshop, .inr ⟨_, _, rfl, rfl, next⟩, h.kept, h.carries, ?_⟩, rfl, .refl _⟩
      show _ = s.next.2.isFinished
      rw [finished, decide_eq_false ended, Bool.or_false, h.isDone, hd]
      rfl

theorem dropSource (h : Desk.Matches n isDuplex delivered items a d x) :
    Alike n isDuplex delivered items a d x d.dropSource x.dropSource := by
  rcases h.source with ⟨hd, hx⟩ | ⟨s, t, hd, hx, -⟩
  · simp only [Desk.dropSource, hd, hx]
    exact ⟨h, rfl, .refl _⟩
  · simp only [Desk.dropSource, hd, hx]
    exact h.uploadDone rfl (.inl ⟨rfl, rfl⟩)

/-- **A deed** comes to the same at both desks, or there is no answer yet at the
channel. -/
theorem perform (h : Desk.Matches n isDuplex delivered items a d x) (deed : Deed) :
    ((d.perform deed).1.isOutstanding = true ∧ d.IsStuck a) ∨
      ((d.perform deed).1.isOutstanding = false ∧ (x.perform deed).1 = (d.perform deed).1 ∧
        Alike n isDuplex delivered items a d x (d.perform deed).2 (x.perform deed).2) := by
  cases deed with
  | nothing => exact .inr ⟨rfl, rfl, h, rfl, .refl _⟩
  | write f =>
    simp only [Desk.perform]
    rcases h.write f with ⟨blocked, stuck⟩ | ⟨accepted, accepted', alike⟩
    · rw [blocked]
      exact .inl ⟨rfl, stuck⟩
    · rw [accepted, accepted']
      exact .inr ⟨rfl, rfl, alike⟩
  | take =>
    rcases h.source with ⟨hd, hx⟩ | ⟨s, t, hd, hx, ahead⟩
    · simp only [Desk.perform, hd, hx]
      exact .inr ⟨rfl, trivial, h, rfl, .refl _⟩
    · simp only [Desk.perform, hd, hx]
      rcases h.take hd ahead with ⟨starved, stuck⟩ | ⟨same, received, alike⟩
      · rw [starved]
        exact .inl ⟨rfl, stuck⟩
      · have whole := Source.next_ne_starved ahead.whole
        rw [same, received]
        refine .inr ⟨?_, rfl, alike⟩
        cases hp : t.next.1 with
        | starved => exact absurd hp whole
        | chunk | fault | paused | ended => rfl
  | putAway => exact .inr ⟨rfl, rfl, h.dropSource⟩

theorem close (h : Desk.Matches n isDuplex delivered items a d x)
    (result : Except BuildError String) :
    (Session.close (ι := ι) x result).1 = (Session.close (ι := ι) d result).1 ∧
      Alike n isDuplex delivered items a d x (Session.close (ι := ι) d result).2
        (Session.close (ι := ι) x result).2 := by
  obtain ⟨⟨workshop, source, -, carries, isDone⟩, isOpen, grows⟩ := h.dropSource
  refine ⟨?_, ⟨workshop, source, rfl, carries, isDone⟩, isOpen, grows⟩
  simp only [Session.close, h.kept]

variable [Engine ι σ]

/-- **A move** of an oblivious build. -/
theorem move (oblivious : Engine.Oblivious ι) (h : Desk.Matches n isDuplex delivered items a d x)
    (j : ι) :
    ((Engine.move j d).1 = .wait ∧ d.IsStuck a) ∨
      ((Engine.move j x).1 = (Engine.move j d).1 ∧
        Alike n isDuplex delivered items a d x (Engine.move j d).2 (Engine.move j x).2) := by
  obtain ⟨deed, next, does⟩ := oblivious j d.view
  have channel : d.Does deed next (Engine.move j d) := does d rfl
  have tape : x.Does deed next (Engine.move j x) := does x h.view_eq
  unfold Desk.Does at channel tape
  rcases h.perform deed with ⟨outstanding, stuck⟩ | ⟨answered, same, alike⟩
  · rw [if_pos outstanding] at channel
    exact .inl ⟨channel, stuck⟩
  · rw [same] at tape
    rw [answered, if_neg Bool.false_ne_true] at channel tape
    rw [channel, tape]
    exact .inr ⟨rfl, alike.desks.inWorkshop _, alike.isOpen, alike.grows⟩

/-- **A move of the session** is the same at both desks, or has to wait at the
channel. -/
theorem session_move (oblivious : Engine.Oblivious ι)
    (h : Desk.Matches n isDuplex delivered items a d x) (s : Session ι) :
    ((s.move d).1 = .wait ∧ d.IsStuck a) ∨
      ((s.move x).1 = (s.move d).1 ∧
        Alike n isDuplex delivered items a d x (s.move d).2 (s.move x).2) := by
  cases s with
  | building j =>
    rcases h.move oblivious j with ⟨waits, stuck⟩ | ⟨same, alike⟩
    · refine .inl ⟨?_, stuck⟩
      simp only [Session.move]
      rcases hm : Engine.move j d with ⟨m, d'⟩
      rw [hm] at waits
      cases waits
      rfl
    · simp only [Session.move]
      rcases hm : Engine.move j d with ⟨m, d'⟩
      rcases hx : Engine.move j x with ⟨m', x'⟩
      rw [hm, hx] at same alike
      cases same
      cases m with
      | go | wait => exact .inr ⟨rfl, alike⟩
      | stop result =>
        obtain ⟨frames, ended⟩ := alike.desks.close (ι := ι) result
        refine .inr ⟨congrArg Move.go frames, ended.desks, ended.isOpen.trans alike.isOpen, ?_⟩
        exact alike.grows.dropSource
  | closing frames =>
    cases frames with
    | nil => exact .inr ⟨rfl, h, rfl, .refl _⟩
    | cons f rest =>
      simp only [Session.move]
      rcases hd : d.write f with ⟨sent, d'⟩
      rcases hx : x.write f with ⟨sent', x'⟩
      rcases h.write f with ⟨blocked, stuck⟩ | ⟨accepted, accepted', alike⟩
      · rw [hd] at blocked
        cases blocked
        exact .inl ⟨rfl, stuck⟩
      · rw [hd, hx] at alike
        rw [hd] at accepted
        rw [hx] at accepted'
        cases accepted
        cases accepted'
        exact .inr ⟨rfl, alike⟩

end Desk.Matches

end Builds
end ImageBuild
