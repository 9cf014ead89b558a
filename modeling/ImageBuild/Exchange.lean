import ImageBuild.Channel
import ImageBuild.Session

/-!
# Exchanges

An exchange is a build request with its response. The session reads the
upload and sends frames into the channel, and the client takes frames out of
it. The head of the response is out once a frame is ready for the client or
the session is done. When the time that a build may take is over, the request
is cancelled, and the build is left to end by itself.
-/

namespace ImageBuild

/-- A build request with its response. -/
structure Exchange (ι : Type) where
  /-- what is done for the request, until it is done -/
  session : Option (Session ι)
  source : Option Source
  writer : Writer Channel
  token : Token
  /-- when the request is cancelled -/
  deadline : Option Nat
  /-- the frames that the client has taken -/
  delivered : Array Frame := #[]

namespace Exchange

variable {ι σ : Type}

def channel (e : Exchange ι) : Channel := e.writer.sink

def withChannel (e : Exchange ι) (c : Channel) : Exchange ι :=
  { e with writer := { e.writer with sink := c } }

def hasHead (e : Exchange ι) : Bool := e.session.isNone || e.channel.gate.isCommitted

def desk (e : Exchange ι) (w : Workshop σ) : Desk σ Channel := ⟨w, e.source, e.writer⟩

/-- The exchange with the desk as the session has left it. -/
def leave (e : Exchange ι) (d : Desk σ Channel) (session : Option (Session ι)) : Exchange ι :=
  { e with session, source := d.source, writer := d.writer }

def deliver? (e : Exchange ι) : Option (Exchange ι) :=
  match e.channel.receive with
  | (.frame f, c) => some { e.withChannel c with delivered := e.delivered.push f }
  | _ => none

def waiting (e : Exchange ι) : Nat := e.channel.gate.held.length + e.channel.queue.length

theorem of_deliver? {e e' : Exchange ι} (h : e.deliver? = some e') :
    e'.session = e.session ∧ e'.source = e.source ∧ e'.waiting < e.waiting := by
  unfold deliver? at h
  split at h
  · next f c hr =>
    simp only [Option.some.injEq] at h
    subst h
    refine ⟨rfl, rfl, ?_⟩
    have := Channel.length_receive hr
    exact this
  · cases h

variable [Engine ι σ]

/-- Goes one step further: the session makes a move or, when it waits or is
done, the client takes a frame. There is no step when both wait. -/
def step? (e : Exchange ι) (w : Workshop σ) : Option (Exchange ι × Workshop σ) :=
  match e.session with
  | none => e.deliver?.map fun e => (e, w)
  | some s =>
    match s.move (e.desk w) with
    | (.go s', d) => some (e.leave d (some s'), d.toWorkshop)
    | (.stop _, d) =>
      let e := e.leave d none
      some (e.withChannel e.channel.close, d.toWorkshop)
    | (.wait, _) => e.deliver?.map fun e => (e, w)

def work (e : Exchange ι) (w : Workshop σ) : Work :=
  match e.session with
  | none => ⟨0, 0, 0⟩
  | some s =>
    let left := s.work (e.desk w)
    { left with rank := left.rank + 1 }

theorem less_of_step? {e e' : Exchange ι} {w w' : Workshop σ} (h : e.step? w = some (e', w')) :
    Prod.Lex Work.Less (· < ·) (e'.work w', e'.waiting) (e.work w, e.waiting) := by
  have delivered (hd : e.deliver?.map (fun e => (e, w)) = some (e', w')) :
      Prod.Lex Work.Less (· < ·) (e'.work w', e'.waiting) (e.work w, e.waiting) := by
    obtain ⟨e'', hd', he⟩ := Option.map_eq_some_iff.1 hd
    simp only [Prod.mk.injEq] at he
    obtain ⟨rfl, rfl⟩ := he
    obtain ⟨h1, h2, h3⟩ := of_deliver? hd'
    have : e''.work w = e.work w := by
      unfold work
      rw [h1]
      cases e.session with
      | none => rfl
      | some s => simp [Session.work, desk, Desk.items, h2]
    rw [this]
    exact .right _ h3
  unfold step? at h
  split at h
  · exact delivered h
  · next s hs =>
    split at h
    · next hm =>
      simp only [Option.some.injEq, Prod.mk.injEq] at h
      obtain ⟨rfl, rfl⟩ := h
      refine .left _ _ ?_
      have := Work.less_raise (Session.less_of_move hm) 1
      simpa [work, hs, leave, desk, Session.work, Desk.items] using this
    · simp only [Option.some.injEq, Prod.mk.injEq] at h
      obtain ⟨rfl, rfl⟩ := h
      refine .left _ _ ?_
      simp only [work, hs, leave, withChannel]
      exact Work.less_of_rank (Nat.zero_le _) (Nat.succ_pos _)
    · exact delivered h

/-- Goes on until there is no step. -/
def settle (e : Exchange ι) (w : Workshop σ) : Exchange ι × Workshop σ :=
  match _h : e.step? w with
  | none => (e, w)
  | some (e', w') => settle e' w'
termination_by (⟨e.work w, e.waiting⟩ : Work × Nat)
decreasing_by exact less_of_step? _h

/-- Cancels the request when its time is over. -/
def expire (e : Exchange ι) (now : Nat) (w : Workshop σ) : Exchange ι × Workshop σ :=
  match e.deadline with
  | none => (e, w)
  | some t =>
    if now < t then (e, w)
    else ({ e with deadline := none }, { w with tokens := w.tokens.cancel e.token })

def feed (e : Exchange ι) (items : List Upload.Item) : Exchange ι :=
  { e with source := e.source.map (·.feed items) }

def endUpload (e : Exchange ι) : Exchange ι := { e with source := e.source.map (·.close) }

/-- The client goes away: the build is given up where it is. -/
def disconnect (e : Exchange ι) (w : Workshop σ) : Workshop σ :=
  { store :=
      match e.session with
      | some (.building job) => Engine.abandon job w.store
      | _ => w.store
    tokens := w.tokens.cancel e.token }

end Exchange
end ImageBuild
