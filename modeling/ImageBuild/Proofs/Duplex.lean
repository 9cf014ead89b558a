import ImageBuild.Proofs.Tape
import ImageBuild.Proofs.Traffic

/-!
# Full duplex and half duplex

An exchange that nobody interrupts takes turns: the session moves, the client
takes a frame, more of the upload arrives. Its session plays what the same
session would play with all of the upload before it and a sink that takes every
frame (`Plays`), in either mode and however the turns are taken. So what the
client has at the end depends on the mode only in what the gate dropped of the
frames that came before the upload was over (`half_duplex_run`).
-/

namespace ImageBuild

/-- What happens next to an exchange that nobody interrupts. -/
inductive Turn where
  | move
  | deliver
  | feed (items : List Upload.Item)
  | complete

namespace Upload

def arrive (u : Upload) : Turn → Upload
  | .feed items => u.feed items
  | .complete => u.close
  | _ => u

/-- Whether nothing but these items arrives: they begin with what is there, and
there are no others once the upload is complete. -/
def IsPart (u : Upload) (items : List Item) : Prop :=
  u.items <+: items ∧ (u.isClosed = true → u.items = items)

instance (u : Upload) (items : List Item) : Decidable (u.IsPart items) :=
  inferInstanceAs (Decidable (_ ∧ _))

/-- **A schedule** of an upload, whose items arrive at any time between the turns. -/
def IsSchedule (items : List Item) (u : Upload) : List Turn → Prop
  | [] => u.IsPart items
  | t :: ts => u.IsPart items ∧ (u.arrive t).IsSchedule items ts

instance decidableIsSchedule (items : List Item) (u : Upload) :
    (ts : List Turn) → Decidable (u.IsSchedule items ts)
  | [] => inferInstanceAs (Decidable (u.IsPart items))
  | t :: ts =>
    have := decidableIsSchedule items (u.arrive t) ts
    inferInstanceAs (Decidable (_ ∧ _))

variable {u : Upload} {items : List Item} {ts more : List Turn}

theorem IsPart.exists_rest (h : u.IsPart items) :
    ∃ rest, u.items ++ rest = items ∧ (u.isClosed = true → rest = []) := by
  obtain ⟨⟨rest, rfl⟩, closed⟩ := h
  exact ⟨rest, rfl, fun hc => List.self_eq_append_right.1 (closed hc)⟩

theorem IsSchedule.isPart (h : u.IsSchedule items ts) : u.IsPart items := by
  cases ts with
  | nil => exact h
  | cons t ts => exact h.1

theorem IsSchedule.append (h : u.IsSchedule items ts)
    (hm : ∀ t ∈ more, t = .move ∨ t = .deliver) : u.IsSchedule items (ts ++ more) := by
  induction ts generalizing u with
  | nil =>
    show u.IsSchedule items more
    induction more with
    | nil => exact h
    | cons t more ih =>
      obtain ⟨ht, hmore⟩ := List.forall_mem_cons.1 hm
      refine ⟨h, ?_⟩
      rw [show u.arrive t = u by rcases ht with rfl | rfl <;> rfl]
      exact ih hmore
  | cons t ts ih => exact ⟨h.1, ih h.2⟩

end Upload

namespace Source

variable {items more : List Upload.Item} {a : Upload} {s t : Source}

theorem Ahead.feed (h : s.Ahead items a t) (part : (a.feed more).IsPart items) :
    (s.feed more).Ahead items (a.feed more) t := by
  obtain ⟨rest, hitems, hrest, -⟩ := h.rest
  obtain ⟨left, hleft, closed⟩ := part.exists_rest
  have split : rest = more ++ left := by
    rw [← hitems] at hleft
    simp only [Upload.feed, List.append_assoc, List.append_cancel_left_eq] at hleft
    exact hleft.symm
  subst split
  refine ⟨⟨left, hleft, ?_, closed⟩, h.isClosed, h.whole, h.bytesRead, h.isFinished⟩
  rw [← hrest]
  simp only [Source.feed, Upload.feed, List.append_assoc]

theorem Ahead.close (h : s.Ahead items a t) (part : a.close.IsPart items) :
    s.close.Ahead items a.close t := by
  obtain ⟨rest, hitems, hrest, -⟩ := h.rest
  obtain ⟨left, hleft, closed⟩ := part.exists_rest
  have same : rest = left := by
    rw [← hitems] at hleft
    exact (List.append_cancel_left hleft).symm
  subst same
  exact ⟨⟨rest, hitems, hrest, closed⟩, rfl, h.whole, h.bytesRead, h.isFinished⟩

end Source

namespace Session

variable {ι σ τ : Type} [Sink τ] [Engine ι σ] {s s' : Session ι} {d d' : Desk σ τ}

/-- A session that does not build any more has put its upload away. -/
def IsTidy (s : Session ι) (d : Desk σ τ) : Prop := (∃ j, s = .building j) ∨ d.source = none

theorem IsTidy.go (h : s.IsTidy d) (hm : s.move d = (.go s', d')) : s'.IsTidy d' := by
  cases s with
  | building j =>
    simp only [move] at hm
    split at hm
    · cases hm
      exact .inl ⟨_, rfl⟩
    · cases hm
    · cases hm
      exact .inr (Desk.dropSource_source _)
  | closing frames =>
    rcases h with ⟨j, hj⟩ | h
    · cases hj
    · cases frames with
      | nil => cases hm
      | cons f rest =>
        have source := d.write_source f
        simp only [move] at hm
        split at hm
        · next hw =>
          cases hm
          rw [hw] at source
          exact .inr (source.trans h)
        · cases hm
        · cases hm

theorem IsTidy.stop {result : Except SinkError Unit} (h : s.IsTidy d)
    (hm : s.move d = (.stop result, d')) : d'.source = none := by
  cases s with
  | building j =>
    simp only [move] at hm
    split at hm <;> cases hm
  | closing frames =>
    rcases h with ⟨j, hj⟩ | h
    · cases hj
    · cases frames with
      | nil =>
        cases hm
        exact h
      | cons f rest =>
        have source := d.write_source f
        simp only [move] at hm
        split at hm
        · cases hm
        · cases hm
        · next hw =>
          cases hm
          rw [hw] at source
          exact source.trans h

end Session

namespace Exchange

variable {ι σ : Type}

/-- Whether the upload has come to its end or was put away. -/
def isOver (e : Exchange ι) : Bool := ImageBuild.isOver e.source

/-- Whether the client has been told that there is no more. -/
def HasEnded (e : Exchange ι) : Prop := e.channel.receive.1 = .ended

instance (e : Exchange ι) : Decidable e.HasEnded := inferInstanceAs (Decidable (_ = _))

section Turns

variable [Engine ι σ]

def turn (x : Exchange ι × Workshop σ) : Turn → Exchange ι × Workshop σ
  | .move => x.1.move x.2
  | .deliver => (x.1.deliver?.getD x.1, x.2)
  | .feed items => (x.1.feed items, x.2)
  | .complete => (x.1.endUpload, x.2)

def turns (x : Exchange ι × Workshop σ) (ts : List Turn) : Exchange ι × Workshop σ :=
  ts.foldl turn x

/-- In full duplex, the number of frames that were sent before the upload was
over: those that the client has and those on the way, when it is over first. -/
def sentEarly (x : Exchange ι × Workshop σ) : List Turn → Nat
  | [] => x.1.delivered.size + x.1.waiting
  | t :: ts => if x.1.isOver then x.1.delivered.size + x.1.waiting else sentEarly (turn x t) ts

/-- The exchange that a request opens at a service that has just begun. -/
def opened? (settings : Settings) (w : Workshop σ) (r : HttpRequest) :
    Option (Exchange ι × Workshop σ) :=
  let s : Service ι σ := { settings, workshop := w }
  let s' := (s.accept r).2
  (s'.exchange? s.next).map (·, s'.workshop)

end Turns

theorem HasEnded.isOpen {e : Exchange ι} (h : e.HasEnded) : e.channel.isOpen = false := by
  unfold HasEnded at h
  rcases e.channel.receive_cases with ⟨f, rest, -, -, hr⟩ | ⟨f, rest, -, -, hr⟩ | ⟨-, -, hr⟩
  · rw [hr] at h
    cases h
  · rw [hr] at h
    cases h
  · rw [hr] at h
    cases ho : e.channel.isOpen with
    | false => rfl
    | true =>
      rw [ho] at h
      cases h

theorem hasEnded_iff {e : Exchange ι} (hh : e.channel.gate.isHolding = false) :
    e.HasEnded ↔ e.channel.onWay = [] ∧ e.channel.isOpen = false := by
  unfold HasEnded Channel.onWay
  rcases e.channel.receive_cases with ⟨f, rest, -, hg, hr⟩ | ⟨f, rest, -, hq, hr⟩ | ⟨hg, hq, hr⟩
  · simp [hr, hg]
  · simp [hr, hq]
  · have held : e.channel.gate.held = [] := by simpa [hh] using hg
    cases ho : e.channel.isOpen <;> simp [hr, hq, held, ho]

theorem onWay_of_deliver? {e : Exchange ι} (hh : e.channel.gate.isHolding = false)
    (hd : e.deliver? = none) : e.channel.onWay = [] := by
  unfold deliver? at hd
  unfold Channel.onWay
  rcases e.channel.receive_cases with ⟨f, rest, -, hg, hr⟩ | ⟨f, rest, -, hq, hr⟩ | ⟨hg, hq, hr⟩
  · simp [hr] at hd
  · simp [hr] at hd
  · have held : e.channel.gate.held = [] := by simpa [hh] using hg
    simp [held, hq]

/-! ## What a session plays -/

/-- **An exchange plays** what leads to the same end at a tape. -/
structure Plays [Engine ι σ] (n : Nat) (isDuplex : Bool) (items : List Upload.Item)
    (last : Session.Rest ι × Desk σ Tape) (a : Upload) (e : Exchange ι) (w : Workshop σ)
    (x : Desk σ Tape) : Prop where
  desks : Desk.Matches n isDuplex e.delivered.toList items a (e.desk w) x
  isOpen : e.channel.isOpen = e.session.isSome
  tidy : ∀ s, e.session = some s → s.IsTidy (e.desk w)
  /-- what is still to be played -/
  goes : ∀ s, e.session = some s → s.run x = last
  done : e.session = none → e.source = none ∧ ∃ result, last = (.done result, x)

namespace Plays

variable [Engine ι σ] {n : Nat} {isDuplex : Bool} {items : List Upload.Item}
  {last : Session.Rest ι × Desk σ Tape} {a : Upload} {e : Exchange ι} {w : Workshop σ}
  {x : Desk σ Tape}

theorem go (h : Plays n isDuplex items last a e w x) {s s' : Session ι} {d : Desk σ Channel}
    {x' : Desk σ Tape} (hs : e.session = some s) (hm : s.move (e.desk w) = (.go s', d))
    (hx : s.move x = (.go s', x')) (alike : Desk.Alike n isDuplex e.delivered.toList items a
      (e.desk w) x d x') : Plays n isDuplex items last a (e.leave d (some s')) d.toWorkshop x' := by
  refine ⟨alike.desks, ?_, ?_, ?_, ?_⟩
  · exact alike.isOpen.trans (h.isOpen.trans (by rw [hs]; rfl))
  · rintro _ ⟨⟩
    exact (h.tidy s hs).go hm
  · rintro _ ⟨⟩
    rw [← Session.run_go hx]
    exact h.goes s hs
  · rintro ⟨⟩

theorem stop (h : Plays n isDuplex items last a e w x) {s : Session ι} {d : Desk σ Channel}
    {x' : Desk σ Tape} {result : Except SinkError Unit} (hs : e.session = some s)
    (hm : s.move (e.desk w) = (.stop result, d)) (hx : s.move x = (.stop result, x'))
    (alike : Desk.Alike n isDuplex e.delivered.toList items a (e.desk w) x d x') :
    Plays n isDuplex items last a ((e.leave d none).withChannel d.writer.sink.close)
      d.toWorkshop x' := by
  have away := (h.tidy s hs).stop hm
  have isDone : x'.writer.sink.isDone = true := by
    rw [alike.desks.isDone, away]
    rfl
  refine ⟨⟨alike.desks.workshop, alike.desks.source, alike.desks.kept,
    alike.desks.carries.close isDone, alike.desks.isDone⟩, rfl, ?_, ?_, ?_⟩
  · rintro _ ⟨⟩
  · rintro _ ⟨⟩
  · intro _
    exact ⟨away, result, (h.goes s hs).symm.trans (Session.run_stop hx)⟩

/-- **A move** plays on, or nothing changes. -/
theorem move (oblivious : Engine.Oblivious ι) (h : Plays n isDuplex items last a e w x) :
    ∃ x', Plays n isDuplex items last a (e.move w).1 (e.move w).2 x' ∧
      x.writer.sink.Grows x'.writer.sink := by
  have stays (hm : e.move w = (e, w)) : ∃ x', Plays n isDuplex items last a (e.move w).1
      (e.move w).2 x' ∧ x.writer.sink.Grows x'.writer.sink := by
    rw [hm]
    exact ⟨x, h, .refl _⟩
  cases hs : e.session with
  | none => exact stays (move_none hs w)
  | some s =>
    rcases hm : s.move (e.desk w) with ⟨m, d⟩
    rcases hx : s.move x with ⟨m', x'⟩
    have step := h.desks.session_move oblivious s
    rw [hm, hx] at step
    rcases step with ⟨waits, -⟩ | ⟨same, alike⟩
    · cases waits
      exact stays (move_wait hs hm)
    · cases same
      cases m with
      | wait => exact stays (move_wait hs hm)
      | go s' =>
        rw [move_go hs hm]
        exact ⟨x', h.go hs hm hx alike, alike.grows⟩
      | stop result =>
        rw [move_stop hs hm]
        exact ⟨x', h.stop hs hm hx alike, alike.grows⟩

theorem deliver (h : Plays n isDuplex items last a e w x) {e' : Exchange ι}
    (hd : e.deliver? = some e') : Plays n isDuplex items last a e' w x := by
  obtain ⟨f, c, rfl, hr⟩ := deliver?_cases hd
  obtain ⟨carries, isOpen⟩ := h.desks.carries.receive hr
  refine ⟨⟨h.desks.workshop, h.desks.source, h.desks.kept, ?_, h.desks.isDone⟩,
    isOpen.trans h.isOpen, h.tidy, h.goes, h.done⟩
  show Carries n isDuplex (e.delivered.push f).toList c x.writer.sink
  rw [Array.toList_push]
  exact carries

theorem upload (h : Plays n isDuplex items last a e w x) {f : Source → Source} {a' : Upload}
    (ahead : ∀ s t : Source, s.Ahead items a t → (f s).Ahead items a' t)
    (finished : ∀ s, (f s).isFinished = s.isFinished) :
    Plays n isDuplex items last a' { e with source := e.source.map f } w x := by
  have source : Uploads items a' (e.source.map f) x.source := by
    rcases h.desks.source with ⟨hd, hx⟩ | ⟨s, t, hd, hx, hs⟩
    · exact .inl ⟨by rw [show e.source = none from hd]; rfl, hx⟩
    · exact .inr ⟨f s, t, by rw [show e.source = some s from hd]; rfl, hx, ahead s t hs⟩
  have unchanged : ImageBuild.isOver (e.source.map f) = ImageBuild.isOver e.source := by
    cases e.source with
    | none => rfl
    | some s => exact finished s
  refine ⟨⟨h.desks.workshop, source, h.desks.kept, h.desks.carries,
    h.desks.isDone.trans unchanged.symm⟩, h.isOpen, ?_, h.goes, ?_⟩
  · intro s hs
    rcases h.tidy s hs with building | away
    · exact .inl building
    · exact .inr (by simp [desk, show e.source = none from away])
  · intro hs
    obtain ⟨away, ended⟩ := h.done hs
    exact ⟨by simp [away], ended⟩

/-- **A turn** goes on with what is played. -/
theorem turn (oblivious : Engine.Oblivious ι) (h : Plays n isDuplex items last a e w x) {t : Turn}
    (part : (a.arrive t).IsPart items) :
    ∃ x', Plays n isDuplex items last (a.arrive t) (Exchange.turn (e, w) t).1
        (Exchange.turn (e, w) t).2 x' ∧ x.writer.sink.Grows x'.writer.sink := by
  cases t with
  | move => exact h.move oblivious
  | deliver =>
    refine ⟨x, ?_, .refl _⟩
    simp only [Exchange.turn]
    cases hd : e.deliver? with
    | none => exact h
    | some e' => exact h.deliver hd
  | feed items => exact ⟨x, h.upload (fun s t hs => hs.feed part) fun s => rfl, .refl _⟩
  | complete => exact ⟨x, h.upload (fun s t hs => hs.close part) fun s => rfl, .refl _⟩

omit [Engine ι σ] in
theorem waiting_eq (e : Exchange ι) : e.waiting = e.channel.onWay.length := by
  simp [waiting, Channel.onWay]

theorem sent (h : Plays n true items last a e w x) :
    e.delivered.size + e.waiting = x.writer.sink.early.length + x.writer.sink.late.length := by
  have frames := congrArg List.length h.desks.carries.frames
  simp only [List.length_append, if_true, Array.length_toList] at frames
  rw [waiting_eq]
  exact frames

/-- **A run** goes on with what is played, and what was sent before the upload
was over is not changed afterwards. -/
theorem turns (oblivious : Engine.Oblivious ι) (h : Plays n isDuplex items last a e w x)
    {ts : List Turn} (schedule : a.IsSchedule items ts) :
    ∃ x', Plays n isDuplex items last (ts.foldl Upload.arrive a) (Exchange.turns (e, w) ts).1
        (Exchange.turns (e, w) ts).2 x' ∧
      (x.writer.sink.isDone = true → x'.writer.sink.early = x.writer.sink.early) ∧
      (isDuplex = true → x.writer.sink.late = [] →
        sentEarly (e, w) ts = x'.writer.sink.early.length) := by
  induction ts generalizing a e w x with
  | nil =>
    refine ⟨x, h, fun _ => rfl, ?_⟩
    rintro rfl late
    have sent := h.sent
    rw [late] at sent
    exact sent
  | cons t ts ih =>
    obtain ⟨x₁, played, grows⟩ := h.turn oblivious schedule.2.isPart
    obtain ⟨x', playedAll, still, sent⟩ := ih played schedule.2
    have early (done : x.writer.sink.isDone = true) :
        x'.writer.sink.early = x.writer.sink.early :=
      (still (grows.early done).1).trans (grows.early done).2
    refine ⟨x', playedAll, early, ?_⟩
    rintro rfl late
    have isOver : e.isOver = x.writer.sink.isDone := h.desks.isDone.symm
    simp only [sentEarly, isOver]
    cases done : x.writer.sink.isDone with
    | true =>
      -- what is sent from now on is late
      have now := h.sent
      rw [late] at now
      rw [early done]
      exact now
    | false => exact sent rfl ((grows.late done).trans late)

/-! ## What is seen of it -/

/-- **Nothing is seen** in half duplex before the upload is over. -/
theorem silent (h : Plays n false items last a e w x) (early : e.isOver = false) :
    e.hasHead = false ∧ e.delivered = #[] := by
  have session : e.session.isNone = false := by
    cases hs : e.session with
    | some s => rfl
    | none =>
      rw [isOver, (h.done hs).1] at early
      cases early
  have holding : e.channel.gate.isHolding = true := by
    have isDone : x.writer.sink.isDone = false := h.desks.isDone.trans early
    have := h.desks.carries.isHolding
    rw [isDone] at this
    exact this
  obtain ⟨-, nothing, -, committed⟩ := h.desks.carries.holding holding
  have committed : e.channel.gate.isCommitted = false := committed
  exact ⟨by rw [hasHead, session, committed]; rfl, Array.toList_eq_nil_iff.1 nothing⟩

theorem released (h : Plays n isDuplex items last a e w x) (hs : e.session = none) :
    e.channel.gate.isHolding = false := by
  have isDone : x.writer.sink.isDone = true := by
    rw [h.desks.isDone, show (e.desk w).source = none from (h.done hs).1]
    rfl
  have holding := h.desks.carries.isHolding
  rw [isDone, Bool.not_true, Bool.and_false] at holding
  exact holding

/-- **At the end** everything was played, and the client has what was carried. -/
theorem ended (h : Plays n isDuplex items last a e w x) (he : e.HasEnded) :
    e.delivered.toList = (if isDuplex then x.writer.sink.early
        else Transmission.heldBack n x.writer.sink.early) ++ x.writer.sink.late ∧
      ∃ result, last = (.done result, x) := by
  have hs : e.session = none := by
    have := h.isOpen
    rw [he.isOpen] at this
    exact Option.isSome_eq_false_iff.1 this.symm |> Option.isNone_iff_eq_none.1
  have onWay := ((hasEnded_iff (h.released hs)).1 he).1
  have frames := h.desks.carries.frames
  rw [show (e.desk w).writer.sink.onWay = [] from onWay, List.append_nil] at frames
  exact ⟨frames, (h.done hs).2⟩

/-- **What can be played to its end** has ended when nothing moves any more. -/
theorem ends (oblivious : Engine.Oblivious ι) (h : Plays n isDuplex items last a e w x)
    (complete : a.isClosed = true) {result : Except SinkError Unit} {y : Desk σ Tape}
    (hlast : last = (.done result, y)) (rest : e.step? w = none) : e.HasEnded := by
  cases hs : e.session with
  | none =>
    have free := h.released hs
    have taken : e.deliver? = none := by simpa [step?, hs] using rest
    refine (hasEnded_iff free).2 ⟨onWay_of_deliver? free taken, ?_⟩
    rw [h.isOpen, hs]
    rfl
  | some s =>
    exfalso
    rcases hm : s.move (e.desk w) with ⟨m, d⟩
    rcases hx : s.move x with ⟨m', x'⟩
    have step := h.desks.session_move oblivious s
    rw [hm, hx] at step
    rcases step with ⟨waits, stuck⟩ | ⟨same, -⟩
    · -- the channel is full, so a frame could be taken
      cases waits
      have taken : e.deliver? = none := by simpa [step?, hs, hm] using rest
      rcases stuck with ⟨free, full⟩ | incomplete
      · exact full (List.append_eq_nil_iff.1 (onWay_of_deliver? free taken)).2
      · rw [complete] at incomplete
        cases incomplete
    · cases same
      cases m with
      | wait =>
        have goes := h.goes s hs
        rw [Session.run_wait hx, hlast] at goes
        cases goes
      | go | stop => simp [step?, hs, hm] at rest

end Plays

/-! ## The beginning -/

section Opening

variable [Engine ι σ]

/-- A desk with a tape, where all of an upload is there. -/
def tapeDesk (w : Workshop σ) (items : List Upload.Item) : Desk σ Tape :=
  { toWorkshop := w, source := some ⟨⟨items, true⟩, 0, false⟩, writer := ⟨{}, none⟩ }

def played (ι : Type) [Engine ι σ] (x : Context) (b : DecodedBuild) (w : Workshop σ)
    (items : List Upload.Item) : Session.Rest ι × Desk σ Tape :=
  let begun := Session.start (ι := ι) x b (tapeDesk w items)
  begun.1.run begun.2

theorem carries_start (n : Nat) (isDuplex : Bool) :
    Carries n isDuplex [] (Channel.new n isDuplex).hold.enableDuplex.2 {} := by
  cases isDuplex with
  | true => exact ⟨rfl, rfl, rfl, rfl, fun hh => (by cases hh), fun _ => rfl⟩
  | false => exact ⟨rfl, rfl, rfl, rfl, fun _ => ⟨rfl, rfl, rfl, rfl⟩, fun _ => rfl⟩

theorem opened (settings : Settings) (isDuplex : Bool) (w : Workshop σ) {r : HttpRequest}
    {segment : Option Octets} {version : Option String} {b : DecodedBuild} {u : Upload}
    (room : settings.progressBuffer ≤ Channel.maxCapacity)
    (route : Route.ofPath? r.uri.path = some (.build, segment)) (method : r.method = "POST")
    (wellFormed : segment.map decodeSegment? = version.map some)
    (decodes : (Policy.mk settings.defaultVersion settings.minVersion).decode
      ⟨version, r.uri, r.mediaTypes, true⟩ = .ok b)
    (body : r.body = some u) :
    let fresh := Context.fresh w.tokens settings.defaultVersion
    ∃ e w', opened? (ι := ι) { settings with fullDuplex := isDuplex } w r = some (e, w') ∧
      ∀ items, u.IsPart items → Plays settings.progressBuffer isDuplex items
        (played ι fresh.1 b ⟨w.store, fresh.2⟩ items) u e w'
        (Session.start (ι := ι) fresh.1 b (tapeDesk ⟨w.store, fresh.2⟩ items)).2 := by
  intro fresh
  let s : Service ι σ := { settings := { settings with fullDuplex := isDuplex }, workshop := w }
  let desk : Desk σ Channel :=
    { store := w.store, tokens := fresh.2, source := some ⟨u, 0, false⟩
      writer := ⟨(Channel.new settings.progressBuffer isDuplex).hold, none⟩ }
  let begun := Session.start (ι := ι) fresh.1 b desk
  let e : Exchange ι :=
    { session := some begun.1, source := begun.2.source, writer := begun.2.writer
      token := fresh.1.token, deadline := s.deadline }
  refine ⟨e, begun.2.toWorkshop, ?_, ?_⟩
  · have built : s.accept r = (.exchange 0, { s with
        workshop := begun.2.toWorkshop, next := 1, exchanges := [(0, e)] }) := by
      have decodes : s.policy.decode ⟨version, r.uri, r.mediaTypes, r.body.isSome⟩ = .ok b := by
        rw [body]
        exact decodes
      rw [s.accept_eq_build route method wellFormed, Service.build_of_hasRoom (s := s) room,
        decodes, body]
      rfl
    show ((s.accept r).2.exchange? 0).map (·, (s.accept r).2.workshop) = _
    rw [built]
    rfl
  · intro items part
    obtain ⟨rest, hitems, closed⟩ := part.exists_rest
    refine ⟨⟨rfl, .inr ⟨_, _, rfl, rfl, ?_⟩, rfl, ?_, rfl⟩, ?_, ?_, ?_, ?_⟩
    · exact ⟨⟨rest, hitems, hitems, closed⟩, rfl, rfl, rfl, rfl⟩
    · exact carries_start _ _
    · cases isDuplex <;> rfl
    · rintro _ ⟨⟩
      exact .inl ⟨_, rfl⟩
    · rintro _ ⟨⟩
      rfl
    · rintro ⟨⟩

theorem exists_turn {e e' : Exchange ι} {w w' : Workshop σ} (h : e.step? w = some (e', w')) :
    ∃ t : Turn, (t = .move ∨ t = .deliver) ∧ turn (e, w) t = (e', w') := by
  rcases step?_cases h with hmove | ⟨hdeliver, rfl⟩
  · exact ⟨.move, .inl rfl, hmove.symm⟩
  · refine ⟨.deliver, .inr rfl, ?_⟩
    show (e.deliver?.getD e, w') = _
    rw [hdeliver]
    rfl

/-- **To settle** is to take turns, without the upload, until there is none to
take. -/
theorem turns_settle (e : Exchange ι) (w : Workshop σ) :
    (e.settle w).1.step? (e.settle w).2 = none ∧
      ∃ ts, (∀ t ∈ ts, t = .move ∨ t = .deliver) ∧ turns (e, w) ts = e.settle w := by
  refine ⟨step?_settle e w, ?_⟩
  induction e, w using Exchange.settle.induct with
  | case1 e w hnone =>
    rw [settle_none hnone]
    exact ⟨[], by simp, rfl⟩
  | case2 e w e' w' hsome ih =>
    obtain ⟨ts, hts, settled⟩ := ih
    obtain ⟨t, ht, hstep⟩ := exists_turn hsome
    rw [settle_some hsome]
    refine ⟨t :: ts, List.forall_mem_cons.2 ⟨ht, hts⟩, ?_⟩
    rw [turns, List.foldl_cons, hstep]
    exact settled

/-- Whether neither the session nor the client can do anything. -/
def IsAtRest (x : Exchange ι × Workshop σ) : Prop := x.1.step? x.2 = none

end Opening

/-! ## The two modes -/

section Modes

variable [Engine ι σ]

/-- **Half duplex degrades timing, not content.** How runs in half duplex compare
with runs in full duplex, when the items of an upload arrive and `n` frames can
be held back. -/
structure Degrades (n : Nat) (u : Upload) (items : List Upload.Item)
    (full half : Exchange ι × Workshop σ) : Prop where
  /-- before the upload is over there is no response -/
  silent : ∀ {ts}, u.IsSchedule items ts → (turns half ts).1.isOver = false →
    (turns half ts).1.hasHead = false ∧ (turns half ts).1.delivered = #[]
  /-- of the frames that come before that, as many remain as can be held back,
  in their order, and the last one is among them -/
  content : ∀ {ts ts'}, u.IsSchedule items ts → u.IsSchedule items ts' →
    (turns full ts).1.HasEnded → (turns half ts').1.HasEnded →
    let all := (turns full ts).1.delivered.toList
    let k := sentEarly full ts
    k ≤ all.length ∧
      (k ≤ n → (turns half ts').1.delivered.toList = all) ∧
      (n < k → ∃ kept : List Frame, kept.Sublist (all.take k) ∧ kept.length = n ∧
        kept.getLast? = (all.take k).getLast? ∧
        (turns half ts').1.delivered.toList = kept ++ all.drop k)
  /-- when the response ends in one mode, it ends in the other -/
  ends : ∀ {x y}, x = full ∧ y = half ∨ x = half ∧ y = full →
    ∀ {ts ts'}, u.IsSchedule items ts → u.IsSchedule items ts' → (turns x ts).1.HasEnded →
    (ts'.foldl Upload.arrive u).isClosed = true → IsAtRest (turns y ts') →
    (turns y ts').1.HasEnded
  /-- every run comes to rest if it is let -/
  rests : ∀ {x}, x = full ∨ x = half → ∀ {ts}, u.IsSchedule items ts →
    ∃ more, u.IsSchedule items (ts ++ more) ∧ (∀ t ∈ more, t = .move ∨ t = .deliver) ∧
      IsAtRest (turns x (ts ++ more))

variable {n : Nat} {u : Upload} {items : List Upload.Item}
  {last : Session.Rest ι × Desk σ Tape} {x : Desk σ Tape} {full half : Exchange ι × Workshop σ}

theorem content_eq (oblivious : Engine.Oblivious ι)
    (plays : Plays n true items last u full.1 full.2 x)
    (plays' : Plays n false items last u half.1 half.2 x)
    (fresh : x.writer.sink.late = []) {ts ts' : List Turn} (schedule : u.IsSchedule items ts)
    (schedule' : u.IsSchedule items ts') (ended : (turns full ts).1.HasEnded)
    (ended' : (turns half ts').1.HasEnded) :
    ∃ early late, (turns full ts).1.delivered.toList = early ++ late ∧
      (turns half ts').1.delivered.toList = Transmission.heldBack n early ++ late ∧
      sentEarly full ts = early.length := by
  obtain ⟨y, played, -, sent⟩ := plays.turns oblivious schedule
  obtain ⟨y', played', -, -⟩ := plays'.turns oblivious schedule'
  obtain ⟨all, result, hlast⟩ := played.ended ended
  obtain ⟨all', result', hlast'⟩ := played'.ended ended'
  -- both have come to the same end
  have same : y' = y := by
    rw [hlast] at hlast'
    exact (Prod.mk.inj hlast').2.symm
  rw [same] at all'
  exact ⟨_, _, all, all', sent rfl fresh⟩

/-- The modes do not matter for whether a response ends. -/
theorem ends_of_plays (oblivious : Engine.Oblivious ι) {isDuplex isDuplex' : Bool}
    {y z : Exchange ι × Workshop σ} (plays : Plays n isDuplex items last u y.1 y.2 x)
    (plays' : Plays n isDuplex' items last u z.1 z.2 x) {ts ts' : List Turn}
    (schedule : u.IsSchedule items ts) (schedule' : u.IsSchedule items ts')
    (ended : (turns y ts).1.HasEnded) (complete : (ts'.foldl Upload.arrive u).isClosed = true)
    (rest : IsAtRest (turns z ts')) : (turns z ts').1.HasEnded := by
  obtain ⟨_, played, -, -⟩ := plays.turns oblivious schedule
  obtain ⟨_, played', -, -⟩ := plays'.turns oblivious schedule'
  obtain ⟨-, result, hlast⟩ := played.ended ended
  exact played'.ends oblivious complete hlast rest

theorem rests_of_turns (x : Exchange ι × Workshop σ) {ts : List Turn}
    (schedule : u.IsSchedule items ts) :
    ∃ more, u.IsSchedule items (ts ++ more) ∧ (∀ t ∈ more, t = .move ∨ t = .deliver) ∧
      IsAtRest (turns x (ts ++ more)) := by
  obtain ⟨rest, more, hmore, settled⟩ := turns_settle (turns x ts).1 (turns x ts).2
  refine ⟨more, schedule.append hmore, hmore, ?_⟩
  have run : turns x (ts ++ more) = (turns x ts).1.settle (turns x ts).2 := by
    rw [turns, List.foldl_append]
    exact settled
  rw [IsAtRest, run]
  exact rest

theorem Degrades.of_plays (oblivious : Engine.Oblivious ι)
    (plays : u.IsPart items → Plays n true items last u full.1 full.2 x)
    (plays' : u.IsPart items → Plays n false items last u half.1 half.2 x)
    (fresh : x.writer.sink.late = []) : Degrades (max n 1) u items full half := by
  constructor
  case silent =>
    intro ts schedule early
    obtain ⟨y, played, -, -⟩ := (plays' schedule.isPart).turns oblivious schedule
    exact played.silent early
  case content =>
    intro ts ts' schedule schedule' ended ended' all k
    obtain ⟨early, late, hall, hhalf, hk⟩ := content_eq oblivious (plays schedule.isPart)
      (plays' schedule.isPart) fresh schedule schedule' ended ended'
    have hall : all = early ++ late := hall
    have hk : k = early.length := hk
    rw [hall, hk, hhalf, List.length_append, List.take_left, List.drop_left]
    refine ⟨Nat.le_add_right _ _, ?_, ?_⟩
    · intro few
      rw [Transmission.heldBack_of_le few]
    · intro many
      refine ⟨_, Transmission.heldBack_sublist n early, ?_, Transmission.getLast?_heldBack n early,
        rfl⟩
      rw [Transmission.length_heldBack]
      omega
  case ends =>
    intro y z modes ts ts' schedule schedule' ended complete rest
    have part := schedule.isPart
    rcases modes with ⟨rfl, rfl⟩ | ⟨rfl, rfl⟩
    · exact ends_of_plays oblivious (plays part) (plays' part) schedule schedule' ended complete
        rest
    · exact ends_of_plays oblivious (plays' part) (plays part) schedule schedule' ended complete
        rest
  case rests =>
    intro y _ ts schedule
    exact rests_of_turns y schedule

end Modes

/-- **Half duplex degrades timing, not content,** for every engine that does not
look at the response, the context engine and the scripted ones among them: any
request to build with a body opens an exchange in either mode, if there is a channel
for it, and the one in half duplex is a degraded one. -/
theorem half_duplex_run :
    Engine.Oblivious ContextEngine.Job ∧ Engine.Oblivious ScriptedEngine.Job ∧
    ∀ {ι σ : Type} [Engine ι σ], Engine.Oblivious ι →
      ∀ (settings : Settings) (w : Workshop σ) (r : HttpRequest) {segment : Option Octets}
        {version : Option String} {b : DecodedBuild} {u : Upload},
      settings.progressBuffer ≤ Channel.maxCapacity →
      Route.ofPath? r.uri.path = some (.build, segment) → r.method = "POST" →
      segment.map decodeSegment? = version.map some →
      (Policy.mk settings.defaultVersion settings.minVersion).decode
        ⟨version, r.uri, r.mediaTypes, true⟩ = .ok b →
      r.body = some u →
      ∃ full half : Exchange ι × Workshop σ,
        opened? { settings with fullDuplex := true } w r = some full ∧
        opened? { settings with fullDuplex := false } w r = some half ∧
        ∀ items, Degrades (max settings.progressBuffer 1) u items full half := by
  refine ⟨ContextEngine.oblivious, ScriptedEngine.oblivious, ?_⟩
  intro ι σ _ oblivious settings w r segment version b u room route method wellFormed decodes body
  obtain ⟨e, v, hopen, plays⟩ :=
    opened (ι := ι) settings true w room route method wellFormed decodes body
  obtain ⟨e', v', hopen', plays'⟩ :=
    opened (ι := ι) settings false w room route method wellFormed decodes body
  exact ⟨(e, v), (e', v'), hopen, hopen', fun items =>
    .of_plays oblivious (plays items) (plays' items) rfl⟩

/-- Two frames come before the end of the upload, where one can be held back. -/
theorem half_duplex_run_scripted :
    let settings : Settings := { progressBuffer := 1 }
    let script : List ScriptedEngine.Action :=
      [.write [0x61], .write [0x62], .drain, .write [0x63]]
    let w : Workshop ScriptedEngine := ⟨{ script }, {}⟩
    let r : HttpRequest :=
      { uri := ⟨[0x2F, 0x62, 0x75, 0x69, 0x6C, 0x64], none⟩, body := some ⟨[], false⟩ }
    let items : List Upload.Item := [.chunk ⟨#[0x78]⟩]
    let ts : List Turn := [.move, .move, .feed items, .deliver, .move, .move, .complete] ++
      (List.replicate 8 [.move, .deliver]).flatten
    let told : Frame := (Message.imageId "done").frame
    Engine.Oblivious ScriptedEngine.Job ∧ (Upload.mk [] false).IsSchedule items ts ∧
    ∃ full half : Exchange ScriptedEngine.Job × Workshop ScriptedEngine,
      opened? { settings with fullDuplex := true } w r = some full ∧
      opened? { settings with fullDuplex := false } w r = some half ∧
      (turns full ts).1.HasEnded ∧ (turns half ts).1.HasEnded ∧ sentEarly full ts = 2 ∧
      (turns full ts).1.delivered = #[[0x61], [0x62], [0x63], told] ∧
      (turns half ts).1.delivered = #[[0x62], [0x63], told] ∧
      Degrades 1 ⟨[], false⟩ items full half := by
  intro settings script w r items ts told
  have decodes : (Policy.mk settings.defaultVersion settings.minVersion).decode
      ⟨none, r.uri, r.mediaTypes, true⟩ = .ok ⟨.newest, {}⟩ := rfl
  have wellFormed : (none : Option Octets).map decodeSegment? = (none : Option String).map some :=
    rfl
  obtain ⟨full, half, hfull, hhalf, degrades⟩ :=
    half_duplex_run.2.2 ScriptedEngine.oblivious settings w r (by decide) (by decide) rfl
      wellFormed decodes rfl
  have fast : (opened? (ι := ScriptedEngine.Job) { settings with fullDuplex := true } w r).any
      (fun x => (turns x ts).1.HasEnded ∧ sentEarly x ts = 2 ∧
        (turns x ts).1.delivered = #[[0x61], [0x62], [0x63], told]) = true := by
    decide
  have slow : (opened? (ι := ScriptedEngine.Job) { settings with fullDuplex := false } w r).any
      (fun x => (turns x ts).1.HasEnded ∧
        (turns x ts).1.delivered = #[[0x62], [0x63], told]) = true := by
    decide
  rw [hfull] at fast
  rw [hhalf] at slow
  obtain ⟨ended, early, all⟩ := of_decide_eq_true fast
  obtain ⟨ended', kept⟩ := of_decide_eq_true slow
  exact ⟨ScriptedEngine.oblivious, by decide, full, half, hfull, hhalf, ended, ended',
    early, all, kept, degrades items⟩

end Exchange
end ImageBuild
