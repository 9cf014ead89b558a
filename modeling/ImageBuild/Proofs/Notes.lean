import ImageBuild.Proofs.Attendance
import ImageBuild.Proofs.Records

/-!
# Receptions that are watched

A sink over which notes are taken (`Noted`) answers as before, and the frames that
it takes and the reasons for which it refuses one are written down. A watched
reception (`Reception.watch`) is one where notes are taken of every build from its
arrival on; what happens at the other end of a sink does not change the notes. A
build cannot tell that it is watched (`forget_watch`).
-/

namespace ImageBuild

/-- What became of the frames of a build. -/
structure Notes where
  taken : List Frame := []
  refused : List SinkError := []

def Notes.add (n : Notes) (f : Frame) : Sent → Notes
  | .accepted => { n with taken := n.taken ++ [f] }
  | .blocked => n
  | .failed e => { n with refused := n.refused ++ [e] }

/-- A sink over which notes are taken. -/
structure Noted (τ : Type) where
  sink : τ
  notes : Notes := {}

namespace Noted

variable {τ : Type} [Sink τ]

def send (s : Noted τ) (f : Frame) : Sent × Noted τ :=
  let (sent, sink) := Sink.send s.sink f
  (sent, ⟨sink, s.notes.add f sent⟩)

instance : Sink (Noted τ) where
  send := send
  enableDuplex s :=
    let (answer, sink) := Sink.enableDuplex s.sink
    (answer, { s with sink })
  uploadDone s := { s with sink := Sink.uploadDone s.sink }

end Noted

namespace Writer

variable {τ : Type}

/-- A writer over which notes are taken from now on. Nothing is kept yet. -/
def noting (w : Writer τ) : Writer (Noted τ) := ⟨{ sink := w.sink }, w.kept.map fun _ => #[]⟩

/-- What became of the frames that were written. Those of a quiet build are kept,
and never refused. -/
def notes (w : Writer (Noted τ)) : Notes :=
  match w.kept with
  | some fs => { w.sink.notes with taken := fs.toList }
  | none => w.sink.notes

@[simp] theorem notes_noting (w : Writer τ) : w.noting.notes = {} := by
  obtain ⟨sink, kept⟩ := w
  cases kept <;> rfl

theorem notes_respond (w : Writer (Noted τ)) {s : Noted τ} (h : s.notes = w.sink.notes) :
    Writer.notes { w with sink := s } = w.notes := by
  simp only [notes, h]

variable [Sink τ]

theorem notes_uploadDone (w : Writer (Noted τ)) :
    Writer.notes { w with sink := Sink.uploadDone w.sink } = w.notes :=
  notes_respond w rfl

/-- **A write** is noted. -/
theorem notes_write (w : Writer (Noted τ)) {f : Frame} (hf : f ≠ []) :
    (w.write f).2.notes = w.notes.add f (w.write f).1 := by
  have hf : f.isEmpty = false := by simpa using hf
  unfold write
  simp only [hf, Bool.false_eq_true, if_false]
  cases hk : w.kept with
  | some fs => simp only [notes, hk, Notes.add, Array.toList_push]
  | none => simp only [notes, hk]; rfl

end Writer

namespace Desk

variable {σ τ ι ρ : Type} [Sink τ]

theorem notes_take (d : Desk σ (Noted τ)) (s : Source) :
    (d.take s).2.writer.notes = d.writer.notes := by
  unfold take
  split
  · exact d.writer.notes_uploadDone
  · rfl

theorem notes_dropSource (d : Desk σ (Noted τ)) : d.dropSource.writer.notes = d.writer.notes := by
  unfold dropSource
  split
  · rfl
  · exact d.writer.notes_uploadDone

theorem noted_offer (d : Desk σ (Noted τ)) {f : Frame} (hf : f ≠ []) (next : ι)
    (failed : SinkError → Move ι ρ) :
    (∃ d', d.offer f next failed = (.go next, d') ∧ d'.toWorkshop = d.toWorkshop ∧
      d'.source = d.source ∧ d'.writer.notes = d.writer.notes.add f .accepted) ∨
    (∃ d', d.offer f next failed = (.wait, d') ∧ d'.toWorkshop = d.toWorkshop ∧
      d'.source = d.source ∧ d'.writer.notes = d.writer.notes) ∨
    (∃ e d', d.offer f next failed = (failed e, d') ∧ d'.toWorkshop = d.toWorkshop ∧
      d'.source = d.source ∧ d'.writer.notes = d.writer.notes.add f (.failed e)) := by
  have notes : (d.write f).2.writer.notes = d.writer.notes.add f (d.write f).1 :=
    d.writer.notes_write hf
  rcases d.offer_cases f next failed with ⟨sent, h⟩ | ⟨sent, h⟩ | ⟨e, sent, h⟩ <;>
    rw [sent] at notes
  · exact .inl ⟨_, h, rfl, rfl, notes⟩
  · exact .inr (.inl ⟨_, h, rfl, rfl, notes⟩)
  · exact .inr (.inr ⟨e, _, h, rfl, rfl, notes⟩)

end Desk

namespace ContextEngine

variable {τ : Type}

namespace Reception

/-- An event as it happens at a watched reception. -/
def noting (z : Reception (Noted τ)) : ReceptionEvent τ → ReceptionEvent (Noted τ)
  | .request version => .request version
  | .branch k => .branch k
  | .arrive k options upload writer => .arrive k options upload writer.noting
  | .move i => .move i
  | .giveUp i => .giveUp i
  | .feed i items => .feed i items
  | .complete i => .complete i
  | .respond i sink =>
    .respond i ⟨sink, ((z.floor.seats[i]?).map (·.writer.sink.notes)).getD {}⟩
  | .cancel token => .cancel token
  | .cancelId id => .cancelId id
  | .strike o => .strike o
  | .sweep i => .sweep i
  | .disk fault => .disk fault

theorem writer_of_noting {z : Reception (Noted τ)} {e : ReceptionEvent τ} {k : Nat}
    {options : BuildOptions} {upload : Option Upload} {writer : Writer (Noted τ)}
    (h : z.noting e = .arrive k options upload writer) : ∃ w : Writer τ, writer = w.noting := by
  cases e <;> cases h
  exact ⟨_, rfl⟩

theorem notes_of_noting {z : Reception (Noted τ)} {e : ReceptionEvent τ} {i : Nat}
    {sink : Noted τ} (h : z.noting e = .respond i sink) {seat : Seat (Noted τ)}
    (hs : z.floor.seats[i]? = some seat) : sink.notes = seat.writer.sink.notes := by
  cases e <;> cases h
  simp only [hs, Option.map_some, Option.getD_some]

variable [Sink τ]

def watch (events : List (ReceptionEvent τ)) : Reception (Noted τ) :=
  events.foldl (fun z e => z.step (z.noting e)) {}

theorem watch_snoc (events : List (ReceptionEvent τ)) (e : ReceptionEvent τ) :
    watch (events ++ [e]) = (watch events).step ((watch events).noting e) := by
  simp [watch]

theorem exists_run_of_watch (events : List (ReceptionEvent τ)) :
    ∃ noted, watch events = ({} : Reception (Noted τ)).run noted := by
  induction events using List.reverseRecOn with
  | nil => exact ⟨[], rfl⟩
  | append_singleton events e ih =>
    obtain ⟨noted, h⟩ := ih
    refine ⟨noted ++ [(watch events).noting e], ?_⟩
    rw [watch_snoc, Reception.run_snoc, ← h]

theorem recorded_watch (events : List (ReceptionEvent τ)) : Recorded (watch events) := by
  obtain ⟨noted, h⟩ := exists_run_of_watch events
  exact h ▸ Recorded.run noted

end Reception
end ContextEngine

/-! ## Nobody can tell -/

/-- The writer below the notes. -/
def Writer.forget {τ : Type} (w : Writer (Noted τ)) : Writer τ := ⟨w.sink.sink, w.kept⟩

namespace Desk

variable {σ τ ι ρ : Type}

def forget (d : Desk σ (Noted τ)) : Desk σ τ := ⟨d.toWorkshop, d.source, d.writer.forget⟩

variable [Sink τ]

theorem forget_write (d : Desk σ (Noted τ)) (f : Frame) :
    Prod.map id forget (d.write f) = d.forget.write f := by
  obtain ⟨w, source, sink, kept⟩ := d
  simp only [write, Writer.write, forget, Writer.forget]
  split
  · rfl
  · cases kept <;> rfl

theorem forget_offer (d : Desk σ (Noted τ)) (f : Frame) (next : ι) (failed : SinkError → Move ι ρ) :
    Prod.map id forget (d.offer f next failed) = d.forget.offer f next failed := by
  unfold offer
  rw [← d.forget_write f]
  rcases d.write f with ⟨sent, d'⟩
  cases sent <;> rfl

theorem forget_take (d : Desk σ (Noted τ)) (s : Source) :
    Prod.map id forget (d.take s) = d.forget.take s := by
  simp only [take, Prod.map_apply, id_eq, Prod.mk.injEq, true_and]
  split <;> rfl

theorem forget_dropSource (d : Desk σ (Noted τ)) : d.dropSource.forget = d.forget.dropSource := by
  obtain ⟨w, source, writer⟩ := d
  cases source <;> rfl

end Desk

namespace ContextEngine

variable {τ : Type} [Sink τ]

theorem forget_receive (token : Token) (file threshold : Nat) (d : Desk Store (Noted τ)) :
    Prod.map id Desk.forget (receive token file threshold d) =
      receive token file threshold d.forget := by
  have tokens : d.forget.tokens = d.tokens := rfl
  have source : d.forget.source = d.source := rfl
  unfold receive
  rw [tokens, source]
  split
  · rfl
  · split
    · rfl
    · next s _ =>
      rw [← d.forget_take s]
      rcases d.take s with ⟨polled, d'⟩
      cases polled <;> rfl

theorem Phase.forget_move (token : Token) (o : BuildOptions) (p : Phase)
    (d : Desk Store (Noted τ)) :
    Prod.map id Desk.forget (p.move token o d) = p.move token o d.forget := by
  cases p with
  | receiving file threshold => exact forget_receive token file threshold d
  | reporting | totalling | noting => exact d.forget_offer ..
  | looking file =>
    have drop := d.forget_dropSource
    simp only [Phase.move, ← drop]
    show _ = if o.noCache then _ else _
    split <;> rfl
  | telling c isKnown steps id =>
    cases steps with
    | nil => rfl
    | cons step rest =>
      cases step with
      | check => rfl
      | line text => exact d.forget_offer ..
  | _ => rfl

omit [Sink τ] in
theorem arrive_eq (context : Context) (o : BuildOptions) (d : Desk Store τ) :
    arrive context o d =
      match d.source, d.store.register o.buildId (d.tokens.child context.token).1 with
      | none, _ => (.stop (.error .missingContext), d)
      | some _, .error e =>
        (.stop (.error e), d.inWorkshop ⟨d.store, (d.tokens.child context.token).2⟩)
      | some _, .ok store =>
        (.go (.running (d.tokens.child context.token).1 o .opening),
          d.inWorkshop ⟨store, (d.tokens.child context.token).2⟩) := by
  unfold arrive
  cases d.source with
  | none => rfl
  | some s =>
    have store : (d.inWorkshop ⟨d.store, (d.tokens.child context.token).2⟩).store = d.store := rfl
    simp only [store]
    cases d.store.register o.buildId (d.tokens.child context.token).1 <;> rfl

/-- **A build cannot tell** that notes are taken. -/
theorem Job.forget_move (j : Job) (d : Desk Store (Noted τ)) :
    Prod.map id Desk.forget (j.move d) = j.move d.forget := by
  cases j with
  | arriving context o =>
    have workshop : d.forget.toWorkshop = d.toWorkshop := rfl
    have source : d.forget.source = d.source := rfl
    simp only [Job.move, arrive_eq, workshop, source]
    split <;> rfl
  | running token o p =>
    have phase := p.forget_move token o d
    simp only [Job.move, ← phase]
    rcases p.move token o d with ⟨m, d'⟩
    cases m <;> rfl

def Seat.forget (seat : Seat (Noted τ)) : Seat τ := ⟨seat.job, seat.source, seat.writer.forget⟩

namespace Floor

def forget (y : Floor (Noted τ)) : Floor τ :=
  ⟨y.workshop, y.seats.map Seat.forget, y.doomed, y.stranded, y.abandoned⟩

omit [Sink τ] in
theorem getElem?_forget (y : Floor (Noted τ)) (i : Nat) :
    y.forget.seats[i]? = (y.seats[i]?).map Seat.forget := by
  simp only [forget, List.getElem?_map]

theorem job_move_forget (y : Floor (Noted τ)) (seat : Seat (Noted τ)) :
    seat.forget.job.move (y.forget.desk seat.forget) =
      Prod.map id Desk.forget (seat.job.move (y.desk seat)) :=
  (seat.job.forget_move (y.desk seat)).symm

theorem forget_move (y : Floor (Noted τ)) (i : Nat) : (y.move i).forget = y.forget.move i := by
  unfold move
  rw [getElem?_forget]
  cases y.seats[i]? with
  | none => rfl
  | some seat =>
    simp only [Option.map_some]
    rw [job_move_forget]
    rcases seat.job.move (y.desk seat) with ⟨m, d⟩
    cases m with
    | go job => simp only [Prod.map_apply, id_eq, forget, List.map_set]; rfl
    | wait => simp only [Prod.map_apply, id_eq, forget, List.map_set]; rfl
    | stop result => simp only [Prod.map_apply, id_eq, forget, List.eraseIdx_map]; rfl

theorem forget_stops (y : Floor (Noted τ)) (i : Nat) : y.forget.stops i = y.stops i := by
  unfold stops
  rw [getElem?_forget]
  cases y.seats[i]? with
  | none => rfl
  | some seat =>
    simp only [Option.map_some]
    rw [job_move_forget]
    rcases seat.job.move (y.desk seat) with ⟨m, d⟩
    cases m <;> rfl

omit [Sink τ] in
theorem forget_fault? (y : Floor (Noted τ)) (i : Nat) : y.forget.fault? i = y.fault? i := by
  unfold fault?
  rw [getElem?_forget]
  cases y.seats[i]? <;> rfl

omit [Sink τ] in
theorem forget_giveUp (y : Floor (Noted τ)) (i : Nat) :
    (y.giveUp i).forget = y.forget.giveUp i := by
  unfold giveUp
  rw [getElem?_forget]
  cases y.seats[i]? with
  | none => rfl
  | some seat => simp only [Option.map_some, forget, List.eraseIdx_map]; rfl

omit [Sink τ] in
theorem forget_change (y : Floor (Noted τ)) (i : Nat) {f : Seat (Noted τ) → Seat (Noted τ)}
    {g : Seat τ → Seat τ} (h : ∀ seat, (f seat).forget = g seat.forget) :
    (y.change i f).forget = y.forget.change i g := by
  have seats : (y.seats.modify i f).map Seat.forget = (y.seats.map Seat.forget).modify i g := by
    refine List.ext_getElem? fun j => ?_
    simp only [List.getElem?_map, List.getElem?_modify]
    cases y.seats[j]? with
    | none => rfl
    | some seat =>
      by_cases hij : i = j
      · simp only [hij, if_true]
        exact congrArg some (h seat)
      · simp only [hij, if_false]
        rfl
  simp only [change, forget, seats]

omit [Sink τ] in
theorem forget_source (y : Floor (Noted τ)) (i : Nat) (f : Source → Source) :
    (y.change i fun seat => { seat with source := seat.source.map f }).forget =
      y.forget.change i fun seat => { seat with source := seat.source.map f } :=
  y.forget_change i fun _ => rfl

end Floor

/-- An event whose build has told nothing yet when it arrives. -/
def ReceptionEvent.fresh : ReceptionEvent τ → ReceptionEvent τ
  | .arrive k options upload writer =>
    .arrive k options upload { writer with kept := writer.kept.map fun _ => #[] }
  | e => e

namespace Reception

def forget (z : Reception (Noted τ)) : Reception τ :=
  ⟨z.floor.forget, z.contexts, z.present, z.past⟩

theorem forget_step (z : Reception (Noted τ)) (e : ReceptionEvent τ) :
    (z.step (z.noting e)).forget = z.forget.step e.fresh := by
  cases e with
  | branch k =>
    simp only [noting, step, ReceptionEvent.fresh, forget]
    split <;> rfl
  | arrive k options upload writer =>
    simp only [noting, step, ReceptionEvent.fresh, forget]
    split
    · rfl
    · simp only [Floor.step, Floor.forget, List.map_append]
      rfl
  | move i =>
    simp only [noting, step, ReceptionEvent.fresh, forget, Floor.forget_stops]
    split
    · simp only [leave, Floor.forget_move]
    · simp only [Floor.forget_move, Floor.forget_fault?]
  | giveUp i =>
    simp only [noting, step, ReceptionEvent.fresh, forget, leave, Floor.forget_giveUp]
  | feed i items =>
    have fed := z.floor.forget_source i (·.feed items)
    have present : z.forget.present = z.present := rfl
    simp only [noting, step, ReceptionEvent.fresh, Floor.step]
    rw [present]
    split
    · simp only [forget, fed]
    · rfl
  | complete i =>
    have completed := z.floor.forget_source i (·.close)
    simp only [noting, step, ReceptionEvent.fresh, forget, Floor.step, completed]
  | respond i sink =>
    simp only [noting, step, ReceptionEvent.fresh, forget, Floor.step]
    rw [Floor.forget_change]
    exact fun _ => rfl
  | sweep i =>
    simp only [noting, step, ReceptionEvent.fresh, forget, Floor.step, Floor.forget]
    split <;> rfl
  | _ => rfl

/-- **A watched reception** goes as one that is not watched. -/
theorem forget_watch (events : List (ReceptionEvent τ)) :
    (watch events).forget = ({} : Reception τ).run (events.map .fresh) := by
  induction events using List.reverseRecOn with
  | nil => rfl
  | append_singleton events e ih =>
    rw [watch_snoc, forget_step, ih, List.map_append, List.map_singleton, run_snoc]

end Reception
end ContextEngine
end ImageBuild
