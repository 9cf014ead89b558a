import ImageBuild.Proofs.Telling

/-!
# Builds that return

A build that is not cancelled, whose upload is complete and whose sink takes every
frame never waits, and every move leaves it less to do. So it returns after some
moves of its own, whatever went before it at the reception (`exists_return_of_admits`).
-/

namespace ImageBuild

/-- A sink that takes every frame, now and later. -/
def Obliging {τ : Type} [Sink τ] (s : τ) : Prop :=
  ∃ P : τ → Prop, P s ∧ ∀ t, P t → P (Sink.uploadDone t) ∧
    ∀ f, (Sink.send t f).1 = .accepted ∧ P (Sink.send t f).2

namespace Obliging

variable {τ : Type} [Sink τ] {s : τ}

theorem uploadDone (h : Obliging s) : Obliging (Sink.uploadDone s) := by
  obtain ⟨P, hs, all⟩ := h
  exact ⟨P, (all s hs).1, all⟩

theorem send (h : Obliging s) (f : Frame) :
    (Sink.send s f).1 = .accepted ∧ Obliging (Sink.send s f).2 := by
  obtain ⟨P, hs, all⟩ := h
  obtain ⟨sent, after⟩ := (all s hs).2 f
  exact ⟨sent, P, after, all⟩

theorem recorder {r : Recorder} (h : r.room = none) : Obliging r := by
  refine ⟨fun t => t.room = none, h, fun t ht => ⟨ht, fun f => ?_⟩⟩
  show (Recorder.send t f).1 = .accepted ∧ (Recorder.send t f).2.room = none
  simp only [Recorder.send, ht, and_self]

end Obliging

namespace ContextEngine

variable {τ : Type} [Sink τ]

/-- Whether a build goes on to where `P` holds, and does not wait. -/
def GoesOn (P : Phase → Desk Store (Noted τ) → Prop) :
    Move Phase (Except BuildError String) × Desk Store (Noted τ) → Prop
  | (.go q, d) => P q d
  | (.wait, _) => False
  | (.stop _, _) => True

section GoesOn

variable {P : Desk Store (Noted τ) → Prop} {token : Token} {d : Desk Store (Noted τ)}

theorem goesOn_offer {f : Frame} (write : (d.write f).1 ≠ .blocked ∧ P (d.write f).2)
    (next : Phase) (failed : SinkError → Phase) :
    GoesOn (fun _ => P) (d.offer f next fun e => .go (failed e)) := by
  obtain ⟨sent, after⟩ := write
  rcases d.offer_cases f next (fun e => (.go (failed e) : Move Phase (Except BuildError String)))
    with ⟨-, ho⟩ | ⟨blocked, -⟩ | ⟨e, -, ho⟩
  · rw [ho]
    exact after
  · exact absurd blocked sent
  · rw [ho]
    exact after

omit [Sink τ] in
theorem fault_conclude (o : BuildOptions) (c : ReceivedContext) (isKnown : Bool)
    (result : Except BuildError String) (s : Store) :
    (conclude o c isKnown result s).2.fault = s.fault := by
  rcases conclude_cases o c isKnown result s with
    ⟨-, h⟩ | ⟨id, -, -, -, -, h⟩ | ⟨id, -, -, -, -, h⟩ <;> rw [h]
  · exact Store.adopt_fault ..
  · exact Store.adopt_fault ..

omit [Sink τ] in
theorem goesOn_spool {α : Type} (withStore : ∀ s, s.fault = d.store.fault → P (d.withStore s))
    {a : α} {next : Except String α → Phase × Store}
    (done : (next (.ok a)).2.fault = d.store.fault)
    (failed : ∀ reason, (next (.error reason)).2.fault = d.store.fault) :
    GoesOn (fun _ => P) (spool d a next) := by
  rcases spool_cases d a next with ⟨-, h⟩ | ⟨reason, -, h⟩ <;> rw [h]
  · exact withStore _ done
  · exact withStore _ (failed reason)

/-- **A build never waits** if neither its sink nor its upload lets it wait. -/
theorem goesOn_move (write : ∀ d f, P d → (d.write f).1 ≠ .blocked ∧ P (d.write f).2)
    (withStore : ∀ d s, s.fault = d.store.fault → P d → P (d.withStore s))
    (dropSource : ∀ d, P d → P d.dropSource)
    (receive : ∀ d file threshold, P d →
      GoesOn (fun _ => P) (receive token file threshold d))
    (h : P d) (o : BuildOptions) (p : Phase) : GoesOn (fun _ => P) (p.move token o d) := by
  cases p with
  | opening =>
    unfold Phase.move
    exact goesOn_spool (fun s hs => withStore _ s hs h) rfl fun _ => rfl
  | receiving file threshold => exact receive _ _ _ h
  | writing file threshold data =>
    unfold Phase.move
    exact goesOn_spool (fun s hs => withStore _ s hs h) rfl fun _ => rfl
  | flushing =>
    unfold Phase.move
    exact goesOn_spool (fun s hs => withStore _ s hs h) rfl fun _ => rfl
  | reporting | totalling | noting => exact goesOn_offer (write _ _ h) ..
  | looking file =>
    simp only [Phase.move]
    split
    · exact dropSource _ h
    · exact withStore _ _ rfl (dropSource _ h)
  | inspecting => exact h
  | telling c isKnown steps id =>
    cases steps with
    | nil => exact h
    | cons step rest =>
      cases step with
      | check => exact h
      | line text => exact goesOn_offer (write _ _ h) ..
  | concluding c isKnown result =>
    exact withStore _ _ (fault_conclude o c isKnown result d.store) h
  | discarding => exact withStore _ _ rfl h
  | leaving => trivial

end GoesOn

/-- Nothing stands in the way of a build. -/
structure Unhindered (token : Token) (d : Desk Store (Noted τ)) : Prop where
  going : d.tokens.isCancelled token = false
  closed : ∀ s, d.source = some s → s.upload.isClosed = true
  obliging : Obliging d.writer.sink.sink
  refused : d.writer.sink.notes.refused = []
  disk : d.store.fault = none

namespace Unhindered

variable {token : Token} {d : Desk Store (Noted τ)}

theorem write (h : Unhindered token d) (f : Frame) :
    (d.write f).1 = .accepted ∧ Unhindered token (d.write f).2 := by
  obtain ⟨sent, after⟩ := h.obliging.send f
  obtain ⟨workshop, source, sink, kept⟩ := d
  simp only [Desk.write, Writer.write]
  split
  · exact ⟨rfl, h⟩
  · cases kept with
    | some fs => exact ⟨rfl, h.going, h.closed, h.obliging, h.refused, h.disk⟩
    | none =>
      refine ⟨sent, h.going, h.closed, after, ?_, h.disk⟩
      show (sink.notes.add f (Sink.send sink.sink f).1).refused = []
      rw [show (Sink.send sink.sink f).1 = .accepted from sent]
      exact h.refused

theorem take (h : Unhindered token d) {s : Source} (hs : d.source = some s) :
    (d.take s).1 ≠ .starved ∧ Unhindered token (d.take s).2 := by
  have closed := h.closed s hs
  have left (s' : Source) (hs' : some s.next.2 = some s') : s'.upload.isClosed = true := by
    cases hs'
    rw [Source.next_isClosed, closed]
  refine ⟨Source.next_ne_starved closed, ?_⟩
  unfold Desk.take
  split
  · exact ⟨h.going, left, h.obliging.uploadDone, h.refused, h.disk⟩
  · exact ⟨h.going, left, h.obliging, h.refused, h.disk⟩

theorem dropSource (h : Unhindered token d) : Unhindered token d.dropSource := by
  obtain ⟨workshop, source, writer⟩ := d
  cases source with
  | none => exact h
  | some s =>
    exact ⟨h.going, fun _ hs => (by cases hs), h.obliging.uploadDone, h.refused, h.disk⟩

theorem withStore (h : Unhindered token d) {s : Store} (same : s.fault = d.store.fault) :
    Unhindered token (d.withStore s) :=
  ⟨h.going, h.closed, h.obliging, h.refused, same.trans h.disk⟩

theorem receive (h : Unhindered token d) (file threshold : Nat) :
    GoesOn (fun _ => Unhindered token) (receive token file threshold d) := by
  unfold ContextEngine.receive
  split
  · exact h
  · split
    · exact h
    · next s hs =>
      obtain ⟨found, after⟩ := h.take hs
      rcases ht : d.take s with ⟨polled, d'⟩
      rw [ht] at found after
      cases polled with
      | starved => exact absurd rfl found
      | chunk | fault | paused | ended => exact after

/-- **A build that nothing stands in the way of** does not wait, and goes on like that. -/
theorem move (h : Unhindered token d) (o : BuildOptions) (p : Phase) :
    GoesOn (fun _ => Unhindered token) (p.move token o d) := by
  refine goesOn_move ?_ (fun _ _ same h => h.withStore same) (fun _ h => h.dropSource)
    (fun _ file threshold h => h.receive file threshold) h o p
  intro d f h
  obtain ⟨accepted, after⟩ := h.write f
  rw [accepted]
  exact ⟨nofun, after⟩

end Unhindered

/-! ## Moves of one build -/

/-- Whether a build returns as `x` that had these options and this content, that was not
cancelled, of which no frame was refused, and that the file system did not fail. -/
structure Reception.Returns (z : Reception (Noted τ)) (i : Nat) (o : BuildOptions)
    (content : ByteArray) (x : Return) : Prop where
  returns : z.return? i = some x
  options : x.options = o
  whole : x.upload.Whole content
  refused : x.notes.refused = []
  sound : x.faults = []
  going : z.tokens.isCancelled x.token = false

theorem watch_moves (events : List (ReceptionEvent τ)) (i n : Nat) :
    Reception.watch (events ++ List.replicate n (.move i)) =
      (Reception.watch events).run (List.replicate n (.move i)) := by
  induction n with
  | zero => simp [Reception.run]
  | succ n ih =>
    rw [List.replicate_succ', ← List.append_assoc, Reception.watch_snoc, ih,
      List.replicate_succ', Reception.run_snoc]
    rfl

theorem run_cons (z : Reception (Noted τ)) (e : ReceptionEvent (Noted τ))
    (events : List (ReceptionEvent (Noted τ))) : z.run (e :: events) = (z.step e).run events := rfl

theorem Reception.step_go {z : Reception (Noted τ)} {i : Nat} {seat : Seat (Noted τ)} {v : Visit}
    {job : Job} {d : Desk Store (Noted τ)} (hs : z.floor.seats[i]? = some seat)
    (hv : z.present[i]? = some v) (moved : seat.job.move (z.floor.desk seat) = (.go job, d)) :
    (z.step (.move i)).floor.seats[i]? = some ⟨job, d.source, d.writer⟩ ∧
      (z.step (.move i)).present[i]? = some (v.suffer (seat.job.fault? z.store)) ∧
      (z.step (.move i)).floor.desk ⟨job, d.source, d.writer⟩ = d := by
  obtain ⟨stays, seats⟩ := Floor.move_go hs moved
  have fault : z.floor.fault? i = seat.job.fault? z.store := by
    simp only [Floor.fault?, hs]
    rfl
  have workshop : (z.floor.move i).workshop = d.toWorkshop := by
    rw [Floor.move_workshop hs, moved]
  have lt := (List.getElem?_eq_some_iff.1 hs).1
  rw [Reception.step_move_stays stays, fault]
  refine ⟨by simp only [seats, List.getElem?_set_self lt], ?_, by simp only [Floor.desk, workshop]⟩
  rw [List.getElem?_modify_eq, hv]
  rfl

/-- **A build comes to its end** by its own moves if it never waits. If the file system never
fails it, it has heard of no further faults then. -/
theorem exists_return_of_goesOn {P : Phase → Desk Store (Noted τ) → Prop} {token : Token}
    {o : BuildOptions} (moves : ∀ p d, P p d → GoesOn P (p.move token o d))
    {z : Reception (Noted τ)} {i : Nat} {seat : Seat (Noted τ)} {v : Visit} {u : Upload} {p : Phase}
    (hs : z.floor.seats[i]? = some seat) (hv : z.present[i]? = some v) (hu : v.upload = some u)
    (hj : seat.job = .running token o p) (h : P p (z.floor.desk seat)) :
    ∃ n x q d, (z.run (List.replicate n (.move i))).return? i = some x ∧ x.token = token ∧
      x.options = o ∧ x.upload = u ∧ P q d ∧
      d.tokens = (z.run (List.replicate n (.move i))).tokens ∧ x.notes = d.writer.notes ∧
      ((∀ p d, P p d → d.store.fault = none) → x.faults = v.faults) := by
  have goes := moves p _ h
  match hp : p.move token o (z.floor.desk seat) with
  | (.wait, d) =>
    rw [hp] at goes
    exact goes.elim
  | (.stop result, d) =>
    refine ⟨0, ⟨token, o, u, seat.writer.notes, v.faults, result⟩, p, z.floor.desk seat, ?_, rfl,
      rfl, rfl, h, rfl, rfl, fun _ => rfl⟩
    show z.return? i = _
    simp only [Reception.return?, hs, hv, hj, hu, Job.move, hp]
  | (.go q, d) =>
    rw [hp] at goes
    have moved : seat.job.move (z.floor.desk seat) = (.go (.running token o q), d) := by
      simp only [hj, Job.move, hp]
    obtain ⟨seat', present, desk⟩ := Reception.step_go hs hv moved
    obtain ⟨n, x, q', d', returns, ht, ho, hu', last, tokens, notes, faults⟩ :=
      exists_return_of_goesOn moves seat' present hu rfl (desk.symm ▸ goes)
    refine ⟨n + 1, x, q', d', ?_⟩
    rw [List.replicate_succ, run_cons]
    refine ⟨returns, ht, ho, hu', last, tokens, notes, fun disk => (faults disk).trans ?_⟩
    have unfailed : seat.job.fault? z.store = none := Job.fault?_of_none (disk p _ h) _
    rw [unfailed, Visit.suffer_none]
termination_by Engine.work seat.job (z.floor.desk seat)
decreasing_by
  rw [desk]
  exact Engine.less moved

/-- A build that nothing stands in the way of returns, no frame of it was refused, and the file
system did not fail it. -/
theorem exists_return_of_unhindered {z : Reception (Noted τ)} {i : Nat} {seat : Seat (Noted τ)}
    {v : Visit} {u : Upload} {token : Token} {o : BuildOptions} {p : Phase}
    (hs : z.floor.seats[i]? = some seat) (hv : z.present[i]? = some v) (hu : v.upload = some u)
    (hj : seat.job = .running token o p) (h : Unhindered token (z.floor.desk seat)) :
    ∃ n x, (z.run (List.replicate n (.move i))).return? i = some x ∧ x.token = token ∧
      x.options = o ∧ x.upload = u ∧ x.notes.refused = [] ∧ x.faults = v.faults ∧
      (z.run (List.replicate n (.move i))).tokens.isCancelled token = false := by
  obtain ⟨n, x, q, d, returns, ht, ho, hu, last, tokens, notes, faults⟩ := exists_return_of_goesOn
    (P := fun _ => Unhindered token) (fun p d h => h.move o p) hs hv hu hj h
  refine ⟨n, x, returns, ht, ho, hu, ?_, faults fun _ _ h => h.disk, tokens ▸ last.going⟩
  rw [notes]
  unfold Writer.notes
  split <;> exact last.refused

/-! ## Builds from their arrival on -/

/-- Whether a build may arrive in the context of a request and nothing will stand in
its way: its id is free, its upload is whole, its sink takes every frame, the file
system works, and the token that it will get is not cancelled. -/
structure Reception.Admits (z : Reception (Noted τ)) (k : Nat) (o : BuildOptions) (u : Upload)
    (content : ByteArray) (writer : Writer τ) : Prop where
  context : ∃ x, z.contexts[k]? = some x ∧
    z.tokens.isCancelled (z.tokens.child x.token).1 = false
  free : ∀ id, o.buildId = some id → z.store.token? id = none
  whole : u.Whole content
  obliging : Obliging writer.sink
  disk : z.store.fault = none

omit [Sink τ] in
theorem Reception.Admits.register {z : Reception (Noted τ)} {o : BuildOptions}
    (free : ∀ id, o.buildId = some id → z.store.token? id = none) (t : Token) :
    ∃ s, z.store.register o.buildId t = .ok s := by
  unfold Store.register
  split
  · exact ⟨_, rfl⟩
  · next id hid =>
    rw [free id hid]
    exact ⟨_, rfl⟩

theorem entered_of_admits {z : Reception (Noted τ)} {k : Nat} {o : BuildOptions} {u : Upload}
    {content : ByteArray} {writer : Writer τ} (seated : z.present.length = z.floor.seats.length)
    (h : z.Admits k o u content writer) :
    let i := z.present.length
    let y := (z.step (.arrive k o (some u) writer.noting)).step (.move i)
    ∃ seat v token p, y.floor.seats[i]? = some seat ∧ y.present[i]? = some v ∧
      v.upload = some u ∧ v.faults = [] ∧ seat.job = .running token o p ∧
      Unhindered token (y.floor.desk seat) := by
  obtain ⟨⟨x, hx, going⟩, free, whole, obliging, disk⟩ := h
  obtain ⟨s, hr⟩ := Reception.Admits.register free (z.tokens.child x.token).1
  intro i y
  let arrived := z.step (.arrive k o (some u) writer.noting)
  let seat : Seat (Noted τ) := ⟨.arriving x o, some ⟨u, 0, false⟩, writer.noting⟩
  have floor : arrived.floor = { z.floor with seats := z.floor.seats ++ [seat] } := by
    show (z.step _).floor = _
    simp only [Reception.step, hx]
    rfl
  have present : arrived.present = z.present ++ [{ context := x, upload := some u }] := by
    show (z.step _).present = _
    simp only [Reception.step, hx]
  have hs : arrived.floor.seats[i]? = some seat := by
    rw [floor, show i = z.floor.seats.length from seated]
    simp
  have hv : arrived.present[i]? = some { context := x, upload := some u } := by
    rw [present]
    simp [i]
  let t := (z.tokens.child x.token).1
  let d : Desk Store (Noted τ) :=
    (arrived.floor.desk seat).inWorkshop ⟨s, (z.tokens.child x.token).2⟩
  have moved : seat.job.move (arrived.floor.desk seat) = (.go (.running t o .opening), d) := by
    have register : (arrived.floor.desk seat).store.register o.buildId
        ((arrived.floor.desk seat).tokens.child x.token).1 = .ok s := by
      rw [floor]
      exact hr
    show arrive x o (arrived.floor.desk seat) = _
    rw [arrive_eq, register]
    simp only [t, d, floor]
    rfl
  obtain ⟨seat', present, desk⟩ := Reception.step_go hs hv moved
  refine ⟨⟨.running t o .opening, d.source, d.writer⟩, _, t, .opening, seat', present, rfl, rfl,
    rfl, ?_⟩
  rw [desk]
  refine ⟨going, fun s hs => ?_, obliging, rfl, ?_⟩
  · cases hs
    exact whole.isClosed
  · obtain ⟨-, same⟩ := Store.register_ok hr
    exact (congrArg (·.fault) same).trans disk

/-- A watched reception at which a build has arrived after some events and made some
moves, while nothing else has happened. -/
def Reception.watchBuild (events : List (ReceptionEvent τ)) (k : Nat) (o : BuildOptions)
    (u : Upload) (writer : Writer τ) (moves : Nat) : Reception (Noted τ) :=
  watch (events ++ .arrive k o (some u) writer ::
    List.replicate moves (.move (watch events).present.length))

/-- **A build that may arrive returns** after some moves of its own, with nothing in its
way, and has its upload still. -/
theorem exists_return_of_admits (events : List (ReceptionEvent τ)) {k : Nat} {o : BuildOptions}
    {u : Upload} {content : ByteArray} {writer : Writer τ}
    (h : (Reception.watch events).Admits k o u content writer) :
    ∃ n x, (Reception.watchBuild events k o u writer n).Returns
      (Reception.watch events).present.length o content x ∧ x.upload = u := by
  obtain ⟨seat, v, token, p, hs, hv, hu, unfailed, hj, unhindered⟩ :=
    entered_of_admits (Reception.recorded_watch events).seated h
  obtain ⟨n, x, returns, rfl, options, upload, refused, faults, going⟩ :=
    exists_return_of_unhindered hs hv hu hj unhindered
  let i := (Reception.watch events).present.length
  have run : Reception.watchBuild events k o u writer (n + 1) =
      (((Reception.watch events).step (.arrive k o (some u) writer.noting)).step
        (.move i)).run (List.replicate n (.move i)) := by
    have split : events ++ .arrive k o (some u) writer :: List.replicate (n + 1) (.move i) =
        (events ++ [.arrive k o (some u) writer]) ++ List.replicate (n + 1) (.move i) := by simp
    simp only [Reception.watchBuild, i] at split ⊢
    rw [split, watch_moves, Reception.watch_snoc]
    rfl
  refine ⟨n + 1, x, ?_, upload⟩
  rw [run]
  exact ⟨returns, options, upload ▸ h.whole, refused, faults.trans unfailed, going⟩

theorem exists_return (events : List (ReceptionEvent τ)) {k : Nat} {o : BuildOptions} {u : Upload}
    {content : ByteArray} {writer : Writer τ}
    (h : (Reception.watch events).Admits k o u content writer) :
    ∃ n x, (Reception.watchBuild events k o u writer n).Returns
      (Reception.watch events).present.length o content x :=
  let ⟨n, x, returns, _⟩ := exists_return_of_admits events h
  ⟨n, x, returns⟩

end ContextEngine
end ImageBuild
