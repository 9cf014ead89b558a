import ImageBuild.Proofs.FreeEngine
import ImageBuild.Proofs.Session

/-!
# What a session sends

A `Referee` is a sink that takes or refuses every frame as it likes, and notes
all that it was asked. A session over a referee is followed through its two
parts. As long as the build goes on, the referee has been offered what the build
wrote, or nothing if the build is quiet (`Relays`); then the session offers how
the build ended, frame by frame, until one is refused. The build follows a
`Strategy`, so what it writes, reads and returns is arbitrary.
-/

namespace ImageBuild

/-- Something that a sink is asked. -/
inductive SinkCall where
  | duplex
  | offer (f : Frame)
  deriving DecidableEq

namespace SinkCall

def frame? : SinkCall → Option Frame
  | .duplex => none
  | .offer f => some f

end SinkCall

/-- A sink that decides freely and notes what it was asked. -/
structure Referee where
  /-- why a frame is refused, given the frames that were offered before it -/
  verdict : List Frame → Frame → Option SinkError
  /-- the answer to the request for full duplex -/
  duplex : Except DuplexError Unit
  calls : List SinkCall := []

namespace Referee

/-- The frames that were offered, taken or not. -/
def offered (r : Referee) : List Frame := r.calls.filterMap SinkCall.frame?

def send (r : Referee) (f : Frame) : Sent × Referee :=
  (match r.verdict r.offered f with
    | none => .accepted
    | some e => .failed e,
    { r with calls := r.calls ++ [.offer f] })

instance : Sink Referee where
  send := send
  enableDuplex r := (r.duplex, { r with calls := r.calls ++ [.duplex] })
  uploadDone r := r

/-- Offers frames one after another until one is refused. The first part is what
is offered, the second one why the last of it was refused. -/
def offerEach (verdict : List Frame → Frame → Option SinkError) (before : List Frame) :
    List Frame → List Frame × Option SinkError
  | [] => ([], none)
  | f :: rest =>
    match verdict before f with
    | none =>
      let (offered, refusal) := offerEach verdict (before ++ [f]) rest
      (f :: offered, refusal)
    | some e => ([f], some e)

end Referee

namespace Session

open FreeEngine (Job)

/-! ## Closing a session -/

section Closing

variable {σ ι : Type} [Engine ι σ]

def asked (d : Desk σ Referee) (calls : List SinkCall) : Desk σ Referee :=
  { d with
    writer := { d.writer with
      sink := { d.writer.sink with calls := d.writer.sink.calls ++ calls } } }

theorem write_referee {d : Desk σ Referee} {f : Frame} (hf : f ≠ []) (hk : d.writer.kept = none) :
    d.write f =
      ((match d.writer.sink.verdict d.writer.sink.offered f with
        | none => .accepted
        | some e => .failed e), asked d [.offer f]) := by
  have he : f.isEmpty = false := by simpa using hf
  simp only [Desk.write, Writer.write, he, Bool.false_eq_true, if_false, hk,
    asked]
  rfl

/-- **Closing** offers the last frames one by one until one is refused. -/
theorem run_closing (fs : List Frame) (hf : ∀ f ∈ fs, f ≠ []) (d : Desk σ Referee)
    (hk : d.writer.kept = none) :
    let own := Referee.offerEach d.writer.sink.verdict d.writer.sink.offered fs
    (closing fs : Session ι).run d =
      (.done (match own.2 with
        | none => .ok ()
        | some e => .error e), asked d (own.1.map .offer)) := by
  induction fs generalizing d with
  | nil =>
    have hm : (closing [] : Session ι).move d = (.stop (.ok ()), d) := rfl
    rw [run_stop hm]
    simp [Referee.offerEach, asked]
  | cons f rest ih =>
    intro own
    have hw := write_referee (hf f (List.mem_cons_self ..)) hk
    cases hv : d.writer.sink.verdict d.writer.sink.offered f with
    | some e =>
      have hm : (closing (f :: rest) : Session ι).move d =
          (.stop (.error e), asked d [.offer f]) := by
        simp only [move, hw, hv]
      rw [run_stop hm]
      simp [own, Referee.offerEach, hv]
    | none =>
      have hm : (closing (f :: rest) : Session ι).move d =
          (.go (.closing rest), asked d [.offer f]) := by
        simp only [move, hw, hv]
      have ho : (asked d [.offer f]).writer.sink.offered = d.writer.sink.offered ++ [f] := by
        simp [asked, Referee.offered, SinkCall.frame?]
      rw [run_go hm, ih (fun g hg => hf g (List.mem_cons_of_mem _ hg)) (asked d [.offer f]) hk, ho]
      simp [own, Referee.offerEach, hv, asked]

end Closing

/-! ## While the build goes on -/

/-- The frames of a build that can reach the client. -/
def output (d : Desk FreeEngine Referee) : List Frame := d.store.written.filter (· ≠ [])

/-- **The referee knows what the build wrote,** or the writer keeps it in a quiet
build. `before` is what the referee was asked before the build. -/
structure Relays (quiet : Bool) (before : List SinkCall)
    (verdict : List Frame → Frame → Option SinkError) (d : Desk FreeEngine Referee) : Prop where
  kept : d.writer.kept.map Array.toList = if quiet then some (output d) else none
  calls : d.writer.sink.calls = before ++ (if quiet then [] else output d).map .offer
  verdict : d.writer.sink.verdict = verdict
  /-- nothing more arrives -/
  complete : ∀ s, d.source = some s → s.upload.isClosed = true

variable {quiet : Bool} {before : List SinkCall} {verdict : List Frame → Frame → Option SinkError}
  {d : Desk FreeEngine Referee}

theorem Relays.write (h : Relays quiet before verdict d) (f : Frame) :
    (d.write f).1 ≠ .blocked ∧ Relays quiet before verdict (FreeEngine.note (d.write f).2 f) := by
  by_cases hf : f = []
  · subst hf
    refine ⟨by simp [Desk.write, Writer.write], ?_⟩
    have ho : output (FreeEngine.note (d.write []).2 []) = output d := by
      simp [output, FreeEngine.note, Desk.write, Writer.write, Desk.withStore, Desk.inWorkshop]
    exact ⟨ho ▸ h.kept, ho ▸ h.calls, h.verdict, h.complete⟩
  · have ho : output (FreeEngine.note (d.write f).2 f) = output d ++ [f] := by
      simp [output, FreeEngine.note, Desk.write, Desk.withStore, Desk.inWorkshop, hf]
    cases quiet with
    | true =>
      -- the frame stays with the writer
      obtain ⟨fs, hk, hfs⟩ := Option.map_eq_some_iff.1 h.kept
      have hw : d.write f =
          (.accepted, { d with writer := { d.writer with kept := some (fs.push f) } }) := by
        simp [Desk.write, Writer.write, hk, hf]
      rw [hw] at ho ⊢
      refine ⟨by simp, ?_, ?_, h.verdict, h.complete⟩
      · rw [ho]
        simp [FreeEngine.note, Desk.withStore, Desk.inWorkshop, hfs]
      · exact h.calls
    | false =>
      have hk : d.writer.kept = none := by simpa using h.kept
      have hw := write_referee hf hk
      refine ⟨?_, ?_⟩
      · rw [hw]
        show (match d.writer.sink.verdict d.writer.sink.offered f with
          | none => Sent.accepted
          | some e => Sent.failed e) ≠ .blocked
        split <;> simp
      · rw [hw] at ho ⊢
        refine ⟨h.kept, ?_, h.verdict, h.complete⟩
        rw [ho]
        show d.writer.sink.calls ++ [.offer f] = _
        rw [h.calls]
        simp

theorem Relays.withSource (h : Relays quiet before verdict d) {source : Option Source}
    (hs : ∀ s, source = some s → s.upload.isClosed = true) :
    Relays quiet before verdict { d with source } :=
  ⟨h.kept, h.calls, h.verdict, hs⟩

theorem Relays.take (h : Relays quiet before verdict d) {s : Source} (hs : d.source = some s) :
    (d.take s).1 ≠ .starved ∧ Relays quiet before verdict (d.take s).2 := by
  have hc := h.complete s hs
  refine ⟨Source.next_ne_starved hc, ?_⟩
  have still : ∀ s', some s.next.2 = some s' → s'.upload.isClosed = true := by
    rintro _ ⟨⟩
    rw [Source.next_isClosed, hc]
  have := h.withSource still
  unfold Desk.take
  split <;> exact this

theorem dropSource_referee (d : Desk FreeEngine Referee) :
    d.dropSource = { d with source := none } := by
  unfold Desk.dropSource
  split
  · next hs => rw [← hs]
  · rfl

theorem Relays.dropSource (h : Relays quiet before verdict d) :
    Relays quiet before verdict d.dropSource := by
  rw [dropSource_referee]
  exact h.withSource (by rintro _ ⟨⟩)

/-- **One move of the build:** it does not wait, and the referee still knows what
was written. -/
theorem Relays.move (h : Relays quiet before verdict d) (j : Job) :
    (Engine.move j d).1 ≠ .wait ∧ Relays quiet before verdict (Engine.move j d).2 := by
  show (Job.move j d).1 ≠ .wait ∧ Relays quiet before verdict (Job.move j d).2
  have put (left seen f) : (FreeEngine.put left seen f d).1 ≠ .wait ∧
      Relays quiet before verdict (FreeEngine.put left seen f d).2 := by
    have hw := h.write f
    unfold FreeEngine.put
    split
    · next he =>
      rw [he] at hw
      exact ⟨by simp, hw.2⟩
    · next he => exact absurd (by rw [he]) hw.1
    · next he =>
      rw [he] at hw
      exact ⟨by simp, hw.2⟩
  have take (left seen) : (FreeEngine.take left seen d).1 ≠ .wait ∧
      Relays quiet before verdict (FreeEngine.take left seen d).2 := by
    unfold FreeEngine.take
    split
    · exact ⟨by simp, h⟩
    · next s hs =>
      obtain ⟨hn, ht⟩ := h.take hs
      split
      · next he => exact absurd (by rw [he]) hn
      all_goals
        next he =>
        rw [he] at ht
        exact ⟨by simp, ht⟩
  cases j with
  | arriving => exact ⟨by simp [Job.move], h⟩
  | acting left seen =>
    cases left with
    | zero => exact ⟨by simp [Job.move], ⟨h.kept, h.calls, h.verdict, h.complete⟩⟩
    | succ left =>
      simp only [Job.move]
      split
      · exact put _ _ _
      · exact put _ _ _
      · exact take _ _
      · exact ⟨by simp, h.dropSource⟩

theorem result_of_stop {j : Job} {d' : Desk FreeEngine Referee}
    {result : Except BuildError String} (h : Engine.move j d = (.stop result, d')) :
    d'.store.result = some result := by
  change Job.move j d = _ at h
  have put (left seen f) : FreeEngine.put left seen f d ≠ (.stop result, d') := by
    unfold FreeEngine.put
    split <;> simp
  have take (left seen) : FreeEngine.take left seen d ≠ (.stop result, d') := by
    unfold FreeEngine.take
    split
    · simp
    · split <;> simp
  cases j with
  | arriving => cases h
  | acting left seen =>
    cases left with
    | zero =>
      cases h
      rfl
    | succ left =>
      simp only [Job.move] at h
      split at h
      · exact absurd h (put _ _ _)
      · exact absurd h (put _ _ _)
      · exact absurd h (take _ _)
      · cases h

/-! ## The answer to the request for full duplex -/

/-- A desk whose referee answers the request for full duplex like this. -/
def answering (answer : Except DuplexError Unit) (d : Desk FreeEngine Referee) :
    Desk FreeEngine Referee :=
  { d with writer := { d.writer with sink := { d.writer.sink with duplex := answer } } }

variable (answer : Except DuplexError Unit) (d : Desk FreeEngine Referee)

theorem write_answering (f : Frame) :
    (answering answer d).write f = ((d.write f).1, answering answer (d.write f).2) := by
  unfold Desk.write Writer.write
  by_cases hf : f.isEmpty = true
  · simp [hf, answering]
  · cases hk : d.writer.kept with
    | some fs => simp [hf, hk, answering]
    | none =>
      simp only [hf, hk, answering]
      rfl

theorem take_answering (s : Source) :
    (answering answer d).take s = ((d.take s).1, answering answer (d.take s).2) := by
  unfold Desk.take
  split <;> rfl

theorem source_answering : (answering answer d).source = d.source := rfl

theorem store_answering : (answering answer d).store = d.store := rfl

theorem dropSource_answering :
    (answering answer d).dropSource = answering answer d.dropSource := by
  unfold Desk.dropSource
  rw [source_answering]
  cases d.source <;> rfl

theorem build_answering (j : Job) :
    Engine.move j (answering answer d) =
      ((Engine.move j d).1, answering answer (Engine.move j d).2) := by
  show j.move (answering answer d) = ((j.move d).1, answering answer (j.move d).2)
  have put (left seen f) : FreeEngine.put left seen f (answering answer d) =
      ((FreeEngine.put left seen f d).1, answering answer (FreeEngine.put left seen f d).2) := by
    unfold FreeEngine.put
    rw [write_answering]
    cases d.write f with
    | mk sent d₁ => cases sent <;> rfl
  have take (left seen) : FreeEngine.take left seen (answering answer d) =
      ((FreeEngine.take left seen d).1, answering answer (FreeEngine.take left seen d).2) := by
    unfold FreeEngine.take
    rw [source_answering]
    cases d.source with
    | none => rfl
    | some s =>
      simp only [take_answering]
      cases d.take s with
      | mk polled d₁ => cases polled <;> rfl
  cases j with
  | arriving => rfl
  | acting left seen =>
    cases left with
    | zero => rfl
    | succ left =>
      simp only [Job.move, store_answering]
      cases d.store.strategy.next seen with
      | write f => exact put _ _ _
      | tell m => exact put _ _ _
      | read => exact take _ _
      | putAway =>
        simp only [dropSource_answering]

theorem close_answering (result : Except BuildError String) :
    close (ι := Job) (answering answer d) result =
      ((close (ι := Job) d result).1, answering answer (close (ι := Job) d result).2) := by
  unfold close
  rw [dropSource_answering]
  rfl

theorem move_answering (s : Session Job) :
    s.move (answering answer d) = ((s.move d).1, answering answer (s.move d).2) := by
  cases s with
  | building j =>
    simp only [move, build_answering]
    cases Engine.move j d with
    | mk m d₁ =>
      cases m with
      | go j' => rfl
      | wait => rfl
      | stop result => simp only [close_answering]
  | closing fs =>
    cases fs with
    | nil => rfl
    | cons f rest =>
      simp only [move, write_answering]
      cases d.write f with
      | mk sent d₁ => cases sent <;> rfl

/-- **The answer changes nothing** but what the referee has answered. -/
theorem run_answering (s : Session Job) (d : Desk FreeEngine Referee) :
    s.run (answering answer d) = ((s.run d).1, answering answer (s.run d).2) := by
  have answered {m : Move (Session Job) (Except SinkError Unit)} {d' : Desk FreeEngine Referee}
      (hm : s.move d = (m, d')) : s.move (answering answer d) = (m, answering answer d') := by
    rw [move_answering, hm]
  match hm : s.move d with
  | (.go s', d') =>
    rw [run_go hm, run_go (answered hm)]
    exact run_answering s' d'
  | (.wait, d') => rw [run_wait hm, run_wait (answered hm)]
  | (.stop result, d') => rw [run_stop hm, run_stop (answered hm)]
termination_by s.work d
decreasing_by exact less_of_move hm

/-! ## The whole stream -/

/-- The frames that a session itself has for the client when a build with this
output has ended. -/
def ownFrames (quiet : Bool) (output : List Frame) : Except BuildError String → List Frame
  | .ok id =>
    (if quiet then [(Message.line (id ++ "\n")).frame] else []) ++ [(Message.imageId id).frame]
  | .error e =>
    (if quiet ∧ output.flatten ≠ [] then [output.flatten] else []) ++
      [(Message.failure e.message).frame]

theorem lastFrames_eq {kept : Option (Array Frame)} {output : List Frame}
    (h : kept.map Array.toList = if quiet then some output else none)
    (result : Except BuildError String) : lastFrames kept result = ownFrames quiet output result := by
  cases quiet with
  | true =>
    obtain ⟨fs, rfl, rfl⟩ := Option.map_eq_some_iff.1 h
    cases result with
    | ok id => rfl
    | error e =>
      show (if fs.toList.flatten = [] then [] else [fs.toList.flatten]) ++ _ =
        (if true = true ∧ fs.toList.flatten ≠ [] then [fs.toList.flatten] else []) ++ _
      by_cases hf : fs.toList.flatten = []
      · rw [if_pos hf, if_neg (by simp only [hf, ne_eq, not_true_eq_false, and_false,
          not_false_eq_true])]
      · rw [if_neg hf, if_pos ⟨rfl, hf⟩]
  | false =>
    have hk : kept = none := by simpa using h
    subst hk
    cases result <;> simp [lastFrames, ownFrames]

/-- **After the build** the session offers its own frames one by one. -/
theorem run_relays (h : Relays quiet before verdict d) (j : Job) :
    ∃ d' result, d'.store.result = some result ∧
      let passed := if quiet then [] else output d'
      let own := Referee.offerEach verdict (before.filterMap SinkCall.frame? ++ passed)
        (ownFrames quiet (output d') result)
      (building j).run d = (.done (match own.2 with
        | none => .ok ()
        | some e => .error e), d') ∧
      d'.writer.sink.calls = before ++ (passed ++ own.1).map .offer := by
  obtain ⟨last, d₁, result, d₂, h₁, hs, hr⟩ := run_building (fun _ => Relays quiet before verdict)
    (fun {j d} h => (Relays.move h j).1)
    (fun {j d j' d'} h hm => by
      have hd := (Relays.move h j).2
      rwa [hm] at hd) j d h
  have h₂ : Relays quiet before verdict d₂ := by
    have := (h₁.move last).2
    rwa [hs] at this
  -- closing puts the upload away, which the referee does not notice
  let d₃ : Desk FreeEngine Referee :=
    { d₂ with source := none, writer := { d₂.writer with kept := none } }
  have hclose : close (ι := Job) d₂ result = (.closing (ownFrames quiet (output d₂) result), d₃) := by
    simp only [close, dropSource_referee, lastFrames_eq h₂.kept, d₃]
  have ho : d₃.writer.sink.offered =
      before.filterMap SinkCall.frame? ++ if quiet then [] else output d₂ := by
    have : SinkCall.frame? ∘ SinkCall.offer = some := rfl
    rw [Referee.offered, h₂.calls, List.filterMap_append, List.filterMap_map, this,
      List.filterMap_some]
  have hc := run_closing (ι := Job) (ownFrames quiet (output d₂) result)
    (fun f hf => ne_nil_of_mem_lastFrames (lastFrames_eq h₂.kept result ▸ hf)) d₃ rfl
  rw [ho, h₂.verdict] at hc
  let own := Referee.offerEach verdict
    (before.filterMap SinkCall.frame? ++ if quiet then [] else output d₂)
    (ownFrames quiet (output d₂) result)
  refine ⟨asked d₃ (own.1.map .offer), result, ?_, ?_, ?_⟩
  · show d₂.store.result = some result
    exact result_of_stop hs
  · rw [hr, hclose]
    exact hc
  · show d₂.writer.sink.calls ++ own.1.map .offer = _
    rw [h₂.calls, List.append_assoc, ← List.map_append]
    rfl

/-- The desk of a request that is served over a referee. The upload is there
already; what it brings is arbitrary. -/
def outset (strategy : Strategy) (tokens : Cancellation) (hasBody : Bool)
    (items : List Upload.Item) (verdict : List Frame → Frame → Option SinkError)
    (answer : Except DuplexError Unit) : Desk FreeEngine Referee where
  store := { strategy }
  tokens
  source := if hasBody then some { upload := ⟨items, true⟩ } else none
  writer := { sink := { verdict, duplex := answer } }

/-- **The outbound stream.** Whatever the build does, the sink is asked for full
duplex once and before the build begins if there is a body, and never
otherwise; it is then offered what the build wrote, unless the build is quiet,
and the session's own frames until one is refused. The request is served if all
of these were taken, and the answer about full duplex makes no difference. -/
theorem serve_outbound {p : Policy} {r : BuildRequest} {b : DecodedBuild} (hp : p.decode r = .ok b)
    (x : Context) (strategy : Strategy) (tokens : Cancellation) (items : List Upload.Item)
    (verdict : List Frame → Frame → Option SinkError) :
    let quiet := b.options.quiet
    let d := outset strategy tokens r.hasBody items verdict
    let before : List SinkCall := if r.hasBody then [.duplex] else []
    (∀ answer, (start (ι := Job) x b (d answer)).2.writer.sink.calls = before ∧
      (start (ι := Job) x b (d answer)).2.store = (d answer).store) ∧
    ∃ d' result outcome,
      (∀ answer, serve (ι := Job) p r x (d answer) = (.inr outcome, answering answer d')) ∧
      d'.store.result = some result ∧
      let passed := if quiet then [] else output d'
      let own := Referee.offerEach verdict passed (ownFrames quiet (output d') result)
      d'.writer.sink.calls = before ++ (passed ++ own.1).map .offer ∧
      outcome = (match own.2 with
        | none => .ok ()
        | some e => .error (.unwritten e)) := by
  intro quiet d before
  let d₀ : Desk FreeEngine Referee :=
    { d (.ok ()) with writer := ⟨⟨verdict, .ok (), before⟩, if quiet then some #[] else none⟩ }
  have hs (answer) : start (ι := Job) x b (d answer) = (.building .arriving, answering answer d₀) := by
    cases hb : r.hasBody <;> simp only [start, outset, answering, d, d₀, before, hb] <;> rfl
  have h₀ : Relays quiet before verdict d₀ := by
    constructor
    · show (if quiet then some #[] else none).map Array.toList = if quiet then some [] else none
      cases quiet <;> rfl
    · show before = before ++ (if quiet then [] else []).map .offer
      cases quiet <;> simp
    · rfl
    · intro s hsome
      simp only [d₀, d, outset] at hsome
      split at hsome
      · cases hsome
        rfl
      · cases hsome
  have hn : before.filterMap SinkCall.frame? = [] := by
    simp only [before]
    split <;> rfl
  obtain ⟨d', result, hd, hrun, hcalls⟩ := run_relays d₀ h₀ .arriving
  rw [hn, List.nil_append] at hrun hcalls
  constructor
  · -- the request for full duplex comes before the first move
    intro answer
    rw [hs]
    exact ⟨rfl, rfl⟩
  · refine ⟨d', result, _, ?_, hd, hcalls, rfl⟩
    intro answer
    simp only [serve, hp, hs, run_answering, hrun]
    split <;> rfl

/-- A quiet build with a body that writes three frames, one of them empty, and
fails. The sink refuses the frame that holds what was kept, so the error is not
offered. -/
theorem serve_outbound_quiet :
    let r : BuildRequest := { uri := ⟨[0x2F], some [0x71, 0x3D, 0x31]⟩, hasBody := true }
    let strategy : Strategy :=
      { acts := 3
        next := fun seen => .write (if seen.length = 1 then [] else [0x61])
        result := fun _ => .error .canceled }
    Policy.decode {} r = .ok ⟨.newest, { quiet := true }⟩ ∧
      ∃ d' result outcome,
        (∀ answer, serve (ι := Job) {} r ⟨.newest, ⟨0, []⟩⟩
          (outset strategy {} true [] (fun _ _ => some .disconnected) answer) =
            (.inr outcome, answering answer d')) ∧
        d'.store.result = some result ∧
        d'.writer.sink.calls = .duplex :: (Referee.offerEach (fun _ _ => some .disconnected) []
          (ownFrames true (output d') result)).1.map .offer := by
  intro r strategy
  have hp : Policy.decode {} r = .ok ⟨.newest, { quiet := true }⟩ := by
    have hq : Query.ofUri r.uri = ⟨[("q", "1")]⟩ := by decide +kernel
    unfold Policy.decode
    rw [hq]
    rfl
  obtain ⟨-, d', result, outcome, hserve, hresult, hcalls, -⟩ :=
    serve_outbound hp ⟨.newest, ⟨0, []⟩⟩ strategy {} [] fun _ _ => some .disconnected
  exact ⟨hp, d', result, outcome, hserve, hresult, hcalls⟩

end Session
end ImageBuild
