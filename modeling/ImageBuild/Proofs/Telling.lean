import ImageBuild.Proofs.Notes

/-!
# What builds tell, and how they end

A build tells how much of its upload has arrived, then how large it is, whether
the context is known already, and the lines of its plan, one by one (`Phase.Tells`).
So it ends in one of a few ways (`Ended`). It was cancelled, or a frame was refused, or
the upload had a fault, or the file system failed it; otherwise its result is what
`verdict` says of the octets of the upload, and it has told all that belongs to it.
-/

namespace ImageBuild

theorem Message.frame_ne_nil (m : Message) : m.frame ≠ [] := by
  simp [Message.frame]

namespace Source

theorem mem_of_next_fault {s : Source} {reason : String} (h : s.next.1 = .fault reason) :
    .fault reason ∈ s.upload.items := by
  by_cases finished : s.isFinished
  · simp [next_of_isFinished finished] at h
  · obtain ⟨passed, x, rest, items, -, -, look⟩ | ⟨-, look⟩ :=
      looks_next (Bool.eq_false_iff.2 finished)
    · rw [look] at h
      cases x with
      | fault other =>
        cases h
        exact items ▸ List.mem_append_right _ (List.mem_cons_self ..)
      | chunk | pause => cases h
    · rw [look] at h
      split at h <;> cases h

end Source

namespace ContextEngine

variable {τ : Type}

/-! ## What the octets of a context say -/

/-- What a build over a context comes to: why it fails, or its plan. -/
def verdict (o : BuildOptions) (content : ByteArray) : Except BuildError Plan :=
  match Archive.Summary.ofArchive o.dockerfile content with
  | .error e => .error (.invalidContext e.message)
  | .ok summary => Plan.ofSummary o ⟨0, Digest.name content, content.size⟩ summary

theorem plan_of_verdict {o : BuildOptions} {content : ByteArray} {plan : Plan}
    (h : verdict o content = .ok plan) : ∃ summary text,
      Archive.Summary.ofArchive o.dockerfile content = .ok summary ∧ summary.file = some text ∧
      plan = Plan.ofInstructions o ⟨0, Digest.name content, content.size⟩ summary.entries
        (Dockerfile.instructions text.toList) := by
  unfold verdict at h
  split at h
  · cases h
  · next summary hs =>
    unfold Plan.ofSummary at h
    split at h
    · cases h
    · next text ht =>
      refine ⟨summary, text, hs, ht, ?_⟩
      dsimp only at h
      split at h
      · cases h
      · split at h
        · cases h
          rfl
        · split at h
          · cases h
            rfl
          · cases h

theorem verdict_eq {o : BuildOptions} {content : ByteArray} {entries : Nat} {text : String}
    (found : Archive.Summary.ofArchive o.dockerfile content = .ok ⟨entries, some text⟩)
    (given : Dockerfile.instructions text.toList ≠ []) (target : o.target = none) :
    verdict o content = .ok (Plan.ofInstructions o ⟨0, Digest.name content, content.size⟩ entries
      (Dockerfile.instructions text.toList)) := by
  simp only [verdict, found, Plan.ofSummary, if_neg given, target]

theorem inspect_cases (token : Token) (o : BuildOptions) {u : Upload} {c : ReceivedContext}
    {d : Desk Store τ} (isKnown : Bool) (copy : IsCopy u d.store c.file c.digest c.size) :
    (∃ reason, d.store.fault = some reason ∧
      inspect token o c isKnown d = .concluding c isKnown (.error (.invalidContext reason))) ∨
    (∃ e, verdict o (Upload.bytes u.items) = .error e ∧
      inspect token o c isKnown d = .concluding c isKnown (.error e)) ∨
    (d.tokens.isCancelled token = true ∧
      inspect token o c isKnown d = .concluding c isKnown (.error .canceled)) ∨
    (∃ plan, verdict o (Upload.bytes u.items) = .ok plan ∧
      inspect token o c isKnown d = .telling c isKnown plan.steps plan.id) := by
  obtain ⟨whole, digest, size⟩ := copy
  -- the number of the file does not matter for the plan
  have plan (s : Archive.Summary) : Plan.ofSummary o c s = Plan.ofSummary o
      ⟨0, Digest.name (d.store.content c.file), (d.store.content c.file).size⟩ s := by
    rw [← digest, ← size]
    rfl
  rw [whole.bytes]
  unfold inspect verdict
  cases fault : d.store.fault with
  | some reason => exact .inl ⟨reason, rfl, by rw [Store.attempt_of_some fault]⟩
  | none =>
    right
    rw [Store.attempt_of_none fault]
    dsimp only
    cases Archive.Summary.ofArchive o.dockerfile (d.store.content c.file) with
    | error e => exact .inl ⟨_, rfl, rfl⟩
    | ok summary =>
      simp only [plan]
      by_cases cancelled : d.tokens.isCancelled token = true
      · rw [if_pos cancelled]
        exact .inr (.inl ⟨cancelled, rfl⟩)
      · rw [if_neg cancelled]
        split
        · next e he => exact .inl ⟨e, he, rfl⟩
        · next p hp => exact .inr (.inr ⟨p, hp, rfl⟩)

/-! ## What is told -/

def stepText? : PlanStep → Option String
  | .check => none
  | .line text => some text

def stepFrames (steps : List PlanStep) : List Frame :=
  (steps.filterMap stepText?).map fun text => (Message.line text).frame

theorem stepFrames_check (steps : List PlanStep) :
    stepFrames (steps ++ [.check]) = stepFrames steps := by
  rw [stepFrames, List.filterMap_append]
  exact congrArg _ (List.append_nil _)

theorem stepFrames_line (steps : List PlanStep) (text : String) :
    stepFrames (steps ++ [.line text]) = stepFrames steps ++ [(Message.line text).frame] := by
  rw [stepFrames, List.filterMap_append, List.map_append]
  rfl

def cachedNote (content : ByteArray) : Frame :=
  (Message.line (Plan.cachedLine (Digest.name content))).frame

/-- What a build tells of its context before it looks through it. -/
def preamble (content : ByteArray) (isKnown : Bool) : List Frame :=
  report content.size :: if isKnown then [cachedNote content] else []

/-- Whether the upload has arrived whole, and all that was told besides reports
before its end is `frames`. -/
structure Told (u : Upload) (frames taken : List Frame) : Prop where
  whole : u.Whole (Upload.bytes u.items)
  taken : ∃ counts : List Nat, taken = counts.map report ++ frames

/-- How a build may end: with these notes, after these faults of the file system, and
cancelled or not. -/
inductive Ended (o : BuildOptions) (u : Upload) (n : Notes) (faults : List String)
    (isCancelled : Bool) : Except BuildError String → Prop where
  | canceled (h : isCancelled = true) : Ended o u n faults isCancelled (.error .canceled)
  | refused {e : SinkError} (h : e ∈ n.refused) :
      Ended o u n faults isCancelled (.error (.progress e))
  | fault {reason : String} (h : .fault reason ∈ u.items) :
      Ended o u n faults isCancelled (.error (.upload reason))
  /-- the file could not be created or written -/
  | unwritten {reason : String} (h : reason ∈ faults) :
      Ended o u n faults isCancelled (.error (.upload reason))
  /-- the file could not be read -/
  | unread {reason : String} (h : reason ∈ faults) :
      Ended o u n faults isCancelled (.error (.invalidContext reason))
  | failed {isKnown : Bool} {e : BuildError} (h : verdict o (Upload.bytes u.items) = .error e)
      (told : Told u (preamble (Upload.bytes u.items) isKnown) n.taken) :
      Ended o u n faults isCancelled (.error e)
  | done {isKnown : Bool} {plan : Plan} (h : verdict o (Upload.bytes u.items) = .ok plan)
      (told : Told u (preamble (Upload.bytes u.items) isKnown ++ stepFrames plan.steps) n.taken) :
      Ended o u n faults isCancelled (.ok plan.id)

/-- What has been told in a phase of a build with the upload `u`. -/
def Phase.Tells (o : BuildOptions) (u : Upload) (n : Notes) (faults : List String)
    (isCancelled : Bool) : Phase → Prop
  | .opening => n.taken = []
  | .receiving .. | .writing .. | .reporting .. | .flushing _ | .totalling _ =>
    ∃ counts : List Nat, n.taken = counts.map report
  | .looking _ | .noting _ => Told u (preamble (Upload.bytes u.items) false) n.taken
  | .inspecting _ isKnown => Told u (preamble (Upload.bytes u.items) isKnown) n.taken
  | .telling _ isKnown steps id =>
    ∃ plan past, verdict o (Upload.bytes u.items) = .ok plan ∧ plan.id = id ∧
      plan.steps = past ++ steps ∧
      Told u (preamble (Upload.bytes u.items) isKnown ++ stepFrames past) n.taken
  | .concluding _ _ result | .discarding _ result | .leaving result =>
    Ended o u n faults isCancelled result

/-! ## What happens between moves -/

section Between

variable {o : BuildOptions} {u : Upload} {n : Notes} {frames taken : List Frame}
  {faults faults' : List String} {isCancelled isCancelled' : Bool}

theorem Told.push (h : Told u frames taken) (f : Frame) :
    Told u (frames ++ [f]) (taken ++ [f]) := by
  obtain ⟨whole, counts, rfl⟩ := h
  exact ⟨whole, counts, List.append_assoc ..⟩

theorem Told.not_isOpen (h : Told u frames taken) : u.isClosed ≠ false := by
  rw [h.whole.isClosed]
  simp

theorem Told.close (h : Told u frames taken) : Told u.close frames taken := ⟨h.whole.close, h.taken⟩

namespace Ended

variable {result : Except BuildError String}

theorem mono (h : Ended o u n faults isCancelled result) (more : faults ⊆ faults')
    (later : isCancelled = true → isCancelled' = true) :
    Ended o u n faults' isCancelled' result := by
  cases h with
  | canceled h => exact .canceled (later h)
  | refused h => exact .refused h
  | fault h => exact .fault h
  | unwritten h => exact .unwritten (more h)
  | unread h => exact .unread (more h)
  | failed h told => exact .failed h told
  | done h told => exact .done h told

theorem feed (h : Ended o u n faults isCancelled result) (isOpen : u.isClosed = false)
    (items : List Upload.Item) : Ended o (u.feed items) n faults isCancelled result := by
  cases h with
  | canceled h => exact .canceled h
  | refused h => exact .refused h
  | fault h => exact .fault (List.mem_append_left _ h)
  | unwritten h => exact .unwritten h
  | unread h => exact .unread h
  | failed h told => exact (told.not_isOpen isOpen).elim
  | done h told => exact (told.not_isOpen isOpen).elim

theorem close (h : Ended o u n faults isCancelled result) :
    Ended o u.close n faults isCancelled result := by
  cases h with
  | canceled h => exact .canceled h
  | refused h => exact .refused h
  | fault h => exact .fault h
  | unwritten h => exact .unwritten h
  | unread h => exact .unread h
  | failed h told => exact .failed h told.close
  | done h told => exact .done h told.close

end Ended

namespace Phase.Tells

variable {p : Phase}

theorem mono (h : p.Tells o u n faults isCancelled) (more : faults ⊆ faults')
    (later : isCancelled = true → isCancelled' = true) : p.Tells o u n faults' isCancelled' := by
  cases p with
  | concluding | discarding | leaving => exact Ended.mono h more later
  | _ => exact h

theorem feed (h : p.Tells o u n faults isCancelled) (isOpen : u.isClosed = false)
    (items : List Upload.Item) : p.Tells o (u.feed items) n faults isCancelled := by
  cases p with
  | opening | receiving | writing | reporting | flushing | totalling => exact h
  | looking | noting | inspecting => exact (Told.not_isOpen h isOpen).elim
  | telling =>
    obtain ⟨plan, past, -, -, -, told⟩ := h
    exact (told.not_isOpen isOpen).elim
  | concluding | discarding | leaving => exact Ended.feed h isOpen items

theorem close (h : p.Tells o u n faults isCancelled) :
    p.Tells o u.close n faults isCancelled := by
  cases p with
  | opening | receiving | writing | reporting | flushing | totalling => exact h
  | looking | noting | inspecting => exact Told.close h
  | telling =>
    obtain ⟨plan, past, hplan, hid, hsteps, told⟩ := h
    exact ⟨plan, past, hplan, hid, hsteps, told.close⟩
  | concluding | discarding | leaving => exact Ended.close h

end Phase.Tells
end Between

/-! ## Moves -/

/-- What has been told after a move of a phase. -/
def Phase.Says (p : Phase) (o : BuildOptions) (u : Upload) (faults : List String)
    (isCancelled : Bool) : Move Phase (Except BuildError String) × Desk Store (Noted τ) → Prop
  | (.go q, d) => q.Tells o u d.writer.notes faults isCancelled
  | (.wait, d) => p.Tells o u d.writer.notes faults isCancelled
  | (.stop _, _) => True

section Moves

variable [Sink τ] {o : BuildOptions} {u : Upload} {faults : List String} {isCancelled : Bool}
  {d : Desk Store (Noted τ)}

theorem says_offer {p next : Phase} {failed : SinkError → Phase} {m : Message}
    (h : p.Tells o u d.writer.notes faults isCancelled)
    (hn : next.Tells o u (d.writer.notes.add m.frame .accepted) faults isCancelled)
    (hf : ∀ e n, e ∈ n.refused → (failed e).Tells o u n faults isCancelled) :
    p.Says o u faults isCancelled (d.offer m.frame next fun e => .go (failed e)) := by
  rcases d.noted_offer m.frame_ne_nil next
    (fun e => (.go (failed e) : Move Phase (Except BuildError String)))
    with ⟨d', moved, -, -, notes⟩ | ⟨d', moved, -, -, notes⟩ | ⟨e, d', moved, -, -, notes⟩
  · rw [moved, Phase.Says, notes]
    exact hn
  · rw [moved, Phase.Says, notes]
    exact h
  · rw [moved, Phase.Says, notes]
    exact hf e _ (by simp [Notes.add])

omit [Sink τ] in
theorem says_spool {α : Type} {p : Phase} {a : α} {next : Except String α → Phase × Store}
    (heard : ∀ reason, d.store.fault = some reason → reason ∈ faults)
    (done : (next (.ok a)).1.Tells o u d.writer.notes faults isCancelled)
    (failed : ∀ reason ∈ faults,
      (next (.error reason)).1.Tells o u d.writer.notes faults isCancelled) :
    p.Says o u faults isCancelled (spool d a next) := by
  rcases spool_cases d a next with ⟨-, h⟩ | ⟨reason, fault, h⟩ <;> rw [h]
  · exact done
  · exact failed reason (heard reason fault)

theorem says_receive (token : Token) (file threshold : Nat)
    (h : (Phase.receiving file threshold).Tells o u d.writer.notes faults
      (d.tokens.isCancelled token))
    (copies : (Phase.receiving file threshold).Copies u d.store d.source) :
    (Phase.receiving file threshold).Says o u faults (d.tokens.isCancelled token)
      (receive token file threshold d) := by
  obtain ⟨x, hx, takes⟩ := copies
  rcases receive_cases token file threshold d with
    ⟨cancelled, hr⟩ | ⟨none, hr⟩ | ⟨s, hs, ⟨-, hr⟩ | ⟨-, hr⟩⟩ <;> rw [hr]
  · exact .canceled cancelled
  · cases hx.symm.trans none
  · exact h
  · cases hx.symm.trans hs
    rw [Phase.Says, d.notes_take x]
    cases found : x.next.1 with
    | chunk | paused | starved | ended => exact h
    | fault reason =>
      obtain ⟨before, items, -, -⟩ := takes.items
      refine .fault ?_
      rw [items]
      exact List.mem_append_right _ (Source.mem_of_next_fault found)

/-- **A move** of a build tells what belongs to its next phase. Among the faults is the one
that the build meets in this move, if it works with its file. -/
theorem Phase.Tells.move {p : Phase} (token : Token)
    (h : p.Tells o u d.writer.notes faults (d.tokens.isCancelled token))
    (copies : p.Copies u d.store d.source)
    (heard : p.spools = true → ∀ reason, d.store.fault = some reason → reason ∈ faults) :
    p.Says o u faults (d.tokens.isCancelled token) (p.move token o d) := by
  cases p with
  | opening =>
    unfold Phase.move
    exact says_spool (heard rfl) ⟨[], h⟩ fun _ mem => .unwritten mem
  | receiving file threshold => exact says_receive token file threshold h copies
  | writing file threshold data =>
    unfold Phase.move
    refine says_spool (heard rfl) ?_ fun _ mem => .unwritten mem
    show (Phase.written file threshold (received d)).Tells o u _ faults _
    unfold Phase.written
    split <;> exact h
  | reporting file threshold =>
    obtain ⟨counts, taken⟩ := h
    refine says_offer ⟨counts, taken⟩ ⟨counts ++ [received d], ?_⟩ fun e n he => .refused he
    rw [Notes.add, taken, List.map_append]
    rfl
  | flushing file =>
    unfold Phase.move
    exact says_spool (heard rfl) h fun _ mem => .unwritten mem
  | totalling file =>
    obtain ⟨counts, taken⟩ := h
    obtain ⟨whole, counted⟩ := copies
    have size : received d = (Upload.bytes u.items).size :=
      whole.bytes ▸ received_of_bytesRead counted
    refine says_offer ⟨counts, taken⟩ ⟨whole.bytes ▸ whole, counts, ?_⟩ fun e n he => .refused he
    rw [Notes.add, taken, size]
    rfl
  | looking file =>
    have notes := d.notes_dropSource
    have told : Told u (preamble (Upload.bytes u.items) false) d.dropSource.writer.notes.taken :=
      notes ▸ h
    rcases looking_cases token o file d with ⟨-, hl⟩ | ⟨-, -, hl⟩ | ⟨-, -, hl⟩ <;> rw [hl] <;>
      exact told
  | noting c =>
    refine says_offer h ?_ fun e n he => .refused he
    have note : (Message.line (Plan.cachedLine c.digest)).frame =
        cachedNote (Upload.bytes u.items) := by
      rw [cachedNote, copies.whole.bytes, copies.digest]
    rw [note]
    exact Told.push h _
  | inspecting c isKnown =>
    show Phase.Tells o u d.writer.notes faults _ (inspect token o c isKnown d)
    rcases inspect_cases token o isKnown copies with
      ⟨reason, fault, found⟩ | ⟨e, he, found⟩ | ⟨cancelled, found⟩ | ⟨plan, hp, found⟩ <;>
      rw [found]
    · exact .unread (heard rfl reason fault)
    · exact .failed he h
    · exact .canceled cancelled
    · exact ⟨plan, [], hp, rfl, rfl, (List.append_nil _).symm ▸ h⟩
  | telling c isKnown steps id =>
    obtain ⟨plan, past, hp, rfl, hs, told⟩ := h
    cases steps with
    | nil =>
      rw [List.append_nil] at hs
      exact .done hp (hs ▸ told)
    | cons step rest =>
      have after : plan.steps = (past ++ [step]) ++ rest := by
        rw [hs, List.append_assoc]
        rfl
      cases step with
      | check =>
        show Phase.Tells o u d.writer.notes faults _ (if _ then _ else _)
        split
        · next cancelled => exact .canceled cancelled
        · refine ⟨plan, past ++ [.check], hp, rfl, after, ?_⟩
          rw [stepFrames_check]
          exact told
      | line text =>
        refine says_offer ⟨plan, past, hp, rfl, hs, told⟩
          ⟨plan, past ++ [.line text], hp, rfl, after, ?_⟩ fun e n he => .refused he
        rw [stepFrames_line, ← List.append_assoc]
        exact told.push _
  | concluding c isKnown result =>
    show Phase.Tells o u d.writer.notes faults _ (conclude o c isKnown result d.store).1
    rcases conclude_cases o c isKnown result d.store with
      ⟨-, hc⟩ | ⟨id, rfl, -, -, -, hc⟩ | ⟨id, rfl, -, -, -, hc⟩ <;> rw [hc] <;> exact h
  | discarding file result => exact h
  | leaving result => trivial

end Moves

/-! ## Watched receptions -/

def Seat.Tells (seat : Seat (Noted τ)) (c : Cancellation) (v : Visit) : Prop :=
  match seat.job with
  | .arriving .. => seat.writer.notes = {}
  | .running token o p =>
    ∃ u, v.upload = some u ∧ p.Tells o u seat.writer.notes v.faults (c.isCancelled token)

namespace Seat.Tells

variable {seat : Seat (Noted τ)} {c c' : Cancellation} {v : Visit}

theorem mono (h : seat.Tells c v)
    (later : ∀ t, c.isCancelled t = true → c'.isCancelled t = true) : seat.Tells c' v := by
  obtain ⟨job, source, writer⟩ := seat
  cases job with
  | arriving => exact h
  | running token o p =>
    obtain ⟨u, hu, tells⟩ := h
    exact ⟨u, hu, tells.mono (fun _ mem => mem) (later token)⟩

theorem feed (h : seat.Tells c v) (isOpen : v.isOpen = true) (items : List Upload.Item) :
    Seat.Tells { seat with source := seat.source.map (·.feed items) } c (v.feed items) := by
  obtain ⟨job, source, writer⟩ := seat
  cases job with
  | arriving => exact h
  | running token o p =>
    obtain ⟨u, hu, tells⟩ := h
    refine ⟨u.feed items, by simp only [Visit.feed, hu, Option.map_some], tells.feed ?_ items⟩
    simpa [Visit.isOpen, hu] using isOpen

theorem close (h : seat.Tells c v) :
    Seat.Tells { seat with source := seat.source.map (·.close) } c v.close := by
  obtain ⟨job, source, writer⟩ := seat
  cases job with
  | arriving => exact h
  | running token o p =>
    obtain ⟨u, hu, tells⟩ := h
    exact ⟨u.close, by simp only [Visit.close, hu, Option.map_some], tells.close⟩

theorem respond (h : seat.Tells c v) {sink : Noted τ} (same : sink.notes = seat.writer.sink.notes) :
    Seat.Tells { seat with writer := { seat.writer with sink } } c v := by
  obtain ⟨job, source, writer⟩ := seat
  have notes : Writer.notes { writer with sink } = writer.notes := writer.notes_respond same
  cases job with
  | arriving => exact notes.trans h
  | running token o p =>
    obtain ⟨u, hu, tells⟩ := h
    exact ⟨u, hu, notes.symm ▸ tells⟩

theorem suffer (h : seat.Tells c v) (fault : Option String) : seat.Tells c (v.suffer fault) := by
  obtain ⟨job, source, writer⟩ := seat
  cases job with
  | arriving => exact h
  | running token o p =>
    obtain ⟨u, hu, tells⟩ := h
    exact ⟨u, hu, tells.mono (List.subset_append_left _ _) id⟩

theorem move [Sink τ] {y : Floor (Noted τ)} (h : seat.Tells y.workshop.tokens v)
    (copies : seat.Copies y.workshop.store v) :
    match seat.job.move (y.desk seat) with
    | (.go job, d) => Seat.Tells ⟨job, d.source, d.writer⟩ y.workshop.tokens
        (v.suffer (seat.job.fault? y.workshop.store))
    | (.wait, d) => Seat.Tells ⟨seat.job, d.source, d.writer⟩ y.workshop.tokens
        (v.suffer (seat.job.fault? y.workshop.store))
    | (.stop _, _) => True := by
  replace h := h.suffer (seat.job.fault? y.workshop.store)
  obtain ⟨job, source, writer⟩ := seat
  cases job with
  | arriving context o =>
    have notes : writer.notes = {} := h
    have source : source = v.source := copies
    subst source
    simp only [Job.move, arrive_eq, Floor.desk]
    cases hu : v.upload with
    | none => simp only [Visit.source, hu, Option.map_none]
    | some u =>
      simp only [Visit.source, hu, Option.map_some]
      split
      · next moved =>
        split at moved <;> cases moved
        exact ⟨u, hu, congrArg Notes.taken notes⟩
      · next moved => split at moved <;> cases moved
      · trivial
  | running token o p =>
    obtain ⟨u, hu, tells⟩ := h
    obtain ⟨u', hu', copies⟩ := copies
    cases hu.symm.trans hu'
    have said := tells.move (d := y.desk ⟨.running token o p, source, writer⟩) token copies
      fun spools _ => v.mem_suffer token o spools
    simp only [Job.move]
    rcases hp : p.move token o (y.desk ⟨.running token o p, source, writer⟩) with ⟨m, d⟩
    rw [hp] at said
    cases m with
    | go q => exact ⟨u, hu, said⟩
    | wait => exact ⟨u, hu, said⟩
    | stop result => trivial

end Seat.Tells

section Runs

variable [Sink τ]

/-- What every build has told that is at a reception. -/
def Reception.Tells (z : Reception (Noted τ)) : Prop :=
  ∀ (i : Nat) (seat : Seat (Noted τ)) (v : Visit), z.floor.seats[i]? = some seat →
    z.present[i]? = some v → seat.Tells z.tokens v

theorem Reception.Tells.step {z : Reception (Noted τ)} (h : z.Tells) (recorded : Recorded z)
    (e : ReceptionEvent τ) : (z.step (z.noting e)).Tells := by
  intro j seat v hs hv
  have comes := comes_step recorded.seated hs hv
  clear hs hv
  refine Seat.Tells.mono (c := z.tokens) ?_ fun t => isCancelled_step (z.noting e)
  cases comes with
  | arrive he hx =>
    obtain ⟨w, rfl⟩ := Reception.writer_of_noting he
    exact w.notes_noting
  | stay hs hv => exact h _ _ _ hs hv
  | go hs hv he hm =>
    have moved := (h _ _ _ hs hv).move (recorded.copies _ _ _ hs hv)
    rwa [hm] at moved
  | wait hs hv he hm =>
    have moved := (h _ _ _ hs hv).move (recorded.copies _ _ _ hs hv)
    rwa [hm] at moved
  | feed hs hv he isOpen => exact (h _ _ _ hs hv).feed isOpen _
  | complete hs hv => exact (h _ _ _ hs hv).close
  | respond hs hv he => exact (h _ _ _ hs hv).respond (Reception.notes_of_noting he hs)

theorem tells_watch (events : List (ReceptionEvent τ)) : (Reception.watch events).Tells := by
  induction events using List.reverseRecOn with
  | nil => rintro i seat v ⟨⟩
  | append_singleton events e ih =>
    rw [Reception.watch_snoc]
    exact ih.step (Reception.recorded_watch events) e

/-! ## Builds that return -/

/-- A build that returns: what it came with, what it told, what the file system said to it,
and its result. -/
structure Return where
  token : Token
  options : BuildOptions
  upload : Upload
  notes : Notes
  faults : List String
  result : Except BuildError String

namespace Return

def content (x : Return) : ByteArray := Upload.bytes x.upload.items

end Return

/-- The build of a seat that was entered and whose next move is its last one. -/
def Reception.return? (z : Reception (Noted τ)) (i : Nat) : Option Return :=
  match z.floor.seats[i]?, z.present[i]? with
  | some seat, some v =>
    match seat.job, v.upload, seat.job.move (z.floor.desk seat) with
    | .running token o _, some u, (.stop result, _) =>
      some ⟨token, o, u, seat.writer.notes, v.faults, result⟩
    | _, _, _ => none
  | _, _ => none

theorem Reception.return?_eq_some {z : Reception (Noted τ)} {i : Nat} {x : Return}
    (h : z.return? i = some x) : ∃ seat v p d, z.floor.seats[i]? = some seat ∧
      z.present[i]? = some v ∧ v.upload = some x.upload ∧
      seat.job = .running x.token x.options p ∧ seat.writer.notes = x.notes ∧
      v.faults = x.faults ∧ p.move x.token x.options (z.floor.desk seat) = (.stop x.result, d) := by
  unfold return? at h
  split at h
  · next seat v hs hv =>
    split at h
    · next token o p u result d hj hu hm =>
      cases h
      refine ⟨seat, v, p, d, hs, hv, hu, hj, rfl, rfl, ?_⟩
      rw [hj] at hm
      simp only [Job.move] at hm
      split at hm <;> cases hm
      assumption
    · cases h
  · cases h

/-- **A build that returns** has come to one of the ends that there are. -/
theorem ended_of_return {events : List (ReceptionEvent τ)} {i : Nat} {x : Return}
    (h : (Reception.watch events).return? i = some x) :
    Ended x.options x.upload x.notes x.faults
      ((Reception.watch events).tokens.isCancelled x.token) x.result := by
  obtain ⟨seat, v, p, d, hs, hv, hu, hj, notes, faults, hm⟩ := Reception.return?_eq_some h
  have leads := p.leads_move x.token x.options ((Reception.watch events).floor.desk seat)
  rw [hm] at leads
  obtain ⟨-, rfl, -⟩ := leads
  have tells := tells_watch events i seat v hs hv
  simp only [Seat.Tells, hj] at tells
  obtain ⟨u, hu', tells⟩ := tells
  cases hu.symm.trans hu'
  exact notes ▸ faults ▸ tells

end Runs

end ContextEngine
end ImageBuild
