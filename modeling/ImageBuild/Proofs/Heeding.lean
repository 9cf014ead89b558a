import ImageBuild.Proofs.LastStep

/-!
# Builds that heed their cancellation

A build whose token is cancelled takes nothing more from its upload, and it fails at its
next look. Such a look is ahead as long as the line of the last instruction was not begun,
so the build tells of no success, and it fails as cancelled if nothing else makes it fail
before that look (`Phase.Heeds`, `Fails`). Every move keeps it on this course
(`Phase.Heeds.move`).
-/

namespace ImageBuild

/-! ## Uploads from which nothing is taken -/

/-- **Nothing was taken** from a source between two times. More may have arrived, and the
source may have been put away. -/
def Source.Untaken (first later : Option Source) : Prop :=
  ∀ s' ∈ later, ∃ s ∈ first, s'.bytesRead = s.bytesRead ∧ s.upload.items <+: s'.upload.items

namespace Source.Untaken

variable {first later : Option Source}

theorem refl (first : Option Source) : Untaken first first :=
  fun s hs => ⟨s, hs, rfl, List.prefix_refl _⟩

theorem none (first : Option Source) : Untaken first none := by
  rintro s ⟨⟩

theorem feed (h : Untaken first later) (items : List Upload.Item) :
    Untaken first (later.map (·.feed items)) := by
  intro s' hs'
  obtain ⟨s, hs, rfl⟩ := Option.map_eq_some_iff.1 hs'
  obtain ⟨old, mem, count, before⟩ := h s hs
  exact ⟨old, mem, count, before.trans (List.prefix_append _ items)⟩

theorem close (h : Untaken first later) : Untaken first (later.map (·.close)) := by
  intro s' hs'
  obtain ⟨s, hs, rfl⟩ := Option.map_eq_some_iff.1 hs'
  exact h s hs

end Source.Untaken

namespace ContextEngine

variable {τ : Type} [Sink τ]

theorem Phase.source_move (token : Token) (o : BuildOptions) (p : Phase) (d : Desk Store τ)
    (cancelled : d.tokens.isCancelled token = true) :
    (p.move token o d).2.source = d.source ∨ (p.move token o d).2.source = none := by
  have offered (f : Frame) (next : Phase) (failed : SinkError → Phase) :
      (d.offer f next fun e =>
        (.go (failed e) : Move Phase (Except BuildError String))).2.source = d.source := by
    rcases d.offer_cases f next
      (fun e => (.go (failed e) : Move Phase (Except BuildError String)))
      with ⟨-, h⟩ | ⟨-, h⟩ | ⟨e, -, h⟩ <;> rw [h] <;> rfl
  cases p with
  | receiving file threshold =>
    left
    show (receive token file threshold d).2.source = d.source
    rw [receive, if_pos cancelled]
  | reporting | totalling | noting => exact .inl (offered ..)
  | looking file =>
    right
    rcases looking_cases token o file d with ⟨-, hl⟩ | ⟨-, -, hl⟩ | ⟨-, -, hl⟩ <;> rw [hl] <;>
      exact d.dropSource_source
  | telling c isKnown steps id =>
    cases steps with
    | nil => exact .inl rfl
    | cons step rest =>
      cases step with
      | check => exact .inl rfl
      | line text => exact .inl (offered ..)
  | opening | writing | flushing | inspecting | concluding | discarding | leaving =>
    exact .inl rfl

/-! ## Looks that are ahead -/

/-- Whether a build looks at the cancellation before it is through. -/
def Phase.LooksAhead : Phase → Prop
  | .telling _ _ steps _ => .check ∈ steps
  | .concluding .. | .discarding .. | .leaving _ => False
  | _ => True

def Phase.result? : Phase → Option (Except BuildError String)
  | .concluding _ _ result | .discarding _ result | .leaving result => some result
  | _ => none

/-- Whether a build waits for its file to be created, filled or flushed. -/
def Phase.writes : Phase → Bool
  | .opening | .writing .. | .flushing _ => true
  | _ => false

theorem Phase.writes_of_result? {p : Phase} {result : Except BuildError String}
    (h : p.result? = some result) : p.writes = false := by
  cases p with
  | concluding | discarding | leaving => rfl
  | _ => cases h

/-- **Why a build fails** that was in the phase `first` when it was cancelled. Its upload and
the choice of the file or the stage count only if they had failed by then. What is written to
the file may fail also if it was under way then, but nothing is written that was not. -/
inductive Fails (first : Phase) (o : BuildOptions) (u : Upload) (n : Notes)
    (faults : List String) : BuildError → Prop where
  | canceled : Fails first o u n faults .canceled
  | refused {e : SinkError} (h : e ∈ n.refused) : Fails first o u n faults (.progress e)
  | fault {reason : String} (h : .fault reason ∈ u.items)
      (earlier : first.result? = some (.error (.upload reason))) :
      Fails first o u n faults (.upload reason)
  | unwritten {reason : String} (h : reason ∈ faults)
      (begun : first.writes = true ∨ first.result? = some (.error (.upload reason))) :
      Fails first o u n faults (.upload reason)
  | unread {reason : String} (h : reason ∈ faults) :
      Fails first o u n faults (.invalidContext reason)
  | listing {f : Archive.ContextFault} (whole : u.Whole (Upload.bytes u.items))
      (h : Archive.Summary.ofArchive o.dockerfile (Upload.bytes u.items) = .error f) :
      Fails first o u n faults (.invalidContext f.message)
  | checked {e : BuildError} {s : Archive.Summary} (whole : u.Whole (Upload.bytes u.items))
      (listed : Archive.Summary.ofArchive o.dockerfile (Upload.bytes u.items) = .ok s)
      (h : Plan.ofSummary o ⟨0, Digest.name (Upload.bytes u.items), (Upload.bytes u.items).size⟩ s =
        .error e)
      (earlier : first.result? = some (.error e)) : Fails first o u n faults e

/-- **How a cancelled build goes on:** it has told of no success, and it looks at the
cancellation before it is through, or it has failed. It writes nothing but what it was
writing when it was cancelled. -/
structure Phase.Heeds (p first : Phase) (o : BuildOptions) (u : Upload) (n : Notes)
    (faults : List String) : Prop where
  silent : ∀ f ∈ n.taken, tellsSuccess f = false
  writes : p.writes = true → first.writes = true
  course : p.LooksAhead ∨ ∃ e, p.result? = some (.error e) ∧
    (first.result? = some (.error e) ∨ Fails first o u n faults e)

section Between

variable {first p : Phase} {o : BuildOptions} {u : Upload} {n : Notes}
  {faults faults' : List String}

theorem Fails.feed {e : BuildError} (h : Fails first o u n faults e) (isOpen : u.isClosed = false)
    (items : List Upload.Item) : Fails first o (u.feed items) n faults e := by
  have not_whole {content : ByteArray} (whole : u.Whole content) : False := by
    rw [whole.isClosed] at isOpen
    cases isOpen
  cases h with
  | canceled => exact .canceled
  | refused h => exact .refused h
  | fault h earlier => exact .fault (List.mem_append_left _ h) earlier
  | unwritten h begun => exact .unwritten h begun
  | unread h => exact .unread h
  | listing whole => exact (not_whole whole).elim
  | checked whole => exact (not_whole whole).elim

theorem Fails.close {e : BuildError} (h : Fails first o u n faults e) :
    Fails first o u.close n faults e := by
  cases h with
  | canceled => exact .canceled
  | refused h => exact .refused h
  | fault h earlier => exact .fault h earlier
  | unwritten h begun => exact .unwritten h begun
  | unread h => exact .unread h
  | listing whole h => exact .listing whole.close h
  | checked whole listed h earlier => exact .checked whole.close listed h earlier

theorem Fails.mono {e : BuildError} (h : Fails first o u n faults e) (more : faults ⊆ faults') :
    Fails first o u n faults' e := by
  cases h with
  | canceled => exact .canceled
  | refused h => exact .refused h
  | fault h earlier => exact .fault h earlier
  | unwritten h begun => exact .unwritten (more h) begun
  | unread h => exact .unread (more h)
  | listing whole h => exact .listing whole h
  | checked whole listed h earlier => exact .checked whole listed h earlier

namespace Phase.Heeds

theorem looking (silent : ∀ f ∈ n.taken, tellsSuccess f = false) (looks : p.LooksAhead)
    (idle : p.writes = false) : p.Heeds first o u n faults :=
  ⟨silent, fun writes => absurd writes (by simp [idle]), .inl looks⟩

theorem failed {e : BuildError} (silent : ∀ f ∈ n.taken, tellsSuccess f = false)
    (result : p.result? = some (.error e))
    (reason : first.result? = some (.error e) ∨ Fails first o u n faults e) :
    p.Heeds first o u n faults :=
  ⟨silent, fun writes => absurd writes (by simp [writes_of_result? result]),
    .inr ⟨e, result, reason⟩⟩

variable (h : p.Heeds first o u n faults)
include h

theorem imp {u' : Upload} (keeps : ∀ e, Fails first o u n faults e → Fails first o u' n faults' e) :
    p.Heeds first o u' n faults' := by
  refine ⟨h.silent, h.writes, h.course.imp_right ?_⟩
  rintro ⟨e, he, reason⟩
  exact ⟨e, he, reason.imp_right (keeps e)⟩

theorem feed (isOpen : u.isClosed = false) (items : List Upload.Item) :
    p.Heeds first o (u.feed items) n faults :=
  h.imp fun _ fails => fails.feed isOpen items

theorem close : p.Heeds first o u.close n faults := h.imp fun _ => Fails.close

theorem mono (more : faults ⊆ faults') : p.Heeds first o u n faults' :=
  h.imp fun _ fails => fails.mono more

end Phase.Heeds
end Between

/-! ## Moves of a cancelled build -/

/-- How a cancelled build goes on after a move. -/
def Phase.Heeding (p first : Phase) (o : BuildOptions) (u : Upload) (faults : List String) :
    Move Phase (Except BuildError String) × Desk Store (Noted τ) → Prop
  | (.go q, d) => q.Heeds first o u d.writer.notes faults
  | (.wait, d) => p.Heeds first o u d.writer.notes faults
  | (.stop _, _) => True

section Moves

variable {first p : Phase} {o : BuildOptions} {u : Upload} {faults : List String}
  {d : Desk Store (Noted τ)}

theorem heeds_offer {next : Phase} {failed : SinkError → Phase} {m : Message}
    (h : p.Heeds first o u d.writer.notes faults) (quiet : tellsSuccess m.frame = false)
    (hn : next.LooksAhead) (idle : next.writes = false)
    (hf : ∀ e, (failed e).result? = some (.error (.progress e))) :
    p.Heeding first o u faults (d.offer m.frame next fun e => .go (failed e)) := by
  rcases d.noted_offer m.frame_ne_nil next
    (fun e => (.go (failed e) : Move Phase (Except BuildError String)))
    with ⟨d', moved, -, -, notes⟩ | ⟨d', moved, -, -, notes⟩ | ⟨e, d', moved, -, -, notes⟩ <;>
    rw [moved, Phase.Heeding, notes]
  · refine .looking ?_ hn idle
    intro f hf
    rcases List.mem_append.1 hf with hf | hf
    · exact h.silent f hf
    · rw [List.mem_singleton.1 hf]
      exact quiet
  · exact h
  · exact .failed h.silent (hf e) (.inr (.refused (by simp [Notes.add])))

omit [Sink τ] in
/-- A phase that works with the file, which it had begun when it was cancelled. -/
theorem heeds_spool {α : Type} {a : α} {next : Except String α → Phase × Store}
    (h : p.Heeds first o u d.writer.notes faults) (writes : p.writes = true)
    (heard : ∀ reason, d.store.fault = some reason → reason ∈ faults)
    (hn : (next (.ok a)).1.LooksAhead) (idle : (next (.ok a)).1.writes = false)
    (hf : ∀ reason, (next (.error reason)).1.result? = some (.error (.upload reason))) :
    p.Heeding first o u faults (spool d a next) := by
  rcases spool_cases d a next with ⟨-, hs⟩ | ⟨reason, fault, hs⟩ <;> rw [hs]
  · exact .looking h.silent hn idle
  · exact .failed h.silent (hf reason)
      (.inr (.unwritten (heard reason fault) (.inl (h.writes writes))))

omit [Sink τ] in
/-- A cancelled build that looks through its context fails. -/
theorem heeds_inspect (token : Token) (c : ReceivedContext) (isKnown : Bool)
    (silent : ∀ f ∈ d.writer.notes.taken, tellsSuccess f = false)
    (copy : IsCopy u d.store c.file c.digest c.size)
    (heard : ∀ reason, d.store.fault = some reason → reason ∈ faults)
    (cancelled : d.tokens.isCancelled token = true) :
    (inspect token o c isKnown d).Heeds first o u d.writer.notes faults := by
  have whole : u.Whole (Upload.bytes u.items) := copy.whole.bytes ▸ copy.whole
  unfold inspect
  rw [← copy.whole.bytes]
  cases fault : d.store.fault with
  | some reason =>
    rw [Store.attempt_of_some fault]
    exact .failed silent rfl (.inr (.unread (heard reason fault)))
  | none =>
    rw [Store.attempt_of_none fault]
    dsimp only
    split
    · next f hf => exact .failed silent rfl (.inr (.listing whole hf))
    · rw [if_pos cancelled]
      exact .failed silent rfl (.inr .canceled)

/-- **A move of a cancelled build** keeps it on its course. Among the faults is the one that the
build meets in this move, if it works with its file. -/
theorem Phase.Heeds.move (token : Token) (h : p.Heeds first o u d.writer.notes faults)
    {isCancelled : Bool} (tells : p.Tells o u d.writer.notes faults isCancelled)
    (copies : p.Copies u d.store d.source)
    (heard : p.spools = true → ∀ reason, d.store.fault = some reason → reason ∈ faults)
    (cancelled : d.tokens.isCancelled token = true) :
    p.Heeding first o u faults (p.move token o d) := by
  have quiet (n : Nat) : tellsSuccess (report n) = false := tellsSuccess_report n
  cases p with
  | opening =>
    unfold Phase.move
    exact heeds_spool h rfl (heard rfl) trivial rfl fun _ => rfl
  | receiving file threshold =>
    show Phase.Heeding _ first o u faults (receive token file threshold d)
    rw [receive, if_pos cancelled]
    exact .failed h.silent rfl (.inr .canceled)
  | writing file threshold data =>
    have goes : (Phase.written file threshold (received d)).LooksAhead ∧
        (Phase.written file threshold (received d)).writes = false := by
      unfold Phase.written
      split <;> exact ⟨trivial, rfl⟩
    unfold Phase.move
    exact heeds_spool h rfl (heard rfl) goes.1 goes.2 fun _ => rfl
  | reporting file threshold => exact heeds_offer h (quiet _) trivial rfl fun _ => rfl
  | flushing file =>
    unfold Phase.move
    exact heeds_spool h rfl (heard rfl) trivial rfl fun _ => rfl
  | totalling file => exact heeds_offer h (quiet _) trivial rfl fun _ => rfl
  | looking file =>
    have silent : ∀ f ∈ d.dropSource.writer.notes.taken, tellsSuccess f = false :=
      d.notes_dropSource.symm ▸ h.silent
    rcases looking_cases token o file d with ⟨-, hl⟩ | ⟨-, -, hl⟩ | ⟨-, -, hl⟩ <;> rw [hl] <;>
      exact .looking silent trivial rfl
  | noting c =>
    refine heeds_offer h ?_ trivial rfl fun _ => rfl
    rw [tellsSuccess_line, isSuccess_cachedLine]
  | inspecting c isKnown =>
    exact heeds_inspect token c isKnown h.silent copies (heard rfl) cancelled
  | telling c isKnown steps id =>
    have look : .check ∈ steps := by
      rcases h.course with look | ⟨e, ⟨⟩, -⟩
      exact look
    cases steps with
    | nil => cases look
    | cons step rest =>
      cases step with
      | check =>
        show Phase.Heeds (if _ then _ else _) first o u d.writer.notes faults
        rw [if_pos cancelled]
        exact .failed h.silent rfl (.inr .canceled)
      | line text =>
        obtain ⟨plan, past, hplan, -, hs, -⟩ := tells
        obtain ⟨front, last, tail, turns⟩ := turns_of_verdict hplan
        rw [hs] at turns
        have later : .check ∈ rest := (List.mem_cons.1 look).resolve_left (by simp)
        refine heeds_offer h ?_ later rfl fun _ => rfl
        rw [tellsSuccess_line, turns.not_isSuccess later]
  | concluding c isKnown result =>
    obtain ⟨e, he, reason⟩ := h.course.resolve_left id
    cases he
    exact .failed h.silent rfl reason
  | discarding file result =>
    obtain ⟨e, he, reason⟩ := h.course.resolve_left id
    exact .failed h.silent he reason
  | leaving result => trivial

end Moves

/-! ## One build in the course of events -/

omit [Sink τ] in
theorem Issued.seat_unique {y : Reception τ} (h : Issued y) {i j : Nat} {a b : Job} {t : Token}
    (ha : y.floor.jobs[i]? = some a) (hb : y.floor.jobs[j]? = some b) (hat : a.token? = some t)
    (hbt : b.token? = some t) : i = j := by
  by_contra ne
  have apart := ((filterMap_perm_eraseIdx ha Job.token?).map (·.id)).nodup_iff.1 h.apart
  rw [hat] at apart
  have other : b ∈ y.floor.jobs.eraseIdx i :=
    List.mem_eraseIdx_iff_getElem?.2 ⟨j, Ne.symm ne, hb⟩
  have mem : t.id ∈ ((y.floor.jobs.eraseIdx i).filterMap Job.token?).map (·.id) :=
    List.mem_map_of_mem (List.mem_filterMap.2 ⟨b, other, hbt⟩)
  exact (List.nodup_cons.1 apart).1 mem

theorem next_step (y : Reception τ) (e : ReceptionEvent τ) :
    y.tokens.next ≤ (y.step e).tokens.next := by
  have same : y.tokens.next ≤ y.tokens.next := Nat.le_refl _
  cases e with
  | request version => exact Nat.le_succ _
  | branch k =>
    simp only [Reception.step]
    split
    · exact same
    · exact Nat.le_succ _
  | arrive k options upload writer =>
    simp only [Reception.step]
    split <;> exact same
  | move i =>
    show _ ≤ (y.step (.move i)).floor.workshop.tokens.next
    rw [(Issued.floor_move y i).1]
    cases hs : y.floor.seats[i]? with
    | none =>
      rw [(Floor.move_none hs).2]
      exact same
    | some seat =>
      rw [Floor.move_workshop hs]
      have registers := seat.job.registers_move (y.floor.desk seat)
      generalize (seat.job.move (y.floor.desk seat)).1 = m at registers
      generalize (seat.job.move (y.floor.desk seat)).2.toWorkshop = w at registers ⊢
      cases registers with
      | enter | refuse => exact Nat.le_succ _
      | go _ _ tokens =>
        rw [tokens]
        exact same
      | wait | leave | lack => exact same
  | giveUp i =>
    show _ ≤ (y.floor.giveUp i).workshop.tokens.next
    unfold Floor.giveUp
    split <;> exact same
  | feed i items =>
    simp only [Reception.step]
    split <;> exact same
  | cancelId id =>
    show _ ≤ (y.store.cancel id y.tokens).next
    unfold Store.cancel
    split <;> exact same
  | sweep i =>
    show _ ≤ (y.floor.step (.sweep i)).workshop.tokens.next
    simp only [Floor.step]
    split <;> exact same
  | _ => exact same

/-- **Whether the line of the last instruction was begun.** `Engine.run` lets nothing happen
between the look at the cancellation and the line that comes after it, so a build that has
come to the line has begun to write it. -/
def Seat.HasBegunLast (seat : Seat (Noted τ)) : Prop :=
  AnnouncesLast seat.writer.notes.taken ∨
    ∃ token o c isKnown text rest id, IsLastStep text ∧
      seat.job = .running token o (.telling c isKnown (.line text :: rest) id)

omit [Sink τ] in
/-- **A build that has not begun** the line of its last instruction heeds its cancellation. -/
theorem Phase.Tells.heeds {seat : Seat (Noted τ)} {token : Token} {o : BuildOptions} {p : Phase}
    {u : Upload} {faults : List String} {isCancelled : Bool}
    (hj : seat.job = .running token o p)
    (tells : p.Tells o u seat.writer.notes faults isCancelled)
    (ordered : Ordered seat.writer.notes.taken) (early : ¬ seat.HasBegunLast) :
    p.Heeds p o u seat.writer.notes faults := by
  have unannounced : ¬ AnnouncesLast seat.writer.notes.taken := fun h => early (.inl h)
  refine ⟨fun f hf => ?_, id, ?_⟩
  · by_contra success
    exact unannounced (ordered ⟨f, hf, by simpa using success⟩)
  have announced {plan : Plan} {steps : List PlanStep} {isKnown : Bool}
      (hplan : verdict o (Upload.bytes u.items) = .ok plan)
      (told : Told u (preamble (Upload.bytes u.items) isKnown ++ stepFrames steps)
        seat.writer.notes.taken) {last : String} (isLast : IsLastStep last)
      (mem : .line last ∈ steps) : False := by
    obtain ⟨counts, taken⟩ := told.taken
    refine unannounced ⟨last, isLast, ?_⟩
    rw [taken]
    exact List.mem_append_right _ (List.mem_append_right _ (mem_stepFrames mem))
  have through {result : Except BuildError String}
      (ended : Ended o u seat.writer.notes faults isCancelled result) : ∃ e, result = .error e := by
    cases result with
    | error e => exact ⟨e, rfl⟩
    | ok id =>
      cases ended with
      | done hplan told =>
        obtain ⟨front, last, tail, turns⟩ := turns_of_verdict hplan
        exact (announced hplan told turns.isLast (by rw [turns.steps_eq]; simp)).elim
  cases p with
  | telling c isKnown steps id =>
    by_cases look : .check ∈ steps
    · exact .inl look
    · obtain ⟨plan, past, hplan, -, hs, told⟩ := tells
      obtain ⟨front, last, tail, turns⟩ := turns_of_verdict hplan
      rw [hs] at turns
      rcases turns.of_no_check look with mem | ⟨rest, rfl⟩
      · exact (announced hplan told turns.isLast mem).elim
      · exact (early (.inr ⟨token, o, c, isKnown, last, rest, id, turns.isLast, hj⟩)).elim
  | concluding | discarding | leaving =>
    obtain ⟨e, rfl⟩ := through tells
    exact .inr ⟨e, rfl, .inl rfl⟩
  | opening | receiving | writing | reporting | flushing | totalling | looking | noting
  | inspecting => exact .inl trivial

end ContextEngine
end ImageBuild
