import ImageBuild.Proofs.Heeding
import ImageBuild.Proofs.Keeping

/-!
# Builds that are cancelled

From the moment at which the token of a build is cancelled, whatever happens at the
reception, the build takes nothing more from its upload. If the line of its last
instruction was not begun by then, it tells of no success and fails
(`Reception.Heeds.watch`, `Reception.Heeds.fails`). It waits for its sink alone, so it
comes to its end however long its upload stays open (`exists_return_of_cancelled`). With
what builds do to the cache, this is what makes it safe to cancel one at any point
(`cancellation_safe`).
-/

namespace ImageBuild

/-- A sink that never lets a build wait, now and later: it takes every frame or refuses it. -/
def Prompt {τ : Type} [Sink τ] (s : τ) : Prop :=
  ∃ P : τ → Prop, P s ∧ ∀ t, P t → P (Sink.uploadDone t) ∧
    ∀ f, (Sink.send t f).1 ≠ .blocked ∧ P (Sink.send t f).2

namespace Prompt

variable {τ : Type} [Sink τ] {s : τ}

theorem uploadDone (h : Prompt s) : Prompt (Sink.uploadDone s) := by
  obtain ⟨P, hs, all⟩ := h
  exact ⟨P, (all s hs).1, all⟩

theorem send (h : Prompt s) (f : Frame) :
    (Sink.send s f).1 ≠ .blocked ∧ Prompt (Sink.send s f).2 := by
  obtain ⟨P, hs, all⟩ := h
  obtain ⟨sent, after⟩ := (all s hs).2 f
  exact ⟨sent, P, after, all⟩

theorem recorder (r : Recorder) : Prompt r := by
  refine ⟨fun _ => True, trivial, fun t _ => ⟨trivial, fun f => ⟨?_, trivial⟩⟩⟩
  show (Recorder.send t f).1 ≠ .blocked
  unfold Recorder.send
  split <;> exact nofun

end Prompt

namespace ContextEngine

variable {τ : Type}

/-! ## One build in the course of events -/

/-- How a build goes on that was cancelled when it was as in `first`, in the phase `p`. -/
def Seat.Heeds (seat first : Seat (Noted τ)) (token : Token) (o : BuildOptions) (p : Phase)
    (v : Visit) : Prop :=
  ∃ q u, seat.job = .running token o q ∧ v.upload = some u ∧
    Source.Untaken first.source seat.source ∧
    (¬ first.HasBegunLast → q.Heeds p o u seat.writer.notes v.faults)

namespace Seat.Heeds

variable {seat first : Seat (Noted τ)} {token : Token} {o : BuildOptions} {p : Phase} {v : Visit}

theorem feed (h : seat.Heeds first token o p v) (isOpen : v.isOpen = true)
    (items : List Upload.Item) :
    Seat.Heeds { seat with source := seat.source.map (·.feed items) } first token o p
      (v.feed items) := by
  obtain ⟨q, u, hj, hu, untaken, heeds⟩ := h
  have isOpen : u.isClosed = false := by simpa [Visit.isOpen, hu] using isOpen
  exact ⟨q, u.feed items, hj, by simp only [Visit.feed, hu, Option.map_some],
    untaken.feed items, fun early => (heeds early).feed isOpen items⟩

theorem close (h : seat.Heeds first token o p v) :
    Seat.Heeds { seat with source := seat.source.map (·.close) } first token o p v.close := by
  obtain ⟨q, u, hj, hu, untaken, heeds⟩ := h
  exact ⟨q, u.close, hj, by simp only [Visit.close, hu, Option.map_some], untaken.close,
    fun early => (heeds early).close⟩

theorem respond (h : seat.Heeds first token o p v) {sink : Noted τ}
    (same : sink.notes = seat.writer.sink.notes) :
    Seat.Heeds { seat with writer := { seat.writer with sink } } first token o p v := by
  obtain ⟨q, u, hj, hu, untaken, heeds⟩ := h
  have notes := seat.writer.notes_respond same
  exact ⟨q, u, hj, hu, untaken, fun early => notes.symm ▸ heeds early⟩

theorem suffer (h : seat.Heeds first token o p v) (fault : Option String) :
    seat.Heeds first token o p (v.suffer fault) := by
  obtain ⟨q, u, hj, hu, untaken, heeds⟩ := h
  exact ⟨q, u, hj, hu, untaken, fun early => (heeds early).mono (List.subset_append_left _ _)⟩

theorem move [Sink τ] {y : Floor (Noted τ)} (h : seat.Heeds first token o p v)
    (tells : seat.Tells y.workshop.tokens v) (copies : seat.Copies y.workshop.store v)
    (cancelled : y.workshop.tokens.isCancelled token = true) :
    match seat.job.move (y.desk seat) with
    | (.go job, d) => Seat.Heeds ⟨job, d.source, d.writer⟩ first token o p
        (v.suffer (seat.job.fault? y.workshop.store))
    | (.wait, d) => Seat.Heeds ⟨seat.job, d.source, d.writer⟩ first token o p
        (v.suffer (seat.job.fault? y.workshop.store))
    | (.stop _, _) => True := by
  replace h := h.suffer (seat.job.fault? y.workshop.store)
  replace tells := tells.suffer (seat.job.fault? y.workshop.store)
  obtain ⟨job, source, writer⟩ := seat
  obtain ⟨q, u, rfl, hu, untaken, heeds⟩ := h
  obtain ⟨u', hu', tells⟩ := tells
  cases hu.symm.trans hu'
  obtain ⟨u', hu', copies⟩ := copies
  cases hu.symm.trans hu'
  have left := q.source_move token o (y.desk ⟨.running token o q, source, writer⟩) cancelled
  have heeding (early : ¬ first.HasBegunLast) : Phase.Heeding q p o u _ _ :=
    (heeds early).move (d := y.desk ⟨.running token o q, source, writer⟩) token tells copies
      (fun spools _ => v.mem_suffer token o spools) cancelled
  simp only [Job.move]
  rcases hm : q.move token o (y.desk ⟨.running token o q, source, writer⟩) with ⟨m, d⟩
  rw [hm] at left heeding
  have untaken : Source.Untaken first.source d.source := by
    rcases left with same | gone
    · rw [same]
      exact untaken
    · rw [gone]
      exact .none _
  cases m with
  | go q' => exact ⟨q', u, rfl, hu, untaken, heeding⟩
  | wait => exact ⟨q, u, rfl, hu, untaken, heeding⟩
  | stop result => trivial

end Seat.Heeds

variable [Sink τ]

/-- What is true at a reception since the build with a token was cancelled: its token is
not given out again, it stays cancelled, and its build keeps on its course. -/
structure Reception.Heeds (z : Reception (Noted τ)) (first : Seat (Noted τ)) (token : Token)
    (o : BuildOptions) (p : Phase) : Prop where
  issued : token.id < z.tokens.next
  cancelled : z.tokens.isCancelled token = true
  course : ∀ (i : Nat) (seat : Seat (Noted τ)) (v : Visit), z.floor.seats[i]? = some seat →
    z.present[i]? = some v → seat.job.token? = some token → seat.Heeds first token o p v

namespace Reception.Heeds

variable {z : Reception (Noted τ)} {first : Seat (Noted τ)} {token : Token} {o : BuildOptions}
  {p : Phase}

omit [Sink τ] in
theorem start (issued : Issued z) (tells : z.Tells) (ordered : z.Ordered) {i : Nat}
    (hs : z.floor.seats[i]? = some first) (hj : first.job = .running token o p)
    (cancelled : z.tokens.isCancelled token = true) : z.Heeds first token o p := by
  have job : z.floor.jobs[i]? = some first.job := by
    rw [Floor.getElem?_jobs, hs]
    rfl
  have given := issued.jobs _ (List.mem_of_getElem? job)
  rw [hj] at given
  refine ⟨given.1, cancelled, ?_⟩
  intro j seat v hs' hv ht
  -- there is only one build with the token
  have other : z.floor.jobs[j]? = some seat.job := by
    rw [Floor.getElem?_jobs, hs']
    rfl
  cases issued.seat_unique job other (hj ▸ rfl) ht
  cases hs.symm.trans hs'
  have told := tells i first v hs hv
  simp only [Seat.Tells, hj] at told
  obtain ⟨u, hu, told⟩ := told
  exact ⟨p, u, hj, hu, .refl _, told.heeds hj (ordered i first v hs hv)⟩

theorem step (h : z.Heeds first token o p) (recorded : Recorded z) (tells : z.Tells)
    (e : ReceptionEvent τ) : (z.step (z.noting e)).Heeds first token o p := by
  refine ⟨Nat.lt_of_lt_of_le h.issued (next_step z _), isCancelled_step _ h.cancelled, ?_⟩
  intro j seat v hs hv ht
  have comes := comes_step recorded.seated hs hv
  clear hs hv
  cases comes with
  | arrive => cases ht
  | stay hs hv => exact h.course _ _ _ hs hv ht
  | go hs hv he hm =>
    rename_i i old v job d
    by_cases same : old.job.token? = some token
    · have moved := (h.course _ _ _ hs hv same).move (tells _ _ _ hs hv)
        (recorded.copies _ _ _ hs hv) h.cancelled
      rwa [hm] at moved
    · -- a build that has just begun has a token of its own
      have registers := old.job.registers_move (z.floor.desk old)
      rw [hm] at registers
      generalize d.toWorkshop = w at registers
      cases registers with
      | enter =>
        cases ht
        exact absurd h.issued (Nat.lt_irrefl _)
      | go hj =>
        rw [hj] at same
        exact absurd ht same
  | wait hs hv he hm =>
    have moved := (h.course _ _ _ hs hv ht).move (tells _ _ _ hs hv)
      (recorded.copies _ _ _ hs hv) h.cancelled
    rwa [hm] at moved
  | feed hs hv he isOpen => exact (h.course _ _ _ hs hv ht).feed isOpen _
  | complete hs hv => exact (h.course _ _ _ hs hv ht).close
  | respond hs hv he =>
    exact (h.course _ _ _ hs hv ht).respond (Reception.notes_of_noting he hs)

/-- **From the moment of its cancellation on**, a build keeps on its course, whatever
happens at the reception. -/
theorem watch {events : List (ReceptionEvent τ)} {i : Nat}
    (hs : (Reception.watch events).floor.seats[i]? = some first)
    (hj : first.job = .running token o p)
    (cancelled : (Reception.watch events).tokens.isCancelled token = true)
    (after : List (ReceptionEvent τ)) :
    (Reception.watch (events ++ after)).Heeds first token o p := by
  induction after using List.reverseRecOn with
  | nil =>
    obtain ⟨noted, h⟩ := Reception.exists_run_of_watch events
    rw [List.append_nil]
    exact start (h ▸ Issued.start.run noted) (tells_watch events) (ordered_watch events) hs hj
      cancelled
  | append_singleton after e ih =>
    rw [← List.append_assoc, Reception.watch_snoc]
    exact ih.step (Reception.recorded_watch _) (tells_watch _) e

end Reception.Heeds

/-! ## How it fails -/

/-- **A cancelled build that returns** had begun the line of its last instruction when it was
cancelled, or it fails. -/
theorem Reception.Heeds.fails {events : List (ReceptionEvent τ)} {first : Seat (Noted τ)}
    {token : Token} {o : BuildOptions} {p : Phase}
    (h : (Reception.watch events).Heeds first token o p) (early : ¬ first.HasBegunLast) {i : Nat}
    {x : Return} (hx : (Reception.watch events).return? i = some x) (ht : x.token = token) :
    ∃ e, x.result = .error e ∧ Fails p o x.upload x.notes x.faults e := by
  have ended := ended_of_return hx
  obtain ⟨seat, v, q, d, hs, hv, hu, hj, notes, faults, hm⟩ := Reception.return?_eq_some hx
  obtain ⟨q', u, hj', hu', -, heeds⟩ := h.course i seat v hs hv (hj ▸ congrArg some ht)
  cases hj.symm.trans hj'
  cases hu.symm.trans hu'
  have leads := q.leads_move x.token x.options ((Reception.watch events).floor.desk seat)
  rw [hm] at leads
  obtain ⟨-, rfl, -⟩ := leads
  rw [notes, faults] at heeds
  obtain ⟨e, he, reason⟩ := (heeds early).course.resolve_left id
  have result : x.result = .error e := Option.some.inj he
  refine ⟨e, result, ?_⟩
  rcases reason with earlier | fails
  · -- the build had failed before, and this is why
    rw [result] at ended
    cases ended with
    | canceled => exact .canceled
    | refused h => exact .refused h
    | fault h => exact .fault h earlier
    | unwritten h => exact .unwritten h (.inr earlier)
    | unread h => exact .unread h
    | failed hv told =>
      unfold verdict at hv
      split at hv
      · next f hf =>
        cases hv
        exact .listing told.whole hf
      · next s hs => exact .checked told.whole hs hv earlier
  · exact fails

/-! ## Cancelled builds come to their end -/

/-- A cancelled build whose sink never lets it wait. -/
structure Pressed (token : Token) (d : Desk Store (Noted τ)) : Prop where
  cancelled : d.tokens.isCancelled token = true
  prompt : Prompt d.writer.sink.sink

namespace Pressed

variable {token : Token} {d : Desk Store (Noted τ)}

theorem write (h : Pressed token d) (f : Frame) :
    (d.write f).1 ≠ .blocked ∧ Pressed token (d.write f).2 := by
  obtain ⟨sent, after⟩ := h.prompt.send f
  obtain ⟨workshop, source, sink, kept⟩ := d
  simp only [Desk.write, Writer.write]
  split
  · refine ⟨?_, h⟩
    rintro ⟨⟩
  · cases kept with
    | some fs =>
      refine ⟨?_, h.cancelled, h.prompt⟩
      rintro ⟨⟩
    | none => exact ⟨sent, h.cancelled, after⟩

theorem dropSource (h : Pressed token d) : Pressed token d.dropSource := by
  obtain ⟨workshop, source, writer⟩ := d
  cases source with
  | none => exact h
  | some s => exact ⟨h.cancelled, h.prompt.uploadDone⟩

theorem withStore (h : Pressed token d) (s : Store) : Pressed token (d.withStore s) :=
  ⟨h.cancelled, h.prompt⟩

/-- **A cancelled build** does not wait for its upload. -/
theorem move (h : Pressed token d) (o : BuildOptions) (p : Phase) :
    GoesOn (fun _ => Pressed token) (p.move token o d) := by
  refine goesOn_move (fun _ f h => h.write f) (fun _ s _ h => h.withStore s)
    (fun _ h => h.dropSource) ?_ h o p
  intro d file threshold h
  rw [receive, if_pos h.cancelled]
  exact h

end Pressed

/-- **A cancelled build whose sink is prompt returns** after some moves of its own, whether its
upload is complete or not. -/
theorem exists_return_of_cancelled {events : List (ReceptionEvent τ)} {i : Nat}
    {seat : Seat (Noted τ)} {token : Token} {o : BuildOptions} {p : Phase}
    (hs : (Reception.watch events).floor.seats[i]? = some seat)
    (hj : seat.job = .running token o p)
    (cancelled : (Reception.watch events).tokens.isCancelled token = true)
    (prompt : Prompt seat.writer.sink.sink) :
    ∃ n x, (Reception.watch (events ++ List.replicate n (.move i))).return? i = some x ∧
      x.token = token := by
  obtain ⟨v, hv⟩ := (Reception.recorded_watch events).exists_visit hs
  have told := tells_watch events i seat v hs hv
  simp only [Seat.Tells, hj] at told
  obtain ⟨u, hu, -⟩ := told
  obtain ⟨n, x, q, d, returns, ht, -⟩ := exists_return_of_goesOn
    (P := fun _ => Pressed token) (fun p d h => h.move o p) hs hv hu hj ⟨cancelled, prompt⟩
  refine ⟨n, x, ?_, ht⟩
  rw [watch_moves]
  exact returns

/-! ## Cancelling at any point -/

/-- **Cancellation is safe at every point.** Take any build in flight, after any events.

If its token is cancelled then, by whatever, it takes nothing more from its upload, whatever
happens later; unless it had begun the line of its last instruction, it never tells of
success, and when it returns it fails, as cancelled or for a reason that comes first; and it
returns by its own moves alone if its sink is prompt.

Cancelled or not, it changes what the cache keeps in no move but the one that leaves it
nothing to do but to return its image. Without the cache it changes no record, and neither
does it when it is given up. -/
theorem cancellation_safe (events : List (ReceptionEvent τ)) {i : Nat} {seat : Seat (Noted τ)}
    (hs : (Reception.watch events).floor.seats[i]? = some seat) :
    (∀ token o p, seat.job = .running token o p →
      (Reception.watch events).tokens.isCancelled token = true →
      (∀ (after : List (ReceptionEvent τ)) (j : Nat) (later : Seat (Noted τ)),
        (Reception.watch (events ++ after)).floor.seats[j]? = some later →
        later.job.token? = some token → Source.Untaken seat.source later.source ∧
          (¬ seat.HasBegunLast → ∀ f ∈ later.writer.notes.taken, tellsSuccess f = false)) ∧
      (∀ after j x, (Reception.watch (events ++ after)).return? j = some x → x.token = token →
        ¬ seat.HasBegunLast →
          ∃ e, x.result = .error e ∧ Fails p o x.upload x.notes x.faults e) ∧
      (Prompt seat.writer.sink.sink → ∃ n x,
        (Reception.watch (events ++ List.replicate n (.move i))).return? i = some x ∧
          x.token = token)) ∧
    ((Reception.watch (events ++ [.move i])).store.kept = (Reception.watch events).store.kept ∨
      ∃ x id, (Reception.watch (events ++ [.move i])).return? i = some x ∧ x.result = .ok id) ∧
    (seat.job.options.noCache = true →
      (Reception.watch (events ++ [.move i])).store.records =
        (Reception.watch events).store.records) ∧
    (Reception.watch (events ++ [.giveUp i])).store.records =
      (Reception.watch events).store.records := by
  refine ⟨?_, Reception.kept_move events i, ?_, ?_⟩
  · intro token o p hj cancelled
    have heeds := Reception.Heeds.watch hs hj cancelled
    refine ⟨?_, ?_, exists_return_of_cancelled hs hj cancelled⟩
    · intro after j later hs' ht
      obtain ⟨v, hv⟩ := (Reception.recorded_watch (events ++ after)).exists_visit hs'
      obtain ⟨q, u, -, -, untaken, course⟩ := (heeds after).course j later v hs' hv ht
      exact ⟨untaken, fun early => (course early).silent⟩
    · intro after j x hx ht early
      exact (heeds after).fails early hx ht
  · intro uncached
    rw [Reception.watch_snoc]
    exact Reception.records_move_noCache hs uncached
  · rw [Reception.watch_snoc]
    exact Reception.records_giveUp _ i

/-- A build that is cancelled by its id before it takes a chunk leaves the upload alone, and it
fails. If it is cancelled while it writes the first chunk, it fails for a disk that is full. -/
theorem cancellation_safe_receiving :
    let o : BuildOptions := { buildId := some "nightly" }
    let u : Upload := ⟨[.chunk "one".toUTF8, .chunk "two".toUTF8], false⟩
    let begun (moves : Nat) : List (ReceptionEvent Recorder) :=
      [.request .newest, .arrive 0 o (some u) ⟨{}, none⟩] ++ List.replicate moves (.move 0) ++
        [.cancelId "nightly"]
    (∃ n x e, (Reception.watch (begun 2 ++ List.replicate n (.move 0))).return? 0 = some x ∧
      x.result = .error e ∧ Fails (.receiving 0 1048576) o x.upload x.notes x.faults e) ∧
    (Reception.watch (begun 2 ++ [.move 0])).store.kept = [] ∧
    ∃ x, (Reception.watch (begun 3 ++ [.disk (some "full"), .move 0, .move 0])).return? 0 =
        some x ∧ x.result = .error (.upload "full") ∧
      Fails (.writing 0 1048576 "one".toUTF8) o x.upload x.notes x.faults (.upload "full") := by
  intro o u begun
  let token : Token := ⟨1, [0]⟩
  have receiving : (Reception.watch (begun 2)).floor.seats[0]? = some
      ⟨.running token o (.receiving 0 1048576), some ⟨u, 0, false⟩, ⟨{ sink := {} }, none⟩⟩ := by
    rfl
  have writing : (Reception.watch (begun 3)).floor.seats[0]? = some
      ⟨.running token o (.writing 0 1048576 "one".toUTF8),
        some ⟨⟨[.chunk "two".toUTF8], false⟩, 3, false⟩, ⟨{ sink := {} }, none⟩⟩ := by rfl
  have early {p : Phase} {source : Option Source} (hp : ∀ c isKnown steps id,
      p ≠ .telling c isKnown steps id) :
      ¬ Seat.HasBegunLast ⟨.running token o p, source, ⟨{ sink := ({} : Recorder) }, none⟩⟩ := by
    rintro (⟨text, -, ⟨⟩⟩ | ⟨token, o, c, isKnown, text, rest, id, -, job⟩)
    exact hp _ _ _ _ (Job.running.inj job).2.2
  obtain ⟨safe, kept, -, -⟩ := cancellation_safe (begun 2) receiving
  obtain ⟨-, fails, returns⟩ := safe token o _ rfl (by decide)
  refine ⟨?_, ?_, ?_⟩
  · obtain ⟨n, x, hx, ht⟩ := returns (.recorder _)
    obtain ⟨e, he, reason⟩ := fails _ 0 x hx ht (early (by simp))
    exact ⟨n, x, e, hx, he, reason⟩
  · have empty : (Reception.watch (begun 2)).store.kept = [] := by decide
    have going : ((Reception.watch (begun 2 ++ [.move 0])).return? 0).isSome = false := by
      decide
    refine empty ▸ kept.resolve_right ?_
    rintro ⟨x, id, hx, -⟩
    rw [hx] at going
    cases going
  · obtain ⟨safe, -⟩ := cancellation_safe (begun 3) writing
    obtain ⟨-, fails, -⟩ := safe token o _ rfl (by decide)
    have returns : ((Reception.watch
        (begun 3 ++ [.disk (some "full"), .move 0, .move 0])).return? 0).map
          (fun x => (x.token, x.result)) = some (token, .error (.upload "full")) := by
      decide +kernel
    obtain ⟨x, hx, same⟩ := Option.map_eq_some_iff.1 returns
    obtain ⟨ht, result⟩ := Prod.mk.inj same
    obtain ⟨e, he, reason⟩ := fails _ 0 x hx ht (early (by simp))
    cases result.symm.trans he
    exact ⟨x, hx, result, reason⟩

end ContextEngine
end ImageBuild
