import Mathlib.Logic.Function.Iterate
import ImageBuild.Proofs.Rejection

/-!
# Exchanges at rest

An exchange that has settled is at rest: its session waits, or is done, and nothing is
ready for the client. A session does not rest on a full channel, because then a frame is
ready. So there are two ways to be at rest for a build from an uploaded context: the
response has ended (`Exchange.ended_of_rest`), or the build waits for more of its upload
and is not cancelled (`Exchange.starves`).
-/

namespace ImageBuild
namespace Exchange

variable {ι σ : Type} [Engine ι σ] {e : Exchange ι} {w : Workshop σ}

/-- An exchange with its workshop after one step, if there is one. -/
def next (x : Exchange ι × Workshop σ) : Exchange ι × Workshop σ := (x.1.step? x.2).getD x

theorem settle_of_rest {x : Exchange ι × Workshop σ} {n : Nat}
    (rest : (next^[n] x).1.step? (next^[n] x).2 = none) : x.1.settle x.2 = next^[n] x := by
  induction n generalizing x with
  | zero => exact settle_none rest
  | succ n ih =>
    rw [Function.iterate_succ_apply] at rest ⊢
    rw [← ih rest, next]
    cases hstep : x.1.step? x.2 with
    | none => rfl
    | some y => exact settle_some hstep

theorem deliver?_of_blocked (h : e.channel.Governed) {f : Frame}
    (blocked : (e.channel.send f).1 = .blocked) : e.deliver?.isSome = true := by
  have ready : e.channel.IsReady := by
    refine e.channel.isReady_iff.2 (.inr fun empty => ?_)
    have full := Channel.capacity_le_of_blocked blocked
    rw [empty] at full
    exact absurd h.pos (Nat.not_lt.2 full)
  obtain ⟨g, hg⟩ := ready
  unfold deliver?
  rcases hr : e.channel.receive with ⟨received, c⟩
  rw [hr] at hg
  cases hg
  rfl

/-- **A session at rest** waits in its build, and nothing is ready for the client. -/
theorem waits_of_rest (h : e.channel.Governed) (rest : e.step? w = none) {s : Session ι}
    (hs : e.session = some s) :
    e.deliver? = none ∧ ∃ j, s = .building j ∧ (Engine.move j (e.desk w)).1 = .wait := by
  simp only [step?, hs] at rest
  rcases hm : s.move (e.desk w) with ⟨m, d⟩
  rw [hm] at rest
  cases m with
  | go | stop => cases rest
  | wait =>
    have nothing : e.deliver? = none := Option.map_eq_none_iff.1 rest
    refine ⟨nothing, ?_⟩
    cases s with
    | building j =>
      refine ⟨j, rfl, ?_⟩
      simp only [Session.move] at hm
      split at hm
      · cases hm
      · next d' waits => rw [waits]
      · cases hm
    | closing frames =>
      cases frames with
      | nil => cases hm
      | cons f frames =>
        -- a frame that has to wait stands behind one that is ready
        simp only [Session.move] at hm
        have blocked : ((e.desk w).write f).1 = .blocked := by
          split at hm
          · cases hm
          · next d' waits => rw [waits]
          · cases hm
        have ready := deliver?_of_blocked h (Desk.blocked_write blocked)
        rw [nothing] at ready
        cases ready

/-- **At the end of a response** its session is done, and the client has taken everything. -/
theorem ended_of_rest {results : List (Except BuildError String)} (h : e.Sound results)
    (rest : e.step? w = none) (hs : e.session = none) : e.channel.receive.1 = .ended := by
  have nothing : e.deliver? = none := by
    simp only [step?, hs] at rest
    exact Option.map_eq_none_iff.1 rest
  unfold Sound at h
  rw [hs] at h
  obtain ⟨isOpen, -⟩ := h
  unfold deliver? at nothing
  rcases hr : e.channel.receive with ⟨received, c⟩
  rw [hr] at nothing
  rcases e.channel.receive_cases with ⟨x, rest, -, -, hx⟩ | ⟨f, rest, -, -, hx⟩ | ⟨-, -, hx⟩ <;>
    rw [hr] at hx <;> cases hx
  · cases nothing
  · cases nothing
  · simp [isOpen]

end Exchange

/-! ## Builds at rest -/

namespace ContextEngine

/-- **A build waits** for a frame to be taken, or for more of its upload. -/
theorem Phase.wait_cases {τ : Type} [Sink τ] {token : Token} {o : BuildOptions} {p : Phase}
    {d : Desk Store τ} (h : (p.move token o d).1 = .wait) :
    (∃ f, (d.write f).1 = .blocked) ∨ ∃ file threshold s, p = .receiving file threshold ∧
      d.tokens.isCancelled token = false ∧ d.source = some s ∧ s.next.1 = .starved := by
  have offered (f : Frame) (next : Phase) (failed : SinkError → Phase)
      (hw : (d.offer f next fun e =>
        (.go (failed e) : Move Phase (Except BuildError String))).1 = .wait) :
      ∃ f, (d.write f).1 = .blocked := by
    rcases d.offer_cases f next
      (fun e => (.go (failed e) : Move Phase (Except BuildError String)))
      with ⟨-, ho⟩ | ⟨blocked, -⟩ | ⟨e, -, ho⟩
    · rw [ho] at hw
      cases hw
    · exact ⟨f, blocked⟩
    · rw [ho] at hw
      cases hw
  cases p with
  | receiving file threshold =>
    right
    simp only [Phase.move, receive] at h
    split at h
    · cases h
    · next going =>
      split at h
      · cases h
      · next s hs =>
        refine ⟨file, threshold, s, rfl, by simpa using going, hs, ?_⟩
        have polled : (d.take s).1 = s.next.1 := rfl
        rw [← polled]
        split at h
        · next ht => rw [ht]
        all_goals cases h
  | reporting | totalling | noting => exact .inl (offered _ _ _ h)
  | looking file =>
    simp only [Phase.move] at h
    split at h <;> cases h
  | telling c isKnown steps id =>
    cases steps with
    | nil => cases h
    | cons step rest =>
      cases step with
      | check => cases h
      | line text => exact .inl (offered _ _ _ h)
  | opening | writing | flushing | inspecting | concluding | discarding | leaving => cases h

end ContextEngine

open ContextEngine in
/-- **An exchange at rest** whose session is not done: the build waits for more of its upload,
which is open, and it is not cancelled. -/
theorem Exchange.starves {e : Exchange Job} {w : Workshop Store} (h : e.channel.Governed)
    (rest : e.step? w = none) {s : Session Job} (hs : e.session = some s) :
    ∃ token o file threshold x, s = .building (.running token o (.receiving file threshold)) ∧
      w.tokens.isCancelled token = false ∧ e.source = some x ∧ x.upload.isClosed = false := by
  obtain ⟨nothing, j, rfl, waits⟩ := waits_of_rest h rest hs
  change (Job.move j (e.desk w)).1 = .wait at waits
  cases j with
  | arriving context o =>
    simp only [Job.move, arrive] at waits
    split at waits
    · cases waits
    · split at waits <;> cases waits
  | running token o p =>
    have stuck : (p.move token o (e.desk w)).1 = .wait := by
      simp only [Job.move] at waits
      split at waits
      · cases waits
      · next d hm => rw [hm]
      · cases waits
    rcases Phase.wait_cases stuck with ⟨f, blocked⟩ | ⟨file, threshold, x, rfl, going, hx, starved⟩
    · have ready := deliver?_of_blocked h (Desk.blocked_write blocked)
      rw [nothing] at ready
      cases ready
    · refine ⟨token, o, file, threshold, x, rfl, going, hx, ?_⟩
      exact Bool.eq_false_iff.2 fun closed => Source.next_ne_starved closed starved

end ImageBuild
