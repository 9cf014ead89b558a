import ImageBuild.ContextEngine.Basic
import ImageBuild.Proofs.Session
import ImageBuild.ScriptedEngine

/-!
# Engines that do not look at the response

A build sees the workshop, how much of its upload it has taken, and whether it
is quiet; of the way to the client it only learns whether a frame was taken. In
a move it does one thing, or none, and goes on as the answer tells. An engine is
oblivious if all of its builds are like that. The context engine is, and so are
the scripted ones. Most moves do not even look whether the build is quiet
(`Blindly`).
-/

namespace ImageBuild

/-- What a build sees of its desk. -/
structure View (σ : Type) where
  workshop : Workshop σ
  /-- how much of the upload was taken, unless it was put away -/
  received : Option Nat
  isQuiet : Bool

/-- What a build sees that does not look whether it is quiet. -/
structure Glimpse (σ : Type) where
  workshop : Workshop σ
  received : Option Nat

/-- A desk of which this is seen. -/
def Glimpse.desk {σ : Type} (g : Glimpse σ) : Desk σ Recorder :=
  ⟨g.workshop, g.received.map fun n => ⟨⟨[], false⟩, n, false⟩, ⟨{}, none⟩⟩

inductive Deed where
  | nothing
  | write (f : Frame)
  | take
  | putAway

/-- What a build learns from what it does. -/
inductive Answer where
  | done
  | sent (s : Sent)
  /-- what was taken from the upload, and how much it is now -/
  | found (p : Polled) (received : Nat)

def Answer.isOutstanding : Answer → Bool
  | .sent .blocked | .found .starved _ => true
  | _ => false

/-- How a build goes on, and what it makes of the workshop. -/
abbrev Sequel (ι σ ρ : Type) := Answer → Move ι ρ × Workshop σ

/-- The move of a build that is part of another one. -/
def Move.map {ι κ ρ : Type} (f : ι → κ) : Move ι ρ → Move κ ρ
  | .go next => .go (f next)
  | .wait => .wait
  | .stop result => .stop result

/-- A whole move: what is done and how it goes on. -/
structure Course (ι σ ρ : Type) where
  deed : Deed
  next : Sequel ι σ ρ
  /-- whether a deed without an answer leaves its mark on the desk -/
  isMarked : Bool := false

def Course.map {ι κ σ ρ : Type} (f : ι → κ) (c : Course ι σ ρ) : Course κ σ ρ :=
  ⟨c.deed, fun a => ((c.next a).1.map f, (c.next a).2), c.isMarked⟩

namespace Desk

variable {σ τ ι κ ρ : Type}

def view (d : Desk σ τ) : View σ := ⟨d.toWorkshop, d.source.map (·.bytesRead), d.writer.isQuiet⟩

def glimpse (d : Desk σ τ) : Glimpse σ := ⟨d.toWorkshop, d.source.map (·.bytesRead)⟩

theorem inWorkshop_of_eq {d : Desk σ τ} {w : Workshop σ} (h : d.toWorkshop = w) :
    d.inWorkshop w = d := by
  rw [← h]
  rfl

variable [Sink τ]

def perform (d : Desk σ τ) : Deed → Answer × Desk σ τ
  | .nothing => (.done, d)
  | .write f => (.sent (d.write f).1, (d.write f).2)
  | .take =>
    match d.source with
    | none => (.done, d)
    | some s => (.found s.next.1 s.next.2.bytesRead, (d.take s).2)
  | .putAway => (.done, d.dropSource)

/-- Whether a move does a deed and, when there is an answer, goes on as `next` says. -/
def Does (d : Desk σ τ) (deed : Deed) (next : Sequel ι σ ρ) (x : Move ι ρ × Desk σ τ) : Prop :=
  if (d.perform deed).1.isOutstanding then x.1 = .wait
  else x = ((next (d.perform deed).1).1, (d.perform deed).2.inWorkshop (next (d.perform deed).1).2)

/-- Whether a move takes a course. -/
def Takes (d : Desk σ τ) (c : Course ι σ ρ) (x : Move ι ρ × Desk σ τ) : Prop :=
  x = if (d.perform c.deed).1.isOutstanding then
      (.wait, if c.isMarked then (d.perform c.deed).2 else d)
    else ((c.next (d.perform c.deed).1).1,
      (d.perform c.deed).2.inWorkshop (c.next (d.perform c.deed).1).2)

theorem Takes.does {d : Desk σ τ} {c : Course ι σ ρ} {x : Move ι ρ × Desk σ τ} (h : d.Takes c x) :
    d.Does c.deed c.next x := by
  unfold Takes at h
  unfold Does
  split
  · next outstanding => rw [h, if_pos outstanding]
  · next answered => rw [h, if_neg answered]

theorem Takes.map {d : Desk σ τ} {c : Course ι σ ρ} {x : Move ι ρ × Desk σ τ} (h : d.Takes c x)
    (f : ι → κ) : d.Takes (c.map f) (x.1.map f, x.2) := by
  unfold Takes at h ⊢
  rw [h]
  unfold Course.map
  split <;> rfl

end Desk

/-- Whether what is done depends only on what can be seen, and how it goes on
only on the answer. -/
def Obliviously {ι σ ρ : Type}
    (move : {τ : Type} → [Sink τ] → Desk σ τ → Move ι ρ × Desk σ τ) : Prop :=
  ∀ v : View σ, ∃ (deed : Deed) (next : Sequel ι σ ρ),
    ∀ {τ : Type} [Sink τ] (d : Desk σ τ), d.view = v → d.Does deed next (move d)

/-- Whether what is done does not even depend on the build being quiet. -/
def Blindly {ι σ ρ : Type}
    (move : {τ : Type} → [Sink τ] → Desk σ τ → Move ι ρ × Desk σ τ) : Prop :=
  ∀ g : Glimpse σ, ∃ c : Course ι σ ρ,
    ∀ {τ : Type} [Sink τ] (d : Desk σ τ), d.glimpse = g → d.Takes c (move d)

/-- **An oblivious engine.** -/
def Engine.Oblivious (ι : Type) {σ : Type} [Engine ι σ] : Prop :=
  ∀ j : ι, Obliviously fun {_} [_] (d : Desk σ _) => Engine.move j d

section

variable {ι σ ρ : Type} {move : {τ : Type} → [Sink τ] → Desk σ τ → Move ι ρ × Desk σ τ}

theorem Obliviously.think (m : View σ → Move ι ρ) (f : View σ → Workshop σ)
    (h : ∀ {τ : Type} [Sink τ] (d : Desk σ τ), move d = (m d.view, d.inWorkshop (f d.view))) :
    Obliviously move := by
  intro v
  refine ⟨.nothing, fun _ => (m v, f v), ?_⟩
  intro τ _ d hd
  subst hd
  exact h d

namespace Blindly

theorem obliviously (h : Blindly move) : Obliviously move := by
  intro v
  obtain ⟨c, takes⟩ := h ⟨v.workshop, v.received⟩
  refine ⟨c.deed, c.next, ?_⟩
  intro τ _ d hd
  subst hd
  exact (takes d rfl).does

theorem think (m : Glimpse σ → Move ι ρ) (f : Glimpse σ → Workshop σ)
    (h : ∀ {τ : Type} [Sink τ] (d : Desk σ τ),
      move d = (m d.glimpse, d.inWorkshop (f d.glimpse))) : Blindly move := by
  intro g
  refine ⟨{ deed := .nothing, next := fun _ => (m g, f g) }, ?_⟩
  intro τ _ d hd
  subst hd
  exact h d

/-- Nothing is done, except to the workshop, and that as at any desk of which the same is seen. -/
theorem think_at
    (h : ∀ {τ : Type} [Sink τ] (d : Desk σ τ), move d =
      ((move d.glimpse.desk).1, d.inWorkshop (move d.glimpse.desk).2.toWorkshop)) :
    Blindly move :=
  think (fun g => (move g.desk).1) (fun g => (move g.desk).2.toWorkshop) h

theorem putAway (m : Glimpse σ → Move ι ρ) (f : Glimpse σ → Workshop σ)
    (h : ∀ {τ : Type} [Sink τ] (d : Desk σ τ),
      move d = (m d.glimpse, d.dropSource.inWorkshop (f d.glimpse))) : Blindly move := by
  intro g
  refine ⟨{ deed := .putAway, next := fun _ => (m g, f g) }, ?_⟩
  intro τ _ d hd
  subst hd
  exact h d

theorem offer (f : Glimpse σ → Frame) (next : ι) (failed : SinkError → Move ι ρ) :
    Blindly fun {_} [_] (d : Desk σ _) => d.offer (f d.glimpse) next failed := by
  intro g
  refine ⟨{ deed := .write (f g), isMarked := true, next := fun a => (match a with
    | .sent (.failed e) => failed e
    | _ => .go next, g.workshop) }, ?_⟩
  intro τ _ d hd
  subst hd
  have kept := Desk.inWorkshop_of_eq (d.write_toWorkshop (f d.glimpse))
  show d.Takes _ (d.offer (f d.glimpse) next failed)
  unfold Desk.Takes
  rcases d.offer_cases (f d.glimpse) next failed with ⟨hw, h⟩ | ⟨hw, h⟩ | ⟨e, hw, h⟩
  · simp only [Desk.perform, hw, h, Answer.isOutstanding, Bool.false_eq_true, if_false]
    exact congrArg _ kept.symm
  · simp only [Desk.perform, hw, h, Answer.isOutstanding, if_true]
  · simp only [Desk.perform, hw, h, Answer.isOutstanding, Bool.false_eq_true, if_false]
    exact congrArg _ kept.symm

end Blindly

end

/-! ## Builds from an uploaded context -/

namespace ContextEngine

variable {τ : Type}

theorem received_eq (d : Desk Store τ) : received d = d.glimpse.received.getD 0 := by
  unfold received Desk.glimpse
  cases d.source <;> rfl

/-- How a build goes on that has looked for the next chunk. -/
def afterTake (file threshold : Nat) (w : Workshop Store) :
    Sequel Phase Store (Except BuildError String)
  | .found (.chunk data) _ => (.go (.writing file threshold data), w)
  | .found (.fault reason) _ => (.go (.fail file (.upload reason)), w)
  | .found .paused _ => (.go (.receiving file threshold), w)
  | .found .ended _ => (.go (.flushing file), w)
  | _ => (.wait, w)

theorem takes_receive [Sink τ] {d : Desk Store τ} {s : Source} (token : Token)
    (file threshold : Nat) (hs : d.source = some s) (going : d.tokens.isCancelled token = false) :
    d.Takes { deed := .take, next := afterTake file threshold d.toWorkshop }
      (receive token file threshold d) := by
  have workshop := d.take_toWorkshop s
  have source := d.take_source s
  have polled : (d.take s).1 = s.next.1 := rfl
  unfold Desk.Takes
  simp only [Desk.perform, hs, receive, going, Bool.false_eq_true, if_false]
  rcases hn : s.next with ⟨found, s'⟩
  rcases ht : d.take s with ⟨taken, d'⟩
  rw [hn] at polled source
  rw [ht] at polled source workshop
  simp only at polled source workshop
  subst polled
  cases taken with
  | starved => rfl
  | chunk | fault | paused | ended =>
    simp only [Answer.isOutstanding, Bool.false_eq_true, if_false, afterTake]
    rw [← workshop]
    rfl

theorem blind_receive (token : Token) (file threshold : Nat) :
    Blindly fun {_} [_] (d : Desk Store _) => receive token file threshold d := by
  intro g
  cases hc : g.workshop.tokens.isCancelled token with
  | true =>
    refine ⟨{ deed := .nothing, next := fun _ => (.go (.fail file .canceled), g.workshop) }, ?_⟩
    intro τ _ d hd
    subst hd
    have hc : d.tokens.isCancelled token = true := hc
    simp only [receive, hc, if_true]
    rfl
  | false =>
    cases hr : g.received with
    | none =>
      refine ⟨{ deed := .nothing
                next := fun _ => (.go (.fail file .missingContext), g.workshop) }, ?_⟩
      intro τ _ d hd
      subst hd
      have hc : d.tokens.isCancelled token = false := hc
      have hs : d.source = none := Option.map_eq_none_iff.1 hr
      simp only [receive, hc, hs, Bool.false_eq_true, if_false]
      rfl
    | some n =>
      refine ⟨{ deed := .take, next := afterTake file threshold g.workshop }, ?_⟩
      intro τ _ d hd
      subst hd
      obtain ⟨s, hs, -⟩ := Option.map_eq_some_iff.1 hr
      exact takes_receive token file threshold hs hc

/-- **A phase** does one thing, which depends on what it sees. -/
theorem blind_phase (token : Token) (o : BuildOptions) (p : Phase) :
    Blindly fun {_} [_] (d : Desk Store _) => p.move token o d := by
  cases p with
  | opening | writing | flushing | inspecting | concluding | discarding | leaving =>
    refine .think_at ?_
    rintro τ _ ⟨workshop, source, writer⟩
    cases source <;> rfl
  | receiving file threshold => exact blind_receive token file threshold
  | reporting file threshold =>
    have offer := Blindly.offer (fun v : Glimpse Store => report (v.received.getD 0))
      (Phase.receiving file threshold)
      fun e => (.go (.fail file (.progress e)) : Move Phase (Except BuildError String))
    simp only [← received_eq] at offer
    exact offer
  | totalling file =>
    have offer := Blindly.offer (fun v : Glimpse Store => report (v.received.getD 0))
      (Phase.looking file)
      fun e => (.go (.fail file (.progress e)) : Move Phase (Except BuildError String))
    simp only [← received_eq] at offer
    exact offer
  | looking file =>
    let context (v : Glimpse Store) : ReceivedContext :=
      ⟨file, Digest.name (v.workshop.store.content file), v.received.getD 0⟩
    let touched (v : Glimpse Store) := v.workshop.store.touch (context v).digest
    refine .putAway
      (fun v => .go (if o.noCache then .inspecting (context v) false
        else if (touched v).1 then .noting (context v) else .inspecting (context v) false))
      (fun v => if o.noCache then v.workshop else { v.workshop with store := (touched v).2 }) ?_
    intro τ _ d
    have workshop := Desk.inWorkshop_of_eq d.dropSource_toWorkshop
    have store : d.dropSource.store = d.store := congrArg (·.store) d.dropSource_toWorkshop
    have tokens : d.dropSource.tokens = d.tokens := congrArg (·.tokens) d.dropSource_toWorkshop
    simp only [Phase.move, received_eq]
    by_cases hc : o.noCache = true
    · simp only [if_pos hc]
      exact congrArg _ workshop.symm
    · simp only [if_neg hc, store, Desk.withStore, tokens]
      rfl
  | noting c => exact .offer (fun _ => (Message.line (Plan.cachedLine c.digest)).frame) _ _
  | telling c isKnown steps id =>
    cases steps with
    | nil => exact .think_at fun d => rfl
    | cons step rest =>
      cases step with
      | check => exact .think_at fun d => rfl
      | line text => exact .offer (fun _ => (Message.line text).frame) _ _

theorem move_running [Sink τ] (token : Token) (o : BuildOptions) (p : Phase) (d : Desk Store τ) :
    (Job.running token o p).move d =
      ((p.move token o d).1.map (.running token o), (p.move token o d).2) := by
  simp only [Job.move]
  rcases p.move token o d with ⟨m, d'⟩
  cases m <;> rfl

/-- **The context engine does not look whether a build is quiet.** -/
theorem blind (j : Job) : Blindly fun {_} [_] (d : Desk Store _) => j.move d := by
  cases j with
  | arriving context o =>
    let token (v : Glimpse Store) := v.workshop.tokens.child context.token
    let entered (v : Glimpse Store) := v.workshop.store.register o.buildId (token v).1
    refine .think
      (fun v => match v.received, entered v with
        | none, _ => .stop (.error .missingContext)
        | some _, .error e => .stop (.error e)
        | some _, .ok _ => .go (.running (token v).1 o .opening))
      (fun v => match v.received, entered v with
        | none, _ => v.workshop
        | some _, .error _ => ⟨v.workshop.store, (token v).2⟩
        | some _, .ok store => ⟨store, (token v).2⟩) ?_
    intro τ _ d
    show arrive context o d = _
    unfold arrive
    cases hs : d.source with
    | none => simp only [Desk.glimpse, hs, Option.map_none]; rfl
    | some s =>
      simp only [Desk.glimpse, hs, Option.map_some, entered, token, Desk.inWorkshop]
      split
      · next e he => simp only [he]
      · next store he => simp only [he]; rfl
  | running token o p =>
    intro g
    obtain ⟨c, takes⟩ := blind_phase token o p g
    refine ⟨c.map (.running token o), ?_⟩
    intro τ _ d hd
    show d.Takes _ ((Job.running token o p).move d)
    rw [move_running]
    exact (takes d hd).map _

/-- **The context engine is oblivious.** -/
theorem oblivious : Engine.Oblivious Job := fun j => (blind j).obliviously

end ContextEngine

/-! ## Scripted builds -/

namespace ScriptedEngine

variable {τ : Type}

/-- The workshop when something has happened at the engine. -/
def noted (w : Workshop ScriptedEngine) (e : Event) : Workshop ScriptedEngine :=
  { w with store := { w.store with log := w.store.log ++ [e] } }

/-- How a build goes on that has looked for the next chunk, once or up to the end
of its upload, of which it had taken `before`. -/
def afterTake (j : Job) (a : Action) (rest : List Action) (before : Nat)
    (w : Workshop ScriptedEngine) : Sequel Job ScriptedEngine (Except BuildError String)
  | .found (.chunk data) _ =>
    match a with
    | .drain => (.go j, w)
    | _ => (.go (j.acting rest), noted w (.chunk data))
  | .found (.fault reason) _ => (.stop (.error (.upload reason)), w)
  | .found .paused _ => (.go j, w)
  | .found .ended _ =>
    (.go (j.acting rest), noted w (match a with
      | .drain => .drained before
      | _ => .ended))
  | _ => (.wait, w)

theorem takes_take [Sink τ] (j : Job) {a : Action} (rest : List Action)
    (ha : a = .read ∨ a = .drain) {d : Desk ScriptedEngine τ} {s : Source}
    (hs : d.source = some s) :
    d.Takes { deed := .take, next := afterTake j a rest s.bytesRead d.toWorkshop }
      (j.act a rest d) := by
  have workshop := d.take_toWorkshop s
  have polled : (d.take s).1 = s.next.1 := rfl
  unfold Desk.Takes
  rcases ha with rfl | rfl <;> simp only [Desk.perform, hs, Job.act]
  all_goals
    rcases hn : s.next with ⟨found, s'⟩
    rcases ht : d.take s with ⟨taken, d'⟩
    rw [hn] at polled
    rw [ht] at polled workshop
    simp only at polled workshop
    subst polled
    rw [← workshop]
    cases taken <;> rfl

theorem blind_act (j : Job) (a : Action) (rest : List Action) :
    Blindly fun {_} [_] (d : Desk ScriptedEngine _) => j.act a rest d := by
  have taking (ha : a = .read ∨ a = .drain) :
      Blindly fun {_} [_] (d : Desk ScriptedEngine _) => j.act a rest d := by
    intro g
    cases hr : g.received with
    | none =>
      refine ⟨{ deed := .nothing
                next := fun _ => (.stop (.error .missingContext), g.workshop) }, ?_⟩
      intro τ _ d hd
      subst hd
      have hs : d.source = none := Option.map_eq_none_iff.1 hr
      rcases ha with rfl | rfl <;> simp only [Job.act, hs] <;> rfl
    | some n =>
      refine ⟨{ deed := .take, next := afterTake j a rest n g.workshop }, ?_⟩
      intro τ _ d hd
      subst hd
      obtain ⟨s, hs, rfl⟩ := Option.map_eq_some_iff.1 hr
      exact takes_take j rest ha hs
  cases a with
  | write f => exact .offer (fun _ => f) _ _
  | read => exact taking (.inl rfl)
  | drain => exact taking (.inr rfl)
  | dropSource =>
    refine .putAway (fun _ => .go (j.acting rest)) (·.workshop) ?_
    intro τ _ d
    exact congrArg _ (Desk.inWorkshop_of_eq d.dropSource_toWorkshop).symm
  | cancel =>
    exact .think (fun _ => .go (j.acting rest))
      (fun v => { v.workshop with tokens := v.workshop.tokens.cancel j.context.token })
      fun d => rfl
  | check =>
    exact .think
      (fun v => if v.workshop.tokens.isCancelled j.context.token then .stop (.error .canceled)
        else .go (j.acting rest)) (·.workshop) fun d => rfl
  | awaitCancel =>
    exact .think
      (fun v => if v.workshop.tokens.isCancelled j.context.token then .stop (.error .canceled)
        else .wait) (·.workshop) fun d => rfl
  | finish result => exact .think (fun _ => .stop result) (·.workshop) fun d => rfl

/-- **Scripted engines are oblivious,** whatever their script. -/
theorem oblivious : Engine.Oblivious Job := by
  intro j
  rcases hp : j.phase with _ | rest
  · -- that there is an upload, and that the build is quiet, can be seen
    refine .think (fun v => .go (j.acting v.workshop.store.script))
      (fun v => noted v.workshop
        (.build j.context.version j.options.tags v.received.isSome v.isQuiet)) ?_
    intro τ _ d
    show j.move d = _
    simp only [Job.move, hp, Desk.view, Option.isSome_map]
    rfl
  · cases rest with
    | nil =>
      refine .think (fun _ => .stop defaultResult) (·.workshop) ?_
      intro τ _ d
      show j.move d = _
      simp only [Job.move, hp]
      rfl
    | cons a rest =>
      have act := (blind_act j a rest).obliviously
      have same {τ : Type} [Sink τ] (d : Desk ScriptedEngine τ) :
          Engine.move j d = j.act a rest d := by
        show j.move d = _
        simp only [Job.move, hp]
      intro v
      obtain ⟨deed, next, does⟩ := act v
      refine ⟨deed, next, fun d hd => ?_⟩
      show d.Does deed next (Engine.move j d)
      rw [same]
      exact does d hd

end ScriptedEngine
end ImageBuild
