import ImageBuild.Proofs.Channel
import ImageBuild.Proofs.Conduct
import ImageBuild.Service

/-!
# One exchange

An exchange is followed from its beginning to the end of its response, whatever
the other exchanges do to the workshop in between. As long as the build goes on
everything on the way to the client is progress (`Flows`); then the frame that
tells how the build ended is the last one of what was delivered, what is on the
way and what is still to be sent (`Drains`). `Sound` puts the phases together
and is kept by a move of the session and by a delivery.
-/

namespace ImageBuild

open Message

namespace Channel

/-- The frames on the way to the client, in their order. -/
def onWay (c : Channel) : List Frame := c.gate.held.map (·.frame) ++ c.queue

@[simp] theorem onWay_release (c : Channel) : c.release.onWay = c.onWay := by simp [onWay]

@[simp] theorem onWay_close (c : Channel) : c.close.onWay = c.onWay := by simp [onWay]

theorem receive_onWay {c c' : Channel} {f : Frame} (h : c.receive = (.frame f, c'))
    (hq : c.gate.isHolding = true → c.queue = []) :
    c.onWay = f :: c'.onWay ∧ c'.isOpen = c.isOpen ∧ c'.hasReader = c.hasReader ∧
      c'.gate.isHolding = false ∧ c.gate.isHolding = false := by
  rcases c.receive_cases with ⟨x, rest, hh, hg, hr⟩ | ⟨g, rest, hg, hc, hr⟩ | ⟨-, -, hr⟩
  · rw [hr] at h
    cases h
    refine ⟨?_, rfl, rfl, hh, hh⟩
    simp [onWay, hg]
  · rw [hr] at h
    cases h
    have hh : c.gate.isHolding = false := by
      refine Bool.eq_false_iff.2 fun hh => ?_
      rw [hq hh] at hc
      cases hc
    have hheld : c.gate.held = [] := by
      rcases hg with hg | hg
      · rw [hh] at hg
        cases hg
      · exact hg
    refine ⟨?_, rfl, rfl, hh, hh⟩
    simp [onWay, hheld, hc]
  · rw [hr] at h
    split at h <;> cases h

end Channel

/-- **While a build goes on,** what it has written and what is on the way is
progress. The gate holds only as long as there is an upload. -/
structure Flows (source : Option Source) (w : Writer Channel) : Prop where
  isOpen : w.sink.isOpen = true
  hasReader : w.sink.hasReader = true
  holding : w.sink.gate.isHolding = true → source.isSome = true ∧ w.sink.queue = []
  onWay : ∀ f ∈ w.sink.onWay, IsProgress f
  kept : ∀ fs, w.kept = some fs → ∀ f ∈ fs, IsProgress f

namespace Flows

variable {ι σ : Type} {source : Option Source} {w : Writer Channel}

theorem release (h : Flows source w) (source' : Option Source) :
    Flows source' { w with sink := w.sink.release } := by
  refine ⟨h.isOpen, h.hasReader, ?_, ?_, h.kept⟩
  · intro hh
    simp at hh
  · show ∀ f ∈ w.sink.release.onWay, IsProgress f
    rw [w.sink.onWay_release]
    exact h.onWay

theorem write (h : Flows source w) {f : Frame} (hf : IsProgress f) :
    Flows source (w.write f).2 := by
  unfold Writer.write
  split
  · exact h
  · split
    · next fs hk =>
      refine ⟨h.isOpen, h.hasReader, h.holding, h.onWay, ?_⟩
      rintro _ ⟨⟩ g hg
      rcases Array.mem_push.1 hg with hg | rfl
      · exact h.kept fs hk g hg
      · exact hf
    · show Flows source { w with sink := (w.sink.send f).2 }
      rcases w.sink.send_cases f with ⟨hh, hs⟩ | ⟨-, hr, -⟩ | ⟨hh, -, hs⟩ | ⟨-, -, hs⟩
      · -- the gate may drop a frame, but keeps no other ones
        rw [hs]
        obtain ⟨-, hq⟩ := h.holding hh
        refine ⟨h.isOpen, h.hasReader, h.holding, ?_, h.kept⟩
        obtain ⟨kept, hheld, hsub⟩ := Gate.hold_held w.sink.gate f
        intro g hg
        simp only [Channel.onWay, hheld, hq, List.append_nil, List.map_append, List.mem_append,
          List.map_cons, List.map_nil, List.mem_singleton] at hg
        rcases hg with hg | rfl
        · refine h.onWay g ?_
          exact List.mem_append_left _ ((hsub.map _).subset hg)
        · exact hf
      · rw [h.hasReader] at hr
        cases hr
      · rw [hs]
        refine ⟨h.isOpen, h.hasReader, ?_, ?_, h.kept⟩
        · intro (hc : w.sink.gate.isHolding = true)
          rw [hh] at hc
          cases hc
        · intro g hg
          have : g ∈ w.sink.onWay ++ [f] := by
            simpa [Channel.onWay, List.append_assoc] using hg
          rcases List.mem_append.1 this with hg | hg
          · exact h.onWay g hg
          · rw [List.mem_singleton] at hg
            exact hg ▸ hf
      · rw [hs]
        exact h

/-- **Acts of the build** let progress flow on. -/
theorem acts {d d' : Desk σ Channel} (h : Flows d.source d.writer)
    (ha : Desk.Acts IsProgress d d') : Flows d'.source d'.writer := by
  induction ha with
  | nothing => exact h
  | inWorkshop _ _ ih => exact ih
  | @take d' s _ hs ih =>
    unfold Desk.take
    split
    · exact ih.release _
    · refine ⟨ih.isOpen, ih.hasReader, fun hh => ⟨rfl, (ih.holding hh).2⟩, ih.onWay, ih.kept⟩
  | @dropSource d' _ ih =>
    unfold Desk.dropSource
    split
    · exact ih
    · exact ih.release _
  | write _ hf ih => exact ih.write hf

theorem openChannel (s : Service ι σ) (source : Option Source) :
    Flows source ⟨s.openChannel source.isSome, none⟩ := by
  have fresh : Flows source ⟨Channel.new s.settings.progressBuffer s.settings.fullDuplex, none⟩ := by
    refine ⟨rfl, rfl, ?_, ?_, ?_⟩
    · intro hh
      cases hh
    · intro f hf
      cases hf
    · intro fs hfs
      cases hfs
  unfold Service.openChannel
  dsimp only
  split
  · next hsource => exact ⟨rfl, rfl, fun _ => ⟨hsource, rfl⟩, fresh.onWay, fresh.kept⟩
  · exact fresh

/-- **A build begins:** leave to respond early may be given, and a quiet build
begins to keep what it writes. -/
theorem start [Engine ι σ] {d : Desk σ Channel} (h : Flows d.source d.writer) (x : Context)
    (b : DecodedBuild) :
    Flows (Session.start (ι := ι) x b d).2.source (Session.start (ι := ι) x b d).2.writer := by
  have kept (sink : Channel) (hsink : Flows d.source { d.writer with sink := sink }) :
      Flows d.source ⟨sink, if b.options.quiet then some #[] else none⟩ := by
    refine ⟨hsink.isOpen, hsink.hasReader, hsink.holding, hsink.onWay, ?_⟩
    intro fs hfs f hf
    split at hfs
    · cases hfs
      simp at hf
    · cases hfs
  refine kept _ ?_
  split
  · rcases d.writer.sink.enableDuplex_cases with hs | hs
    · show Flows d.source { d.writer with sink := d.writer.sink.enableDuplex.2 }
      rw [hs]
      have := h.release d.source
      exact ⟨this.isOpen, this.hasReader, this.holding, this.onWay, this.kept⟩
    · show Flows d.source { d.writer with sink := d.writer.sink.enableDuplex.2 }
      rw [hs]
      exact h
  · exact h

end Flows

/-- **When the build has ended,** the frame that tells how is the last one of
what was delivered, what is on the way and what is still to be sent. -/
structure Drains (result : Except BuildError String) (delivered : List Frame)
    (w : Writer Channel) (left : List Frame) : Prop where
  hasReader : w.sink.hasReader = true
  open_ : w.sink.gate.isHolding = false
  kept : w.kept = none
  frames : ∃ before, delivered ++ w.sink.onWay ++ left = before ++ [(ofResult result).frame] ∧
    ∀ f ∈ before, IsProgress f

namespace Drains

variable {result : Except BuildError String} {delivered : List Frame} {w : Writer Channel}
  {f : Frame} {left : List Frame}

theorem write (h : Drains result delivered w (f :: left)) (hf : f ≠ []) :
    ((w.write f).1 = .accepted ∧ (w.write f).2.sink.isOpen = w.sink.isOpen ∧
      Drains result delivered (w.write f).2 left) ∨
    (w.write f).1 = .blocked := by
  have he : f.isEmpty = false := by simpa using hf
  have hw : w.write f = ((w.sink.send f).1, { w with sink := (w.sink.send f).2 }) := by
    simp only [Writer.write, he, Bool.false_eq_true, if_false, h.kept]
    rfl
  rw [hw]
  rcases w.sink.send_cases f with ⟨hh, -⟩ | ⟨-, hr, -⟩ | ⟨-, -, hs⟩ | ⟨-, -, hs⟩
  · rw [h.open_] at hh
    cases hh
  · rw [h.hasReader] at hr
    cases hr
  · rw [hs]
    refine .inl ⟨rfl, rfl, h.hasReader, h.open_, h.kept, ?_⟩
    obtain ⟨before, hb, hp⟩ := h.frames
    refine ⟨before, ?_, hp⟩
    rw [← hb]
    simp [Channel.onWay]
  · rw [hs]
    exact .inr rfl

end Drains

namespace Exchange

variable {ι σ : Type} {e e' : Exchange ι} {results : List (Except BuildError String)}

/-- **A sound exchange.** `results` are the results that its build has returned. -/
def Sound (e : Exchange ι) (results : List (Except BuildError String)) : Prop :=
  match e.session with
  | some (.building _) => results = [] ∧ Flows e.source e.writer ∧
      (∀ f ∈ e.delivered.toList, IsProgress f)
  | some (.closing left) => (∀ f ∈ left, f ≠ []) ∧ e.channel.isOpen = true ∧
      ∃ result, results = [result] ∧ Drains result e.delivered.toList e.writer left
  | none => e.channel.isOpen = false ∧
      ∃ result, results = [result] ∧ Drains result e.delivered.toList e.writer []

theorem sound_building {j : ι} (hs : e.session = some (.building j)) :
    e.Sound results ↔ results = [] ∧ Flows e.source e.writer ∧
      (∀ f ∈ e.delivered.toList, IsProgress f) := by
  unfold Sound
  rw [hs]

theorem sound_closing {left : List Frame} (hs : e.session = some (.closing left)) :
    e.Sound results ↔ (∀ f ∈ left, f ≠ []) ∧ e.channel.isOpen = true ∧
      ∃ result, results = [result] ∧ Drains result e.delivered.toList e.writer left := by
  unfold Sound
  rw [hs]

/-! ## A delivery -/

theorem deliver?_cases (h : e.deliver? = some e') :
    ∃ f c, e' = { e.withChannel c with delivered := e.delivered.push f } ∧
      e.channel.receive = (.frame f, c) := by
  unfold deliver? at h
  split at h
  · next f c hr =>
    cases h
    exact ⟨f, c, rfl, hr⟩
  · cases h

/-- **A delivery** keeps an exchange sound. -/
theorem Sound.deliver (h : e.Sound results) (hd : e.deliver? = some e') : e'.Sound results := by
  obtain ⟨f, c, rfl, hr⟩ := deliver?_cases hd
  unfold Sound at h ⊢
  show match e.session with
    | some (.building _) => _
    | some (.closing left) => _
    | none => _
  -- after the build nothing is held back, so what is taken is the front of the way
  have drains {result left} (hf : Drains result e.delivered.toList e.writer left) :
      c.isOpen = e.channel.isOpen ∧
        Drains result (e.delivered.push f).toList { e.writer with sink := c } left := by
    have free : e.channel.gate.isHolding = false := hf.open_
    obtain ⟨hway, hopen, hreader, hhold, -⟩ := Channel.receive_onWay hr fun hh => by
      rw [free] at hh
      cases hh
    refine ⟨hopen, hreader.trans hf.hasReader, hhold, hf.kept, ?_⟩
    obtain ⟨before, hb, hp⟩ := hf.frames
    refine ⟨before, ?_, hp⟩
    rw [← hb]
    show (e.delivered.push f).toList ++ c.onWay ++ left = _ ++ e.channel.onWay ++ left
    rw [hway]
    simp
  split at h
  · obtain ⟨hres, hflow, hdel⟩ := h
    obtain ⟨hway, hopen, hreader, hhold, -⟩ :=
      Channel.receive_onWay hr fun hh => (hflow.holding hh).2
    have all : ∀ g ∈ f :: c.onWay, IsProgress g := hway ▸ hflow.onWay
    refine ⟨hres, ⟨hopen.trans hflow.isOpen, hreader.trans hflow.hasReader, ?_, ?_, hflow.kept⟩, ?_⟩
    · intro (hh : c.gate.isHolding = true)
      rw [hhold] at hh
      cases hh
    · exact fun g hg => all g (List.mem_cons_of_mem _ hg)
    · intro g hg
      have : g ∈ (e.delivered.push f).toList := hg
      rw [Array.toList_push, List.mem_append, List.mem_singleton] at this
      rcases this with hg | rfl
      · exact hdel g hg
      · exact all g (List.mem_cons_self ..)
  · obtain ⟨hne, ho, result, hres, hf⟩ := h
    obtain ⟨hopen, hdr⟩ := drains hf
    exact ⟨hne, hopen.trans ho, result, hres, hdr⟩
  · obtain ⟨ho, result, hres, hf⟩ := h
    obtain ⟨hopen, hdr⟩ := drains hf
    exact ⟨hopen.trans ho, result, hres, hdr⟩

/-! ## The end of a build -/

/-- The frames that tell how a build ended are what a quiet build has to show and
one more. -/
theorem frames_lastFrames {kept : Option (Array Frame)}
    (h : ∀ fs, kept = some fs → ∀ f ∈ fs, IsProgress f) (result : Except BuildError String) :
    ∃ before, Session.lastFrames kept result = before ++ [(ofResult result).frame] ∧
      ∀ f ∈ before, IsProgress f := by
  cases result with
  | ok id =>
    refine ⟨_, rfl, ?_⟩
    intro f hf
    split at hf
    · rw [List.mem_singleton] at hf
      exact hf ▸ isProgress_line _
    · cases hf
  | error e =>
    refine ⟨_, rfl, ?_⟩
    intro f hf
    split at hf
    · cases hf
    · rw [List.mem_singleton] at hf
      rw [hf]
      cases kept with
      | none => exact ⟨[], rfl, by simp⟩
      | some fs => exact isProgress_flatten fun g hg => h fs rfl g (Array.mem_toList_iff.1 hg)

/-- Closing puts the upload away, which releases the gate. -/
theorem drains_close {d : Desk σ Channel} {delivered : List Frame} (h : Flows d.source d.writer)
    (hd : ∀ f ∈ delivered, IsProgress f) (result : Except BuildError String) :
    (Session.close (ι := ι) d result).2.writer.sink.isOpen = true ∧
      Drains result delivered (Session.close (ι := ι) d result).2.writer
        (Session.lastFrames d.writer.kept result) := by
  have released : d.dropSource.writer.sink.gate.isHolding = false ∧
      d.dropSource.writer.sink.onWay = d.writer.sink.onWay ∧
      d.dropSource.writer.sink.isOpen = true ∧ d.dropSource.writer.sink.hasReader = true := by
    unfold Desk.dropSource
    split
    · next hs =>
      refine ⟨Bool.eq_false_iff.2 fun hh => ?_, rfl, h.isOpen, h.hasReader⟩
      have := (h.holding hh).1
      rw [hs] at this
      cases this
    · refine ⟨?_, ?_, h.isOpen, h.hasReader⟩
      · show d.writer.sink.release.gate.isHolding = false
        simp
      · show d.writer.sink.release.onWay = _
        simp
  obtain ⟨hhold, hway, hopen, hreader⟩ := released
  obtain ⟨before, hlast, hbefore⟩ := frames_lastFrames h.kept result
  refine ⟨hopen, hreader, hhold, rfl, delivered ++ d.writer.sink.onWay ++ before, ?_, ?_⟩
  · show delivered ++ d.dropSource.writer.sink.onWay ++ Session.lastFrames d.writer.kept result = _
    rw [hway, hlast]
    simp only [List.append_assoc]
  · intro f hf
    simp only [List.mem_append] at hf
    rcases hf with (hf | hf) | hf
    · exact hd f hf
    · exact h.onWay f hf
    · exact hbefore f hf

/-! ## A move -/

section Moves

variable [Engine ι σ]

/-- The session makes a move, if it is not done and need not wait. -/
def move (e : Exchange ι) (w : Workshop σ) : Exchange ι × Workshop σ :=
  match e.session with
  | none => (e, w)
  | some s =>
    match s.move (e.desk w) with
    | (.go s', d) => (e.leave d (some s'), d.toWorkshop)
    | (.stop _, d) =>
      ((e.leave d none).withChannel (e.leave d none).channel.close, d.toWorkshop)
    | (.wait, _) => (e, w)

section Cases

variable {s s' : Session ι} {w : Workshop σ} {d : Desk σ Channel}

theorem move_none (hs : e.session = none) (w : Workshop σ) : e.move w = (e, w) := by
  simp only [move, hs]

theorem move_wait (hs : e.session = some s) (hm : s.move (e.desk w) = (.wait, d)) :
    e.move w = (e, w) := by
  simp only [move, hs, hm]

theorem move_go (hs : e.session = some s) (hm : s.move (e.desk w) = (.go s', d)) :
    e.move w = (e.leave d (some s'), d.toWorkshop) := by
  simp only [move, hs, hm]

theorem move_stop {result : Except SinkError Unit} (hs : e.session = some s)
    (hm : s.move (e.desk w) = (.stop result, d)) :
    e.move w = ((e.leave d none).withChannel d.writer.sink.close, d.toWorkshop) := by
  simp only [move, hs, hm]
  rfl

end Cases

/-- What the build returns, if it ends in the next move. -/
def returns? (e : Exchange ι) (w : Workshop σ) : Option (Except BuildError String) :=
  match e.session with
  | some (.building j) =>
    match Engine.move j (e.desk w) with
    | (.stop result, _) => some result
    | _ => none
  | _ => none

/-- **A step** of an exchange is a move or a delivery. -/
theorem step?_cases {w w' : Workshop σ} (h : e.step? w = some (e', w')) :
    (e', w') = e.move w ∨ e.deliver? = some e' ∧ w' = w := by
  have delivered (hd : e.deliver?.map (fun e => (e, w)) = some (e', w')) :
      e.deliver? = some e' ∧ w' = w := by
    obtain ⟨e'', hd', he⟩ := Option.map_eq_some_iff.1 hd
    cases he
    exact ⟨hd', rfl⟩
  unfold step? at h
  split at h
  · exact .inr (delivered h)
  · next s hs =>
    split at h
    · next hm =>
      cases h
      exact .inl (by simp only [move, hs, hm])
    · next hm =>
      cases h
      exact .inl (by simp only [move, hs, hm])
    · exact .inr (delivered h)

theorem settle_none {w : Workshop σ} (h : e.step? w = none) : e.settle w = (e, w) := by
  rw [settle]
  split
  · rfl
  · next h' =>
    rw [h] at h'
    cases h'

theorem settle_some {w w' : Workshop σ} (h : e.step? w = some (e', w')) :
    e.settle w = e'.settle w' := by
  rw [settle]
  split
  · next h' =>
    rw [h] at h'
    cases h'
  · next h' =>
    rw [h] at h'
    cases h'
    rfl

/-- **What moves and deliveries keep** is kept while an exchange settles. -/
theorem settle_keeps {P : Exchange ι → Workshop σ → Prop}
    (move : ∀ e w, P e w → P (e.move w).1 (e.move w).2)
    (deliver : ∀ e e' w, P e w → e.deliver? = some e' → P e' w) {w : Workshop σ} (h : P e w) :
    P (e.settle w).1 (e.settle w).2 := by
  induction e, w using Exchange.settle.induct with
  | case1 e w hnone =>
    rw [settle_none hnone]
    exact h
  | case2 e w e' w' hsome ih =>
    rw [settle_some hsome]
    apply ih
    rcases step?_cases hsome with moved | ⟨delivered, rfl⟩
    · have kept := move e w h
      rwa [← moved] at kept
    · exact deliver e e' w' h delivered

/-- **An exchange that has settled** is at rest. -/
theorem step?_settle (e : Exchange ι) (w : Workshop σ) :
    (e.settle w).1.step? (e.settle w).2 = none := by
  induction e, w using Exchange.settle.induct with
  | case1 e w hnone =>
    rw [settle_none hnone]
    exact hnone
  | case2 e w e' w' hsome ih =>
    rw [settle_some hsome]
    exact ih

theorem Sound.move_building
    (acts : ∀ (j : ι) (d : Desk σ Channel), Desk.Acts IsProgress d (Engine.move j d).2)
    (h : e.Sound results) {j : ι} (hs : e.session = some (.building j)) (w : Workshop σ) :
    (e.move w).1.Sound (results ++ (e.returns? w).toList) := by
  obtain ⟨rfl, hflow, hdel⟩ := (sound_building hs).1 h
  have hacts := acts j (e.desk w)
  rcases hm : Engine.move j (e.desk w) with ⟨m, d⟩
  rw [hm] at hacts
  have flows : Flows d.source d.writer := Flows.acts (d := e.desk w) hflow hacts
  -- only a build that stops returns something; what is to be sent then is in its last frames
  cases m with
  | go k =>
    have hr : e.returns? w = none := by simp only [returns?, hs, hm]
    have hmove : e.move w = (e.leave d (some (.building k)), d.toWorkshop) := by
      simp only [Exchange.move, hs, Session.move, hm]
    rw [hr, hmove]
    exact ⟨rfl, flows, hdel⟩
  | wait =>
    have hr : e.returns? w = none := by simp only [returns?, hs, hm]
    have hmove : e.move w = (e, w) := by simp only [Exchange.move, hs, Session.move, hm]
    rw [hr, hmove]
    exact (sound_building hs).2 ⟨rfl, hflow, hdel⟩
  | stop result =>
    have hr : e.returns? w = some result := by simp only [returns?, hs, hm]
    have hmove : e.move w = (e.leave (Session.close (ι := ι) d result).2
        (some (.closing (Session.lastFrames d.writer.kept result))),
        (Session.close (ι := ι) d result).2.toWorkshop) := by
      simp only [Exchange.move, hs, Session.move, hm]
      rfl
    obtain ⟨hopen, hdrain⟩ := drains_close (ι := ι) flows hdel result
    rw [hr, hmove]
    exact ⟨fun f => Session.ne_nil_of_mem_lastFrames, hopen, result, rfl, hdrain⟩

theorem Sound.move_closing (h : e.Sound results) {left : List Frame}
    (hs : e.session = some (.closing left)) (w : Workshop σ) : (e.move w).1.Sound results := by
  obtain ⟨hne, hopen, result, rfl, hdrain⟩ := (sound_closing hs).1 h
  cases left with
  | nil =>
    have hmove : e.move w = ((e.leave (e.desk w) none).withChannel e.channel.close, w) := by
      simp only [Exchange.move, hs, Session.move]
      rfl
    rw [hmove]
    -- the sender is gone; what is on the way is still delivered
    refine ⟨rfl, result, rfl, hdrain.hasReader, ?_, hdrain.kept, ?_⟩
    · show e.channel.close.gate.isHolding = false
      simp
    · show ∃ before, e.delivered.toList ++ e.channel.close.onWay ++ [] = _ ∧ _
      rw [e.channel.onWay_close]
      exact hdrain.frames
  | cons f left =>
    rcases hw : e.writer.write f with ⟨sent, writer⟩
    have hdesk : (e.desk w).write f = (sent, { e.desk w with writer }) := by
      unfold Desk.write
      simp only [desk, hw]
    rcases hdrain.write (hne f (List.mem_cons_self ..)) with ⟨ha, ho, hd⟩ | hb
    · rw [hw] at ha ho hd
      cases ha
      have hmove : e.move w =
          (e.leave { e.desk w with writer } (some (.closing left)), w) := by
        simp only [Exchange.move, hs, Session.move, hdesk]
        rfl
      rw [hmove]
      exact ⟨fun g hg => hne g (List.mem_cons_of_mem _ hg), ho.trans hopen, result, rfl, hd⟩
    · rw [hw] at hb
      cases hb
      have hmove : e.move w = (e, w) := by
        simp only [Exchange.move, hs, Session.move, hdesk]
      rw [hmove]
      exact h

/-- **A move** keeps an exchange sound, if the builds of the engine write only
progress. -/
theorem Sound.move
    (acts : ∀ (j : ι) (d : Desk σ Channel), Desk.Acts IsProgress d (Engine.move j d).2)
    (h : e.Sound results) (w : Workshop σ) :
    (e.move w).1.Sound (results ++ (e.returns? w).toList) := by
  -- a session that is not building has returned already
  have returned (hr : e.returns? w = none) (hsound : (e.move w).1.Sound results) :
      (e.move w).1.Sound (results ++ (e.returns? w).toList) := by
    rw [hr]
    simpa using hsound
  cases hs : e.session with
  | none =>
    have hmove : e.move w = (e, w) := by simp only [Exchange.move, hs]
    exact returned (by simp only [returns?, hs]) (by rwa [hmove])
  | some s =>
    cases s with
    | building j => exact h.move_building acts hs w
    | closing left => exact returned (by simp only [returns?, hs]) (h.move_closing hs w)

end Moves

/-! ## Everything else -/

/-- **Time** changes nothing but the workshop. -/
theorem Sound.expire (h : e.Sound results) (now : Nat) (w : Workshop σ) :
    (e.expire now w).1.Sound results := by
  unfold Exchange.expire
  split
  · exact h
  · split
    · exact h
    · exact h

/-- **More of an upload** keeps an exchange sound. -/
theorem Sound.upload (h : e.Sound results) (f : Source → Source) :
    ({ e with source := e.source.map f }).Sound results := by
  unfold Sound at h ⊢
  show match e.session with
    | some (.building _) => _
    | some (.closing left) => _
    | none => _
  split at h
  · obtain ⟨hres, hflow, hdel⟩ := h
    refine ⟨hres, ⟨hflow.isOpen, hflow.hasReader, ?_, hflow.onWay, hflow.kept⟩, hdel⟩
    intro hh
    rw [Option.isSome_map]
    exact hflow.holding hh
  · exact h
  · exact h

/-! ## The end of the response -/

/-- The head of the response, once it is out. -/
def head? (e : Exchange ι) : Option Head := if e.hasHead then some Response.buildHead else none

/-- **At the end of the response** one frame tells how the build ended, and it
came last. -/
theorem Sound.ended (h : e.Sound results) (he : e.channel.receive.1 = .ended) :
    e.head? = some Response.buildHead ∧ ∃ result before, results = [result] ∧
      e.delivered.toList = before ++ [(ofResult result).frame] ∧ ∀ f ∈ before, IsProgress f := by
  obtain ⟨hfree, hqueue, hopen⟩ : (e.channel.gate.isHolding = true ∨ e.channel.gate.held = []) ∧
      e.channel.queue = [] ∧ e.channel.isOpen = false := by
    rcases e.channel.receive_cases with ⟨x, rest, -, -, hr⟩ | ⟨f, rest, -, -, hr⟩ | ⟨hf, hq, hr⟩
    · rw [hr] at he
      cases he
    · rw [hr] at he
      cases he
    · refine ⟨hf, hq, ?_⟩
      rw [hr] at he
      split at he
      · cases he
      · next ho => simpa using ho
  unfold Sound at h
  split at h
  · obtain ⟨-, hflow, -⟩ := h
    have : e.channel.isOpen = true := hflow.isOpen
    rw [hopen] at this
    cases this
  · obtain ⟨-, ho, -⟩ := h
    rw [hopen] at ho
    cases ho
  · next hs =>
    obtain ⟨-, result, hres, hdrain⟩ := h
    obtain ⟨before, hframes, hbefore⟩ := hdrain.frames
    refine ⟨by simp [head?, hasHead, hs], result, before, hres, ?_, hbefore⟩
    -- a gate that holds would keep the last frame back for ever
    have hheld : e.channel.gate.held = [] := by
      rcases hfree with hh | hh
      · have : e.channel.gate.isHolding = false := hdrain.open_
        rw [hh] at this
        cases this
      · exact hh
    have hway : e.writer.sink.onWay = [] := by
      show e.channel.onWay = []
      simp [Channel.onWay, hheld, hqueue]
    rw [← hframes, hway]
    simp

/-- What the client reads back from a response that has ended. -/
theorem Sound.ofFrames?_delivered (h : e.Sound results) (he : e.channel.receive.1 = .ended) :
    ∃ result ms, results = [result] ∧
      ofFrames? e.delivered.toList.flatten = .ok (ms ++ [ofResult result]) ∧
      ∀ m ∈ ms, m.kind = .progress := by
  obtain ⟨-, result, before, hres, hdel, hbefore⟩ := h.ended he
  obtain ⟨ms, hms, hkind⟩ := isProgress_flatten hbefore
  refine ⟨result, ms, hres, ?_, fun m hm => (hkind m hm).2⟩
  have hframes : e.delivered.toList.flatten = frames (ms ++ [ofResult result]) := by
    rw [hdel, List.flatten_append, hms, frames_append]
    simp [frames]
  rw [hframes]
  refine ofFrames?_frames fun m hm => ?_
  rcases List.mem_append.1 hm with hm | hm
  · exact (hkind m hm).1
  · rw [List.mem_singleton] at hm
    exact hm ▸ isReadable_ofResult result

end Exchange
end ImageBuild
