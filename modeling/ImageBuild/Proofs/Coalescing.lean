import ImageBuild.Proofs.Tape

/-!
# What a full gate drops

A gate that holds as many frames as it may lets one of them go when another comes:
the oldest status with the id of the new one, or else the oldest status, or else
the oldest frame (`GivesWay`). The octets of a frame alone decide whether it is a
status (`Frame.IsStatus`). So a frame that is no status is lost only when no status
is held, and the others never crowd out `n - 1` frames of that kind
(`Channel.held_coalesced`).
-/

namespace ImageBuild

open Json Transmission

/-! ## Statuses -/

namespace Json.Reader

variable {α : Type} {p : Reader α} {s : Octets} {a : α}

theorem stream_eq_nil_iff : p.stream s = .ok [] ↔ skipBlank s = [] := by
  rw [stream]
  constructor
  · intro h
    split at h
    · assumption
    · split at h
      · cases h
      · split at h <;> cases h
  · intro h
    rw [h]

/-- **A stream of one value** is a text of one value, with blanks around it. -/
theorem stream_eq_singleton_iff :
    p.stream s = .ok [a] ↔ skipBlank s ≠ [] ∧ p.parse s = .ok a := by
  rw [stream, parse]
  cases hs : skipBlank s with
  | nil => simp
  | cons b t =>
    cases hr : p.run s with
    | error e => simp
    | ok x =>
      obtain ⟨x, r⟩ := x
      cases hm : p.stream r with
      | error e =>
        cases rest : skipBlank r with
        | nil =>
          rw [stream_eq_nil_iff.2 rest] at hm
          cases hm
        | cons => simp [hm, rest]
      | ok as =>
        have last : as = [] ↔ skipBlank r = [] := by
          rw [← stream_eq_nil_iff (p := p), hm, Except.ok.injEq]
        simp only [hm]
        split
        · next h => simp [last.2 h]
        · next h => simp [mt last.1 h]

end Json.Reader

theorem Message.ofFrame?_blank {f : Frame} (h : skipBlank f = []) : ofFrame? f = none := by
  have run : shape.reader.run f = .error ⟨.endOfValue, 0⟩ := by
    simp only [Shape.reader, Reader.ofFirst, h]
  simp only [ofFrame?, Reader.parse, run]
  rfl

theorem Message.ofFrame?_eq_some_iff {f : Frame} {m : Message} :
    ofFrame? f = some m ↔ ofFrames? f = .ok [m] := by
  unfold ofFrames?
  rw [Reader.stream_eq_singleton_iff]
  by_cases blank : skipBlank f = []
  · simp [blank, ofFrame?_blank]
  · unfold ofFrame?
    cases shape.reader.parse f <;> simp [blank, Except.toOption]

/-- **A status** with this id: the octets are one message, which has a status and
neither output nor an error nor a payload. -/
def Frame.IsStatus (f : Frame) (id : Option String) : Prop :=
  ∃ m, Message.ofFrames? f = .ok [m] ∧ m.status.isSome ∧ m.stream = none ∧ m.error = none ∧
    m.errorDetail = none ∧ m.aux = none ∧ m.id = id

theorem HeldFrame.statusId_ofFrame {f : Frame} {id : Option String} :
    (ofFrame f).statusId = some id ↔ f.IsStatus id := by
  unfold Frame.IsStatus ofFrame
  simp only [Option.bind_eq_some_iff, ← Message.ofFrame?_eq_some_iff, Message.statusId?]
  constructor
  · rintro ⟨m, hm, h⟩
    split at h
    · next bare =>
      cases h
      obtain ⟨h1, h2, h3, h4, h5⟩ := bare
      exact ⟨m, hm, h1, by simpa using h2, by simpa using h3, by simpa using h4, by simpa using h5,
        rfl⟩
    · cases h
  · rintro ⟨m, hm, h1, h2, h3, h4, h5, rfl⟩
    exact ⟨m, hm, by simp [h1, h2, h3, h4, h5]⟩

theorem HeldFrame.isStatus_ofFrame {f : Frame} :
    (ofFrame f).isStatus = true ↔ ∃ id, f.IsStatus id := by
  simp only [isStatus, Option.isSome_iff_exists, statusId_ofFrame]

/-- A frame that is no status, whatever it is. -/
def Frame.IsPlain (f : Frame) : Prop := ∀ id, ¬ f.IsStatus id

theorem Frame.isPlain_iff {f : Frame} : f.IsPlain ↔ (HeldFrame.ofFrame f).isStatus = false := by
  rw [← Bool.not_eq_true, HeldFrame.isStatus_ofFrame, not_exists]
  exact Iff.rfl

instance (f : Frame) : Decidable f.IsPlain := decidable_of_iff _ Frame.isPlain_iff.symm

/-- A frame that ends a build is no status. -/
theorem Frame.IsStatus.kind {f : Frame} {id : Option String} (h : f.IsStatus id) {m : Message}
    (hm : Message.ofFrames? f = .ok [m]) : m.kind = .progress := by
  obtain ⟨n, hn, -, -, error, detail, aux, -⟩ := h
  rw [hm] at hn
  cases hn
  simp [Message.kind, error, detail, aux]

/-! ## Giving way -/

/-- **Which frame gives way** to `f` when the frames `before`, `victim` and `after`
are held. -/
inductive GivesWay (f : Frame) (before : List Frame) (victim : Frame) (after : List Frame) :
    Prop where
  /-- the oldest status with the id of the new one -/
  | superseded (id : Option String) (incoming : f.IsStatus id) (status : victim.IsStatus id)
      (oldest : ∀ g ∈ before, ¬ g.IsStatus id)
  /-- the oldest status, when none has the id of the new one -/
  | status (other : ∀ id, f.IsStatus id → ∀ g ∈ before ++ victim :: after, ¬ g.IsStatus id)
      (status : ∃ id, victim.IsStatus id) (oldest : ∀ g ∈ before, g.IsPlain)
  /-- the oldest frame, when there is no status -/
  | oldest (first : before = []) (plain : ∀ g ∈ victim :: after, g.IsPlain)

/-- A plain frame gives way only where all frames are plain. -/
theorem GivesWay.isPlain {f victim : Frame} {before after : List Frame}
    (h : GivesWay f before victim after) (hv : victim.IsPlain) :
    ∀ g ∈ before ++ victim :: after, g.IsPlain := by
  cases h with
  | superseded id incoming status => exact absurd status (hv id)
  | status other status =>
    obtain ⟨id, hid⟩ := status
    exact absurd hid (hv id)
  | oldest first plain =>
    subst first
    exact plain

/-- Without the `i`th of the held frames the others are left, and it has given way. -/
def Gate.Drops (held : List HeldFrame) (fs : List Frame) (f : Frame) (i : Nat) : Prop :=
  ∃ before v after, fs = before ++ v :: after ∧
    held.eraseIdx i = (before ++ after).map HeldFrame.ofFrame ∧ GivesWay f before v after

namespace Gate

variable {held : List HeldFrame} {fs : List Frame} {f : Frame} {p : HeldFrame → Bool} {i : Nat}

theorem exists_first (hh : held = fs.map HeldFrame.ofFrame) (h : held.findIdx? p = some i) :
    ∃ before v after, fs = before ++ v :: after ∧
      held.eraseIdx i = (before ++ after).map HeldFrame.ofFrame ∧
      p (HeldFrame.ofFrame v) = true ∧ ∀ g ∈ before, p (HeldFrame.ofFrame g) = false := by
  subst hh
  rw [List.findIdx?_map] at h
  obtain ⟨hi, found, first⟩ := List.findIdx?_eq_some_iff_getElem.1 h
  refine ⟨fs.take i, fs[i], fs.drop (i + 1), by simp, ?_, found, ?_⟩
  · rw [List.eraseIdx_eq_take_drop_succ, List.map_append, List.map_take, List.map_drop]
  · intro g hg
    obtain ⟨j, hj, rfl⟩ := List.mem_take_iff_getElem.1 hg
    simpa using first j (by omega)

theorem not_of_findIdx? (hh : held = fs.map HeldFrame.ofFrame) (h : held.findIdx? p = none) :
    ∀ g ∈ fs, p (HeldFrame.ofFrame g) = false := by
  subst hh
  intro g hg
  rw [List.findIdx?_map, List.findIdx?_eq_none_iff] at h
  exact h g hg

/-- When nothing is superseded, a status gives way before any other frame. -/
theorem drops_status (hh : held = fs.map HeldFrame.ofFrame) (nonempty : fs ≠ [])
    (other : ∀ id, f.IsStatus id → ∀ g ∈ fs, ¬ g.IsStatus id) :
    Drops held fs f ((held.findIdx? (·.isStatus)).getD 0) := by
  cases hs : held.findIdx? (·.isStatus) with
  | some i =>
    obtain ⟨before, v, after, rfl, erased, found, first⟩ := exists_first hh hs
    refine ⟨before, v, after, rfl, erased, ?_⟩
    apply GivesWay.status other (HeldFrame.isStatus_ofFrame.1 found)
    intro g hg
    exact Frame.isPlain_iff.2 (first g hg)
  | none =>
    have plain := not_of_findIdx? hh hs
    cases fs with
    | nil => contradiction
    | cons v after =>
      refine ⟨[], v, after, rfl, by simp [hh], ?_⟩
      apply GivesWay.oldest rfl
      intro g hg
      exact Frame.isPlain_iff.2 (plain g hg)

/-- **The victim** gives way as it should. -/
theorem drops_victim (hh : held = fs.map HeldFrame.ofFrame) (nonempty : fs ≠ []) :
    Drops held fs f (victim held (HeldFrame.ofFrame f)) := by
  unfold victim
  by_cases hf : f.IsPlain
  · rw [if_neg (by simp [Frame.isPlain_iff.1 hf])]
    exact drops_status hh nonempty fun id hid => absurd hid (hf id)
  · have hf : (HeldFrame.ofFrame f).isStatus = true := by simpa [Frame.isPlain_iff] using hf
    obtain ⟨id, incoming⟩ := HeldFrame.isStatus_ofFrame.1 hf
    simp only [hf, if_true, HeldFrame.statusId_ofFrame.2 incoming]
    -- a status with this id is told by its classification
    have told (g : Frame) :
        ((HeldFrame.ofFrame g).statusId == some id) = true ↔ g.IsStatus id := by
      rw [beq_iff_eq, HeldFrame.statusId_ofFrame]
    cases hs : held.findIdx? (·.statusId == some id) with
    | some i =>
      obtain ⟨before, v, after, rfl, erased, found, first⟩ := exists_first hh hs
      refine ⟨before, v, after, rfl, erased, ?_⟩
      apply GivesWay.superseded id incoming ((told v).1 found)
      intro g hg status
      exact absurd ((told g).2 status) (by simp [first g hg])
    | none =>
      apply drops_status hh nonempty
      intro id' hid' g hg status
      have same : id' = id := by
        have := HeldFrame.statusId_ofFrame.2 hid'
        rw [HeldFrame.statusId_ofFrame.2 incoming] at this
        exact (Option.some.inj this).symm
      subst same
      exact absurd ((told g).2 status) (by simp [not_of_findIdx? hh hs g hg])

end Gate

namespace Channel

/-- A channel after these frames were sent, one after another. -/
def sendAll (c : Channel) (fs : List Frame) : Channel := fs.foldl (fun c f => (c.send f).2) c

/-- The frames that a channel holds back after these were sent to it. -/
def heldAfter (c : Channel) (fs : List Frame) : List Frame :=
  (c.sendAll fs).gate.held.map (·.frame)

variable {c : Channel}

theorem sendAll_snoc (c : Channel) (fs : List Frame) (f : Frame) :
    c.sendAll (fs ++ [f]) = ((c.sendAll fs).send f).2 := by
  simp [sendAll]

theorem sendAll_holding (holding : c.gate.isHolding = true) (empty : c.gate.held = [])
    (limit : 1 ≤ c.gate.limit) (fs : List Frame) :
    (c.sendAll fs).gate.isHolding = true ∧ (c.sendAll fs).gate.limit = c.gate.limit ∧
      (c.sendAll fs).gate.held = (holdAll c.gate.limit fs).held := by
  induction fs using List.reverseRecOn with
  | nil => exact ⟨holding, rfl, empty⟩
  | append_singleton fs f ih =>
    obtain ⟨holds, same, held⟩ := ih
    rw [sendAll_snoc, send, if_pos holds, holdAll_snoc]
    refine ⟨holds, same, ?_⟩
    apply Gate.hold_held_congr f _ held
    rw [same, holdAll_limit]
    omega

theorem heldAfter_eq (holding : c.gate.isHolding = true) (empty : c.gate.held = [])
    (limit : 1 ≤ c.gate.limit) (fs : List Frame) :
    c.heldAfter fs = heldBack c.gate.limit fs := by
  rw [heldAfter, (sendAll_holding holding empty limit fs).2.2]
  rfl

end Channel

namespace Transmission

theorem holdAll_eq_map (n : Nat) (fs : List Frame) :
    (holdAll n fs).held = (heldBack n fs).map HeldFrame.ofFrame := by
  have each : ∀ h ∈ (holdAll n fs).held, HeldFrame.ofFrame h.frame = h := by
    intro h hh
    obtain ⟨g, -, rfl⟩ := List.mem_map.1 ((holdAll_sublist n fs).subset hh)
    rfl
  rw [heldBack, List.map_map]
  exact ((List.map_congr_left each).trans (List.map_id _)).symm

/-- **One more frame** makes a full gate drop one, and no other gate. -/
theorem heldBack_snoc {n : Nat} (hn : 1 ≤ n) (fs : List Frame) (f : Frame) :
    (fs.length < n → heldBack n (fs ++ [f]) = heldBack n fs ++ [f]) ∧
    (n ≤ fs.length → ∃ before v after, heldBack n fs = before ++ v :: after ∧
      heldBack n (fs ++ [f]) = before ++ after ++ [f] ∧ GivesWay f before v after) := by
  have length := length_heldBack n fs
  have limit : (holdAll n fs).limit = n := by
    rw [holdAll_limit]
    omega
  have held : (holdAll n fs).held.length = (heldBack n fs).length := by
    rw [holdAll_eq_map, List.length_map]
  constructor
  · intro room
    rw [heldBack, holdAll_snoc, Gate.hold, if_neg (by omega)]
    simp [heldBack, HeldFrame.ofFrame]
  · intro full
    have nonempty : heldBack n fs ≠ [] := by
      intro h
      simp [h] at length
      omega
    obtain ⟨before, v, after, split, erased, gives⟩ :=
      Gate.drops_victim (f := f) (holdAll_eq_map n fs) nonempty
    refine ⟨before, v, after, split, ?_, gives⟩
    have same : HeldFrame.frame ∘ HeldFrame.ofFrame = id := rfl
    rw [heldBack, holdAll_snoc, Gate.hold, if_pos (by omega)]
    simp only [erased, ← List.map_singleton (f := HeldFrame.ofFrame), ← List.map_append]
    rw [List.map_map, same, List.map_id]

/-- **Plain frames survive** when there are fewer of them than a gate holds. -/
theorem filter_heldBack {n : Nat} (hn : 1 ≤ n) {fs : List Frame}
    (few : (fs.filter (·.IsPlain)).length ≤ n - 1) :
    (heldBack n fs).filter (·.IsPlain) = fs.filter (·.IsPlain) := by
  induction fs using List.reverseRecOn with
  | nil => rfl
  | append_singleton fs f ih =>
    rw [List.filter_append, List.length_append] at few
    have kept := ih (by omega)
    obtain ⟨room, full⟩ := heldBack_snoc hn fs f
    rcases Nat.lt_or_ge fs.length n with h | h
    · rw [room h, List.filter_append, List.filter_append, kept]
    · obtain ⟨before, v, after, split, next, gives⟩ := full h
      -- the plain frames alone do not fill the gate
      have status : ¬ v.IsPlain := by
        intro hv
        have all : (heldBack n fs).filter (·.IsPlain) = heldBack n fs := by
          rw [List.filter_eq_self]
          intro g hg
          rw [split] at hg
          simpa using gives.isPlain hv g hg
        have length := length_heldBack n fs
        rw [← all, kept] at length
        omega
      rw [split] at kept
      rw [next, List.filter_append (p := _) (before ++ after), List.filter_append fs, ← kept]
      simp [List.filter_cons, status]

end Transmission

/-- **What coalescing keeps.** While a gate holds `n` frames at most, it keeps some
of the frames that are sent, in their order, as many as it can, and always the last
one. What counts as a status is told by the octets of a frame, and no frame that
ends a build does. A gate that is not full drops nothing, and a full one drops one
frame, as `GivesWay` says: a frame that is no status only when it holds no status.
So frames that are no status are all kept as long as there are fewer than `n`. -/
theorem Channel.held_coalesced {c : Channel} (holding : c.gate.isHolding = true)
    (empty : c.gate.held = []) (limit : 1 ≤ c.gate.limit) :
    let n := c.gate.limit
    (∀ fs, (c.heldAfter fs).Sublist fs ∧ (c.heldAfter fs).length = min fs.length n ∧
      (c.heldAfter fs).getLast? = fs.getLast?) ∧
    (∀ f id, (HeldFrame.ofFrame f).statusId = some id ↔ f.IsStatus id) ∧
    (∀ (f : Frame) m, Message.ofFrames? f = .ok [m] → m.kind ≠ .progress → f.IsPlain) ∧
    (∀ fs f, fs.length < n → c.heldAfter (fs ++ [f]) = c.heldAfter fs ++ [f]) ∧
    (∀ fs f, n ≤ fs.length → ∃ before v after, c.heldAfter fs = before ++ v :: after ∧
      c.heldAfter (fs ++ [f]) = before ++ after ++ [f] ∧ GivesWay f before v after ∧
      (v.IsPlain → ∀ g ∈ c.heldAfter fs, g.IsPlain)) ∧
    ∀ fs, (fs.filter (·.IsPlain)).length ≤ n - 1 →
      (c.heldAfter fs).filter (·.IsPlain) = fs.filter (·.IsPlain) := by
  intro n
  have held := heldAfter_eq holding empty limit
  simp only [held]
  refine ⟨?_, ?_, ?_, ?_, ?_, ?_⟩
  · intro fs
    refine ⟨heldBack_sublist n fs, ?_, getLast?_heldBack n fs⟩
    rw [length_heldBack]
    omega
  · intro f id
    exact HeldFrame.statusId_ofFrame
  · intro f m hm ends id status
    exact ends (status.kind hm)
  · intro fs f
    exact (heldBack_snoc limit fs f).1
  · intro fs f full
    obtain ⟨before, v, after, split, next, gives⟩ := (heldBack_snoc limit fs f).2 full
    refine ⟨before, v, after, split, next, gives, ?_⟩
    rw [split]
    exact gives.isPlain
  · intro fs few
    exact filter_heldBack limit few

/-- A gate for two frames keeps a line of output and the last of three statuses. -/
theorem Channel.held_coalesced_two :
    let c := (Channel.new 2 false).hold
    let status (text : String) := (Message.ofStatus (some "context") text).frame
    let line := (Message.line "a").frame
    let fs := [status "1", line, status "2", status "3"]
    c.gate.isHolding = true ∧ c.gate.held = [] ∧ 1 ≤ c.gate.limit ∧
      (fs.filter (·.IsPlain)).length ≤ 1 ∧
      (c.heldAfter fs).filter (·.IsPlain) = fs.filter (·.IsPlain) := by
  intro c status line fs
  have few : (fs.filter (·.IsPlain)).length ≤ 1 := by decide +kernel
  obtain ⟨-, -, -, -, -, kept⟩ := held_coalesced (c := c) rfl rfl (by decide)
  exact ⟨rfl, rfl, by decide, few, kept fs few⟩

end ImageBuild
