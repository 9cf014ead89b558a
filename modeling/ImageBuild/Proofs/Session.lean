import ImageBuild.Session

/-!
# Sessions move by move

What a desk does leaves the workshop alone, unless the build says otherwise.
`run` makes moves until there is none; the equations here say so for each way a
move can go. A build that keeps an invariant and never waits comes to its end
within that invariant (`run_building`).
-/

namespace ImageBuild

namespace Source

theorem next_isClosed (s : Source) : s.next.2.upload.isClosed = s.upload.isClosed := by
  by_cases finished : s.isFinished
  · rw [next_of_isFinished finished]
  · obtain ⟨_, _, _, -, -, -, look⟩ | ⟨-, look⟩ := looks_next (Bool.eq_false_iff.2 finished)
    · rw [look]
    · rw [look]

theorem next_ne_starved {s : Source} (h : s.upload.isClosed = true) : s.next.1 ≠ .starved := by
  by_cases finished : s.isFinished
  · simp [next_of_isFinished finished]
  · obtain ⟨_, x, _, -, -, -, look⟩ | ⟨-, look⟩ := looks_next (Bool.eq_false_iff.2 finished)
    · rw [look]
      cases x <;> simp [Upload.Item.polled]
    · simp [look, h]

end Source

namespace Desk

variable {σ τ ι ρ : Type} [Sink τ]

/-- **An offer** goes on, waits or fails, and the desk is left as the write left it. -/
theorem offer_cases (d : Desk σ τ) (f : Frame) (next : ι) (failed : SinkError → Move ι ρ) :
    ((d.write f).1 = .accepted ∧ d.offer f next failed = (.go next, (d.write f).2)) ∨
    ((d.write f).1 = .blocked ∧ d.offer f next failed = (.wait, (d.write f).2)) ∨
    (∃ e, (d.write f).1 = .failed e ∧ d.offer f next failed = (failed e, (d.write f).2)) := by
  unfold offer
  rcases d.write f with ⟨sent, d'⟩
  cases sent with
  | accepted => exact .inl ⟨rfl, rfl⟩
  | blocked => exact .inr (.inl ⟨rfl, rfl⟩)
  | failed e => exact .inr (.inr ⟨e, rfl, rfl⟩)

@[simp] theorem write_toWorkshop (d : Desk σ τ) (f : Frame) :
    (d.write f).2.toWorkshop = d.toWorkshop := rfl

@[simp] theorem take_toWorkshop (d : Desk σ τ) (s : Source) :
    (d.take s).2.toWorkshop = d.toWorkshop := by
  unfold take
  split <;> rfl

@[simp] theorem dropSource_toWorkshop (d : Desk σ τ) :
    d.dropSource.toWorkshop = d.toWorkshop := by
  unfold dropSource
  split <;> rfl

@[simp] theorem write_source (d : Desk σ τ) (f : Frame) : (d.write f).2.source = d.source := rfl

@[simp] theorem take_source (d : Desk σ τ) (s : Source) :
    (d.take s).2.source = some s.next.2 := by
  unfold take
  split <;> rfl

@[simp] theorem dropSource_source (d : Desk σ τ) : d.dropSource.source = none := by
  unfold dropSource
  split
  · assumption
  · rfl

end Desk

namespace Session

variable {σ τ ι : Type} [Sink τ] [Engine ι σ] {s s' : Session ι} {d d' : Desk σ τ}

theorem run_go (h : s.move d = (.go s', d')) : s.run d = s'.run d' := by
  rw [run]
  split
  · next h' =>
    rw [h] at h'
    cases h'
    rfl
  · next h' => cases h.symm.trans h'
  · next h' => cases h.symm.trans h'

theorem run_wait (h : s.move d = (.wait, d')) : s.run d = (.waiting s, d') := by
  rw [run]
  split
  · next h' => cases h.symm.trans h'
  · next h' =>
    rw [h] at h'
    cases h'
    rfl
  · next h' => cases h.symm.trans h'

theorem run_stop {result : Except SinkError Unit} (h : s.move d = (.stop result, d')) :
    s.run d = (.done result, d') := by
  rw [run]
  split
  · next h' => cases h.symm.trans h'
  · next h' => cases h.symm.trans h'
  · next h' =>
    rw [h] at h'
    cases h'
    rfl

/-- **A build that never waits** ends, and what its moves preserve holds when it
does. -/
theorem run_building (I : ι → Desk σ τ → Prop)
    (waits : ∀ {j d}, I j d → (Engine.move j d).1 ≠ .wait)
    (goes : ∀ {j d j' d'}, I j d → Engine.move j d = (.go j', d') → I j' d')
    (j : ι) (d : Desk σ τ) (h : I j d) :
    ∃ last d₁ result d₂, I last d₁ ∧ Engine.move last d₁ = (.stop result, d₂) ∧
      (Session.building j).run d = (close (ι := ι) d₂ result).1.run (close (ι := ι) d₂ result).2 := by
  -- by recursion on the work that is left to the build
  match hm : Engine.move j d with
  | (.go j', d') =>
    obtain ⟨last, d₁, result, d₂, h₁, hs, hr⟩ := run_building I waits goes j' d' (goes h hm)
    refine ⟨last, d₁, result, d₂, h₁, hs, ?_⟩
    rw [← hr]
    exact run_go (by simp only [move, hm])
  | (.wait, d') => exact absurd (by rw [hm]) (waits h)
  | (.stop result, d') => exact ⟨j, d, result, d', h, hm, run_go (by simp only [move, hm])⟩
termination_by Engine.work j d
decreasing_by exact Engine.less hm

/-! ## What a build leaves to be written -/

theorem ne_nil_of_mem_lastFrames {kept : Option (Array Frame)}
    {result : Except BuildError String} {f : Frame} (h : f ∈ lastFrames kept result) : f ≠ [] := by
  have message (m : Message) : m.frame ≠ [] := by simp [Message.frame]
  cases result with
  | ok id =>
    simp only [lastFrames, List.mem_append, List.mem_singleton] at h
    rcases h with h | rfl
    · split at h
      · rw [List.mem_singleton] at h
        exact h ▸ message _
      · cases h
    · exact message _
  | error e =>
    simp only [lastFrames, List.mem_append, List.mem_singleton] at h
    rcases h with h | rfl
    · split at h
      · cases h
      · next hne =>
        rw [List.mem_singleton] at h
        exact h ▸ hne
    · exact message _

end Session
end ImageBuild
