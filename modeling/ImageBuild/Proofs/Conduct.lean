import ImageBuild.ContextEngine.Basic
import ImageBuild.Proofs.Message
import ImageBuild.Proofs.Session

/-!
# What builds do with their desks

Whatever an engine does in a move, a desk is changed by few acts: the workshop
changes, a chunk is taken, the upload is put away, a frame is written. `Acts P`
relates two desks when acts lead from the first to the second and every frame
that is written satisfies `P`. The builds of the context engine write progress
and nothing else (`ContextEngine.acts_move`): how they end, the session tells.
-/

namespace ImageBuild

/-- **Acts at a desk** that write only frames with the property `P`. -/
inductive Desk.Acts {σ τ : Type} [Sink τ] (P : Frame → Prop) (d : Desk σ τ) : Desk σ τ → Prop where
  | nothing : Acts P d d
  | inWorkshop {d' : Desk σ τ} (h : Acts P d d') (w : Workshop σ) : Acts P d (d'.inWorkshop w)
  | take {d' : Desk σ τ} {s : Source} (h : Acts P d d') (hs : d'.source = some s) :
      Acts P d (d'.take s).2
  | dropSource {d' : Desk σ τ} (h : Acts P d d') : Acts P d d'.dropSource
  | write {d' : Desk σ τ} {f : Frame} (h : Acts P d d') (hf : P f) : Acts P d (d'.write f).2

namespace Message

/-- Frames that tell progress, and whose messages can be read back. -/
def IsProgress (f : Frame) : Prop :=
  ∃ ms, f = frames ms ∧ ∀ m ∈ ms, m.IsReadable ∧ m.kind = .progress

theorem isProgress_frame {m : Message} (h : m.aux = none) (hk : m.kind = .progress) :
    IsProgress m.frame := by
  refine ⟨[m], by simp [frames], ?_⟩
  intro n hn
  rw [List.mem_singleton] at hn
  exact hn ▸ ⟨isReadable_of_aux_eq_none h, hk⟩

theorem isProgress_line (text : String) : IsProgress (line text).frame :=
  isProgress_frame rfl (kind_line text)

theorem isProgress_flatten {fs : List Frame} (h : ∀ f ∈ fs, IsProgress f) :
    IsProgress fs.flatten := by
  induction fs with
  | nil => exact ⟨[], rfl, by simp⟩
  | cons f fs ih =>
    obtain ⟨ms, rfl, hms⟩ := h f (List.mem_cons_self ..)
    obtain ⟨ns, hf, hns⟩ := ih fun g hg => h g (List.mem_cons_of_mem _ hg)
    refine ⟨ms ++ ns, by rw [List.flatten_cons, hf, frames_append], ?_⟩
    intro m hm
    rcases List.mem_append.1 hm with hm | hm
    · exact hms m hm
    · exact hns m hm

end Message

namespace ContextEngine

open Desk Message

variable {τ : Type} [Sink τ]

theorem acts_offer {ι ρ : Type} {P : Frame → Prop} (d : Desk Store τ) {f : Frame} (hf : P f)
    (next : ι) (failed : SinkError → Move ι ρ) : Acts P d (d.offer f next failed).2 := by
  rcases d.offer_cases f next failed with ⟨-, h⟩ | ⟨-, h⟩ | ⟨e, -, h⟩ <;>
    exact h ▸ .write .nothing hf

theorem isProgress_report (received : Nat) : IsProgress (report received) :=
  isProgress_frame rfl rfl

theorem acts_receive (token : Token) (file threshold : Nat) (d : Desk Store τ) :
    Acts IsProgress d (receive token file threshold d).2 := by
  rcases receive_cases token file threshold d with
    ⟨-, h⟩ | ⟨-, h⟩ | ⟨s, hs, ⟨-, h⟩ | ⟨-, h⟩⟩ <;> rw [h]
  · exact .nothing
  · exact .nothing
  · exact .nothing
  · exact .take .nothing hs

/-- **A move** of a build writes progress or nothing. -/
theorem acts_phase (token : Token) (o : BuildOptions) (p : Phase) (d : Desk Store τ) :
    Acts IsProgress d (p.move token o d).2 := by
  cases p with
  | opening => exact .inWorkshop .nothing _
  | receiving file threshold => exact acts_receive token file threshold d
  | writing file threshold data => exact .inWorkshop .nothing _
  | reporting file threshold => exact acts_offer d (isProgress_report _) _ _
  | flushing file => exact .inWorkshop .nothing _
  | totalling file => exact acts_offer d (isProgress_report _) _ _
  | looking file =>
    simp only [Phase.move]
    split
    · exact .dropSource .nothing
    · exact .inWorkshop (.dropSource .nothing) _
  | noting c => exact acts_offer d (isProgress_line _) _ _
  | inspecting c isKnown => exact .nothing
  | telling c isKnown steps id =>
    cases steps with
    | nil => exact .nothing
    | cons step rest =>
      cases step with
      | check => exact .nothing
      | line text => exact acts_offer d (isProgress_line _) _ _
  | concluding c isKnown result => exact .inWorkshop .nothing _
  | discarding file result => exact .inWorkshop .nothing _
  | leaving result => exact .inWorkshop .nothing _

theorem acts_move (j : Job) (d : Desk Store τ) : Acts IsProgress d (Engine.move j d).2 := by
  show Acts IsProgress d (j.move d).2
  cases j with
  | arriving context options =>
    simp only [Job.move, arrive]
    split
    · exact .nothing
    · split
      · exact .inWorkshop .nothing _
      · exact .inWorkshop (.inWorkshop .nothing _) _
  | running token o p =>
    have := acts_phase token o p d
    simp only [Job.move]
    split
    all_goals
      next h =>
      rwa [h] at this

end ContextEngine
end ImageBuild
