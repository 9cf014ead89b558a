import ImageBuild.Proofs.Registry

/-!
# Who is at a reception

A build that is at a reception after an event was there before, or it has just
arrived (`comes_step`). So what is true of every build and of what it came with is
shown for one event at a time, without regard to the order of the seats. Tokens
that were cancelled stay cancelled (`isCancelled_step`).
-/

namespace ImageBuild

theorem Cancellation.isCancelled_mono {c c' : Cancellation} (h : c.cancelled ⊆ c'.cancelled)
    {t : Token} (ht : c.isCancelled t = true) : c'.isCancelled t = true := by
  simp only [isCancelled, List.any_eq_true, List.contains_iff_mem] at ht ⊢
  obtain ⟨k, hk, hc⟩ := ht
  exact ⟨k, hk, h hc⟩

namespace ContextEngine

variable {τ : Type}

/-! ## Where builds come from -/

/-- How a build, with what it came with, comes to be at a reception after an event. -/
inductive Comes [Sink τ] (y : Reception τ) (e : ReceptionEvent τ) : Seat τ → Visit → Prop where
  | arrive {k : Nat} {context : Context} {options : BuildOptions} {upload : Option Upload}
      {writer : Writer τ} (he : e = .arrive k options upload writer)
      (hx : y.contexts[k]? = some context) :
      Comes y e ⟨.arriving context options, (Visit.source { context, upload }), writer⟩
        { context, upload }
  | stay {i : Nat} {seat : Seat τ} {v : Visit} (hs : y.floor.seats[i]? = some seat)
      (hv : y.present[i]? = some v) (other : e ≠ .move i) : Comes y e seat v
  | go {i : Nat} {seat : Seat τ} {v : Visit} {job : Job} {d : Desk Store τ}
      (hs : y.floor.seats[i]? = some seat) (hv : y.present[i]? = some v) (he : e = .move i)
      (hm : seat.job.move (y.floor.desk seat) = (.go job, d)) :
      Comes y e ⟨job, d.source, d.writer⟩ (v.suffer (seat.job.fault? y.store))
  | wait {i : Nat} {seat : Seat τ} {v : Visit} {d : Desk Store τ}
      (hs : y.floor.seats[i]? = some seat) (hv : y.present[i]? = some v) (he : e = .move i)
      (hm : seat.job.move (y.floor.desk seat) = (.wait, d)) :
      Comes y e ⟨seat.job, d.source, d.writer⟩ (v.suffer (seat.job.fault? y.store))
  | feed {i : Nat} {seat : Seat τ} {v : Visit} {items : List Upload.Item}
      (hs : y.floor.seats[i]? = some seat) (hv : y.present[i]? = some v) (he : e = .feed i items)
      (isOpen : v.isOpen = true) :
      Comes y e { seat with source := seat.source.map (·.feed items) } (v.feed items)
  | complete {i : Nat} {seat : Seat τ} {v : Visit} (hs : y.floor.seats[i]? = some seat)
      (hv : y.present[i]? = some v) (he : e = .complete i) :
      Comes y e { seat with source := seat.source.map (·.close) } v.close
  | respond {i : Nat} {seat : Seat τ} {v : Visit} {sink : τ} (hs : y.floor.seats[i]? = some seat)
      (hv : y.present[i]? = some v) (he : e = .respond i sink) :
      Comes y e { seat with writer := { seat.writer with sink } } v

section Lists

variable {α β : Type} {xs : List α} {ys : List β} {a : α} {b : β} {i j : Nat}

theorem exists_of_eraseIdx (hx : (xs.eraseIdx i)[j]? = some a) (hy : (ys.eraseIdx i)[j]? = some b) :
    ∃ k, k ≠ i ∧ xs[k]? = some a ∧ ys[k]? = some b := by
  rw [List.getElem?_eraseIdx] at hx hy
  split at hx
  · next lt =>
    rw [if_pos lt] at hy
    exact ⟨j, Nat.ne_of_lt lt, hx, hy⟩
  · next lt =>
    rw [if_neg lt] at hy
    exact ⟨j + 1, by omega, hx, hy⟩

end Lists

namespace Comes

variable [Sink τ] {y : Reception τ} {i j : Nat} {seat : Seat τ} {v : Visit}

theorem ofErase {e : ReceptionEvent τ} (other : ∀ k, k ≠ i → e ≠ .move k)
    (hs : (y.floor.seats.eraseIdx i)[j]? = some seat) (hv : (y.present.eraseIdx i)[j]? = some v) :
    Comes y e seat v := by
  obtain ⟨k, hk, hs, hv⟩ := exists_of_eraseIdx hs hv
  exact .stay hs hv (other k hk)

theorem ofModify {e : ReceptionEvent τ} {f : Seat τ → Seat τ} {g : Visit → Visit}
    (other : ∀ k, e ≠ .move k)
    (changed : ∀ old w, y.floor.seats[i]? = some old → y.present[i]? = some w →
      Comes y e (f old) (g w))
    (hs : (y.floor.seats.modify i f)[j]? = some seat) (hv : (y.present.modify i g)[j]? = some v) :
    Comes y e seat v := by
  rw [List.getElem?_modify] at hs hv
  obtain ⟨old, hold, rfl⟩ := Option.map_eq_some_iff.1 hs
  obtain ⟨w, hw, rfl⟩ := Option.map_eq_some_iff.1 hv
  by_cases hij : i = j
  · subst hij
    simp only [if_true]
    exact changed old w hold hw
  · simp only [if_neg hij]
    exact .stay hold hw (other j)

theorem ofSet {again : Seat τ} {g : Visit → Visit}
    (changed : ∀ w, y.present[i]? = some w → Comes y (.move i) again (g w))
    (hs : (y.floor.seats.set i again)[j]? = some seat) (hv : (y.present.modify i g)[j]? = some v) :
    Comes y (.move i) seat v := by
  rw [List.getElem?_set] at hs
  by_cases hij : i = j
  · subst hij
    rw [List.getElem?_modify_eq] at hv
    obtain ⟨w, hw, rfl⟩ := Option.map_eq_some_iff.1 hv
    rw [if_pos rfl] at hs
    split at hs
    · cases hs
      exact changed w hw
    · cases hs
  · rw [if_neg hij] at hs
    rw [List.getElem?_modify_ne _ _ hij] at hv
    exact .stay hs hv fun he => hij (by cases he; rfl)

theorem move (seated : y.present.length = y.floor.seats.length)
    (hs : (y.step (.move i)).floor.seats[j]? = some seat)
    (hv : (y.step (.move i)).present[j]? = some v) : Comes y (.move i) seat v := by
  have others (k) (hk : k ≠ i) : (ReceptionEvent.move i : ReceptionEvent τ) ≠ .move k := by
    rintro ⟨⟩
    exact hk rfl
  cases hold : y.floor.seats[i]? with
  | none =>
    rw [Reception.step_move_none seated hold] at hs hv
    refine .stay hs hv ?_
    rintro ⟨⟩
    cases hold.symm.trans hs
  | some old =>
    have fault : y.floor.fault? i = old.job.fault? y.store := by
      simp only [Floor.fault?, hold]
      rfl
    simp only [Reception.step, fault] at hs hv
    rcases hm : old.job.move (y.floor.desk old) with ⟨m, d⟩
    cases m with
    | go job =>
      obtain ⟨stays, seats⟩ := Floor.move_go hold hm
      simp only [stays, Bool.false_eq_true, if_false, seats] at hs hv
      exact ofSet (fun w hw => .go hold hw rfl hm) hs hv
    | wait =>
      obtain ⟨stays, seats⟩ := Floor.move_wait hold hm
      simp only [stays, Bool.false_eq_true, if_false, seats] at hs hv
      exact ofSet (fun w hw => .wait hold hw rfl hm) hs hv
    | stop result =>
      obtain ⟨stops, seats⟩ := Floor.move_stop hold hm
      simp only [stops, if_true, Reception.leave, seats] at hs hv
      exact ofErase others hs hv

end Comes

/-- **Every build** that is at a reception after an event comes from where `Comes`
says. -/
theorem comes_step [Sink τ] {y : Reception τ} (seated : y.present.length = y.floor.seats.length)
    {e : ReceptionEvent τ} {j : Nat} {seat : Seat τ} {v : Visit}
    (hs : (y.step e).floor.seats[j]? = some seat) (hv : (y.step e).present[j]? = some v) :
    Comes y e seat v := by
  cases e with
  | branch k =>
    simp only [Reception.step] at hs hv
    split at hs <;> split at hv <;> exact .stay hs hv (by simp)
  | arrive k options upload writer =>
    simp only [Reception.step] at hs hv
    cases hx : y.contexts[k]? with
    | none =>
      simp only [hx] at hs hv
      exact .stay hs hv (by simp)
    | some context =>
      simp only [hx, Floor.step] at hs hv
      rw [List.getElem?_append] at hs hv
      rw [seated] at hv
      split at hs
      · next lt =>
        rw [if_pos lt] at hv
        exact .stay hs hv (by simp)
      · next lt =>
        -- the last seat is that of the build that has arrived
        rw [if_neg lt] at hv
        have first := (List.getElem?_eq_some_iff.1 hs).1
        rw [List.length_singleton, Nat.lt_one_iff] at first
        rw [first] at hs hv
        cases hs
        cases hv
        exact .arrive rfl hx
  | move i => exact .move seated hs hv
  | giveUp i =>
    simp only [Reception.step, Reception.leave] at hs hv
    have seats : (y.floor.giveUp i).seats = y.floor.seats.eraseIdx i := by
      cases hold : y.floor.seats[i]? with
      | none =>
        simp only [Floor.giveUp, hold]
        exact (List.eraseIdx_of_length_le (List.getElem?_eq_none_iff.1 hold)).symm
      | some seat => exact (Floor.giveUp_some hold).2
    rw [seats] at hs
    exact .ofErase (fun _ _ => by simp) hs hv
  | feed i items =>
    simp only [Reception.step] at hs hv
    by_cases isOpen : (y.present[i]?).any (·.isOpen) = true
    · simp only [if_pos isOpen, Floor.step, Floor.change] at hs hv
      refine .ofModify (fun _ => by simp) (fun old w hold hw => ?_) hs hv
      rw [hw] at isOpen
      exact .feed hold hw rfl isOpen
    · simp only [if_neg isOpen] at hs hv
      exact .stay hs hv (by simp)
  | complete i =>
    exact .ofModify (fun _ => by simp) (fun old w hold hw => .complete hold hw rfl) hs hv
  | respond i sink =>
    have hv : (y.present.modify i id)[j]? = some v := by
      rw [List.modify_id]
      exact hv
    exact .ofModify (fun _ => by simp) (fun old w hold hw => .respond hold hw rfl) hs hv
  | sweep i =>
    simp only [Reception.step, Floor.step] at hs hv
    split at hs <;> exact .stay hs hv (by simp)
  | _ => exact .stay hs hv (by simp)

/-! ## Cancelled tokens -/

theorem cancelled_move [Sink τ] (y : Floor τ) (i : Nat) :
    (y.move i).workshop.tokens.cancelled = y.workshop.tokens.cancelled := by
  cases hs : y.seats[i]? with
  | none => rw [(Floor.move_none hs).2]
  | some seat =>
    rw [Floor.move_workshop hs]
    have registers := seat.job.registers_move (y.desk seat)
    generalize (seat.job.move (y.desk seat)).1 = m at registers
    generalize (seat.job.move (y.desk seat)).2.toWorkshop = w at registers ⊢
    cases registers with
    | go _ _ tokens => exact congrArg (·.cancelled) tokens
    | _ => rfl

theorem cancelled_step [Sink τ] (y : Reception τ) (e : ReceptionEvent τ) :
    y.tokens.cancelled ⊆ (y.step e).tokens.cancelled := by
  have all : y.tokens.cancelled ⊆ y.tokens.cancelled := fun _ h => h
  cases e with
  | branch k =>
    simp only [Reception.step]
    split <;> exact all
  | arrive k options upload writer =>
    simp only [Reception.step]
    split <;> exact all
  | move i =>
    have same := cancelled_move y.floor i
    rw [← (Issued.floor_move y i).1] at same
    exact same ▸ all
  | giveUp i =>
    have same : (y.floor.giveUp i).workshop.tokens = y.tokens := by
      unfold Floor.giveUp
      split <;> rfl
    show _ ⊆ (y.floor.giveUp i).workshop.tokens.cancelled
    rw [same]
    exact all
  | feed i items =>
    simp only [Reception.step]
    split <;> exact all
  | cancel token => exact List.subset_cons_self ..
  | cancelId id =>
    show _ ⊆ (y.store.cancel id y.tokens).cancelled
    unfold Store.cancel
    split
    · exact all
    · exact List.subset_cons_self ..
  | sweep i =>
    have same : (y.floor.step (.sweep i)).workshop.tokens = y.tokens := by
      simp only [Floor.step]
      split <;> rfl
    show _ ⊆ (y.floor.step (.sweep i)).workshop.tokens.cancelled
    rw [same]
    exact all
  | _ => exact all

/-- **A cancelled token** stays cancelled. -/
theorem isCancelled_step [Sink τ] {y : Reception τ} (e : ReceptionEvent τ) {t : Token}
    (h : y.tokens.isCancelled t = true) : (y.step e).tokens.isCancelled t = true :=
  Cancellation.isCancelled_mono (cancelled_step y e) h

end ContextEngine
end ImageBuild
