import ImageBuild.Proofs.Keeping

/-!
# Which context was used last

A context is used when a build finds its record and when a build turns its own
file into a record. The uses of a run make a list of digests, and moving each
digest to the end when it is used leaves the digests in the order of their last
uses (`byLastUse`). The dates of the records say the same (`Aged`, kept by every
event): of two records, the one used longer ago has the smaller date.
-/

namespace ImageBuild

/-- The digests in the order of their last uses, the one used longest ago first. -/
def byLastUse (uses : List String) : List String :=
  uses.foldl (fun digests d => digests.filter (· ≠ d) ++ [d]) []

theorem byLastUse_snoc (uses : List String) (d : String) :
    byLastUse (uses ++ [d]) = (byLastUse uses).filter (· ≠ d) ++ [d] := by
  simp [byLastUse]

theorem nodup_byLastUse (uses : List String) : (byLastUse uses).Nodup := by
  induction uses using List.reverseRecOn with
  | nil => exact List.nodup_nil
  | append_singleton uses d ih =>
    rw [byLastUse_snoc]
    apply List.nodup_append.2
    refine ⟨ih.filter _, List.nodup_singleton d, ?_⟩
    rintro a ha b hb rfl
    rw [List.mem_singleton] at hb
    simp [hb] at ha

namespace ContextEngine

/-! ## The use of a context -/

/-- The digest that the next move of a build uses: it finds a record of its context,
or its file becomes a record. -/
def Phase.uses? (o : BuildOptions) (s : Store) : Phase → Option String
  | .looking file =>
    let digest := Digest.name (s.content file)
    if o.noCache = false ∧ s.holds digest = true then some digest else none
  | .concluding c isKnown (.ok _) =>
    if o.noCache = false ∧ isKnown = false ∧ s.holds c.digest = false then some c.digest else none
  | _ => none

def Job.uses? (s : Store) : Job → Option String
  | .arriving .. => none
  | .running _ o p => p.uses? o s

/-- What the use of a digest, or none, does to the records. -/
inductive Uses (s s' : Store) : Option String → Prop where
  | nothing (records : s'.records.Sublist s.records) : Uses s s' none
  | touch {digest : String} (known : s.holds digest = true)
      (records : s'.records = (s.touch digest).2.records) : Uses s s' (some digest)
  | adopt {digest : String} {file size : Nat} (unknown : s.holds digest = false)
      (records : s'.records = (s.adopt digest file size).2.records) : Uses s s' (some digest)

theorem Uses.of_records {s s' : Store} (h : s'.records = s.records) : Uses s s' none :=
  .nothing (h ▸ List.Sublist.refl _)

theorem records_touch_unknown {s : Store} {digest : String} (h : s.holds digest = false) :
    (s.touch digest).2.records = s.records := by
  have same : ∀ r ∈ s.records,
      (if r.digest = digest then { r with lastUsed := s.clock } else r) = r := by
    intro r hr
    rw [if_neg]
    simpa using List.any_eq_false.1 h r hr
  exact (List.map_congr_left same).trans (List.map_id _)

section Moves

variable {τ : Type} [Sink τ]

theorem uses_conclude (o : BuildOptions) (c : ReceivedContext) (isKnown : Bool)
    (result : Except BuildError String) (s : Store) :
    Uses s (conclude o c isKnown result s).2 ((Phase.concluding c isKnown result).uses? o s) := by
  rcases conclude_cases o c isKnown result s with
    ⟨spared, h⟩ | ⟨id, rfl, -, -, known, h⟩ | ⟨id, rfl, cached, fresh, unknown, h⟩ <;> rw [h]
  · have unused : (Phase.concluding c isKnown result).uses? o s = none := by
      cases result with
      | error e => rfl
      | ok id =>
        refine if_neg ?_
        rintro ⟨cached, fresh, -⟩
        simpa [cached, fresh] using spared id rfl
    rw [unused]
    exact .of_records rfl
  · have unused : (Phase.concluding c isKnown (.ok id)).uses? o s = none :=
      if_neg fun wanted => by simp [known] at wanted
    rw [unused]
    exact .of_records (by simp only [Store.adopt, known, if_true])
  · have used : (Phase.concluding c isKnown (.ok id)).uses? o s = some c.digest :=
      if_pos ⟨cached, fresh, unknown⟩
    rw [used]
    exact .adopt unknown rfl

theorem uses_looking (token : Token) (o : BuildOptions) (file : Nat) (d : Desk Store τ) :
    Uses d.store ((Phase.looking file).move token o d).2.store
      ((Phase.looking file).uses? o d.store) := by
  rcases looking_cases token o file d with
    ⟨uncached, h⟩ | ⟨cached, known, h⟩ | ⟨cached, unknown, h⟩ <;> rw [h, Phase.uses?]
  · rw [if_neg (by simp [uncached])]
    exact .of_records (congrArg (·.store.records) d.dropSource_toWorkshop)
  · rw [if_pos ⟨cached, known⟩]
    exact .touch known rfl
  · rw [if_neg (by simp [unknown])]
    exact .of_records (records_touch_unknown unknown)

/-- **A move of a phase** uses the digest that it says, or none. -/
theorem Phase.uses_move (token : Token) (o : BuildOptions) (p : Phase) (d : Desk Store τ) :
    Uses d.store (p.move token o d).2.store (p.uses? o d.store) := by
  -- the other phases change no record
  have others (hl : ∀ file, p ≠ .looking file) (hc : ∀ c isKnown result,
      p ≠ .concluding c isKnown result) : Uses d.store (p.move token o d).2.store none := by
    apply Uses.of_records
    have leads := p.leads_move token o d
    rcases hm : p.move token o d with ⟨m, d'⟩
    rw [hm] at leads
    cases m with
    | go q =>
      rcases leads.2.records with same | ⟨file, -, rfl, -⟩ | ⟨c, isKnown, id, rfl⟩
      · exact same
      · exact absurd rfl (hl file)
      · exact absurd rfl (hc c isKnown (.ok id))
    | wait => exact congrArg (·.store.records) leads
    | stop result =>
      show d'.store.records = d.store.records
      rw [leads.2.2, Store.unregister_records]
  cases p with
  | looking file => exact uses_looking token o file d
  | concluding c isKnown result => exact uses_conclude o c isKnown result d.store
  | _ => exact others (by rintro _ ⟨⟩) (by rintro _ _ _ ⟨⟩)

/-- **A move of a build** uses the digest that it says, or none. -/
theorem Job.uses_move (j : Job) (d : Desk Store τ) :
    Uses d.store (j.move d).2.store (j.uses? d.store) := by
  cases j with
  | arriving context o =>
    apply Uses.of_records
    simp only [Job.move, arrive]
    split
    · rfl
    · split
      · rfl
      · next h => exact Store.records_register h
  | running token o p =>
    have uses := p.uses_move token o d
    simp only [Job.move]
    split
    all_goals
      next h =>
      rw [h] at uses
      exact uses

end Moves

/-! ## Runs -/

namespace Reception

variable {τ : Type} [Sink τ]

def uses? (y : Reception τ) : ReceptionEvent τ → Option String
  | .move i => (y.floor.seats[i]?).bind (·.job.uses? y.store)
  | _ => none

/-- The digests that the events of a run use, in their order. -/
def uses (y : Reception τ) : List (ReceptionEvent τ) → List String
  | [] => []
  | e :: events => (y.uses? e).toList ++ (y.step e).uses events

theorem uses_snoc (y : Reception τ) (events : List (ReceptionEvent τ)) (e : ReceptionEvent τ) :
    y.uses (events ++ [e]) = y.uses events ++ ((y.run events).uses? e).toList := by
  induction events generalizing y with
  | nil => simp [uses, run]
  | cons x events ih =>
    rw [List.cons_append, uses, uses, ih, List.append_assoc]
    rfl

/-- **An event** uses one digest at most, and dates no other record anew. -/
theorem uses_step (y : Reception τ) (e : ReceptionEvent τ) :
    Uses y.store (y.step e).store (y.uses? e) := by
  cases e with
  | request version => exact .of_records rfl
  | branch k =>
    apply Uses.of_records
    simp only [step]
    split <;> rfl
  | arrive k options upload writer =>
    apply Uses.of_records
    simp only [step]
    split <;> rfl
  | move i =>
    cases hs : y.floor.seats[i]? with
    | none =>
      simp only [uses?, hs, Option.bind_none]
      apply Uses.of_records
      have nothing := (Issued.floor_move y i).1.trans (Floor.move_none hs).2
      exact congrArg (·.workshop.store.records) nothing
    | some seat =>
      simp only [uses?, hs, Option.bind_some]
      rw [store_move hs]
      exact seat.job.uses_move (y.floor.desk seat)
  | giveUp i => exact .of_records (y.records_giveUp i)
  | feed i items =>
    apply Uses.of_records
    simp only [step]
    split <;> rfl
  | complete i => exact .of_records rfl
  | respond i sink => exact .of_records rfl
  | cancel token => exact .of_records rfl
  | cancelId id => exact .of_records rfl
  | disk fault => exact .of_records rfl
  | strike o =>
    apply Uses.nothing
    show (y.store.strike o).2.records.Sublist _
    unfold Store.strike
    split
    · exact List.Sublist.refl _
    · exact List.filter_sublist
  | sweep i =>
    apply Uses.of_records
    show (y.floor.step (.sweep i)).workshop.store.records = _
    simp only [Floor.step]
    split <;> rfl

end Reception

/-! ## Dates -/

/-- **The dates of records** tell the order of their last uses. -/
structure Aged (s : Store) (uses : List String) : Prop where
  mem : ∀ r ∈ s.records, r.digest ∈ byLastUse uses
  ordered : (byLastUse uses).Pairwise fun d d' =>
    ∀ r ∈ s.records, ∀ q ∈ s.records, r.digest = d → q.digest = d' → r.lastUsed < q.lastUsed

namespace Aged

variable {s s' : Store} {uses : List String}

theorem fewer (h : Aged s uses) (records : s'.records.Sublist s.records) : Aged s' uses := by
  constructor
  · intro r hr
    exact h.mem r (records.subset hr)
  · apply h.ordered.imp
    intro d d' hd r hr q hq
    exact hd r (records.subset hr) q (records.subset hq)

/-- **A use** moves a digest to the end, and its record is dated now. -/
theorem use (h : Aged s uses) (dated : Dated s) {digest : String}
    (old : ∀ r ∈ s'.records, r.digest ≠ digest → r ∈ s.records)
    (new : ∀ r ∈ s'.records, r.digest = digest → r.lastUsed = s.clock) :
    Aged s' (uses ++ [digest]) := by
  constructor
  · intro r hr
    rw [byLastUse_snoc]
    by_cases same : r.digest = digest
    · exact List.mem_append_right _ (by simp [same])
    · apply List.mem_append_left
      exact List.mem_filter.2 ⟨h.mem r (old r hr same), by simpa using same⟩
  · rw [byLastUse_snoc]
    apply List.pairwise_append.2
    refine ⟨?_, List.pairwise_singleton _ _, ?_⟩
    · apply (h.ordered.sublist List.filter_sublist).imp_of_mem
      rintro d d' hd hd' earlier r hr q hq rfl rfl
      have hd : r.digest ≠ digest := by simpa using (List.mem_filter.1 hd).2
      have hd' : q.digest ≠ digest := by simpa using (List.mem_filter.1 hd').2
      exact earlier r (old r hr hd) q (old q hq hd') rfl rfl
    · -- what was used before has a date that is past
      rintro d hd d' hd' r hr q hq rfl rfl
      have hd : r.digest ≠ digest := by simpa using (List.mem_filter.1 hd).2
      rw [new q hq (List.mem_singleton.1 hd')]
      exact dated.past r (old r hr hd)

/-- **Every event** keeps the dates in order. -/
theorem step (h : Aged s uses) (dated : Dated s) {used : Option String}
    (hu : Uses s s' used) : Aged s' (uses ++ used.toList) := by
  cases hu with
  | nothing records =>
    rw [Option.toList_none, List.append_nil]
    exact h.fewer records
  | @touch digest known records =>
    apply h.use dated
    · intro r hr other
      rw [records] at hr
      obtain ⟨q, hq, rfl⟩ := List.mem_map.1 hr
      split at other
      · next same => exact absurd same other
      · next differ =>
        rw [if_neg differ]
        exact hq
    · intro r hr same
      rw [records] at hr
      obtain ⟨q, hq, rfl⟩ := List.mem_map.1 hr
      split at same
      · next same => rw [if_pos same]
      · contradiction
  | @adopt digest file size unknown records =>
    rw [adopt_unknown unknown] at records
    apply h.use dated
    · intro r hr other
      rw [records] at hr
      rcases List.mem_append.1 hr with hr | hr
      · exact hr
      · rw [List.mem_singleton] at hr
        exact absurd (hr ▸ rfl) other
    · intro r hr same
      rw [records] at hr
      rcases List.mem_append.1 hr with hr | hr
      · have := List.any_eq_false.1 unknown r hr
        simp [same] at this
      · rw [List.mem_singleton] at hr
        rw [hr]

theorem run {τ : Type} [Sink τ] (events : List (ReceptionEvent τ)) :
    Aged (({} : Reception τ).run events).store (({} : Reception τ).uses events) := by
  induction events using List.reverseRecOn with
  | nil =>
    constructor
    · rintro r ⟨⟩
    · exact List.Pairwise.nil
  | append_singleton events e ih =>
    rw [Reception.run_snoc, Reception.uses_snoc]
    exact ih.step (Recorded.run events).dated (Reception.uses_step _ e)

end Aged

end ContextEngine
end ImageBuild
