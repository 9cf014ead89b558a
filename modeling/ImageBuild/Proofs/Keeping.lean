import ImageBuild.Proofs.Returning

/-!
# What builds do to the cache

A build changes what the cache keeps in one move only, the one after which nothing is left
to do but to return its image (`Reception.kept_move`). A build without the cache changes
no record at all (`Reception.records_move_noCache`), nor does a build that is given up.
-/

namespace ImageBuild
namespace Store

/-- What the cache keeps, without regard to when it was used. -/
def kept (s : Store) : List (String × Nat × Nat) := s.records.map fun r => (r.digest, r.file, r.size)

theorem kept_of_records {s s' : Store} (h : s'.records = s.records) : s'.kept = s.kept := by
  rw [kept, kept, h]

theorem kept_touch (s : Store) (digest : String) : (s.touch digest).2.kept = s.kept := by
  simp only [kept, touch, List.map_map]
  refine List.map_congr_left fun r _ => ?_
  simp only [Function.comp]
  split <;> rfl

theorem records_register {s s' : Store} {id : Option String} {t : Token}
    (h : s.register id t = .ok s') : s'.records = s.records := by
  obtain ⟨-, rfl⟩ := register_ok h
  rfl

end Store

namespace ContextEngine

variable {τ : Type}

def Job.options : Job → BuildOptions
  | .arriving _ o => o
  | .running _ o _ => o

/-! ## Moves -/

theorem Phase.Changes.records {p : Phase} {s s' : Store} (h : p.Changes s s') :
    s'.records = s.records ∨ (∃ file digest, p = .looking file ∧ s' = (s.touch digest).2) ∨
      ∃ c isKnown id, p = .concluding c isKnown (.ok id) := by
  cases h with
  | nothing | create | tick | append | discard => exact .inl rfl
  | touch hp => exact .inr (.inl ⟨_, _, hp, rfl⟩)
  | adopt hp => exact .inr (.inr ⟨_, _, _, hp⟩)

theorem records_conclude (o : BuildOptions) (c : ReceivedContext) (isKnown : Bool) (id : String)
    (s : Store) :
    (conclude o c isKnown (.ok id) s).2.records = s.records ∨
      o.noCache = false ∧ (conclude o c isKnown (.ok id) s).1 = .leaving (.ok id) := by
  rcases conclude_cases o c isKnown (.ok id) s with
    ⟨-, h⟩ | ⟨_, -, -, -, known, h⟩ | ⟨_, same, cached, -, -, h⟩ <;> rw [h]
  · exact .inl rfl
  · left
    simp only [Store.adopt, known, if_true]
  · cases same
    exact .inr ⟨cached, rfl⟩

variable [Sink τ]

theorem Phase.records_move (token : Token) (o : BuildOptions) (p : Phase) (d : Desk Store τ) :
    (p.move token o d).2.store.records = d.store.records ∨
      o.noCache = false ∧ ((p.move token o d).2.store.kept = d.store.kept ∨
        ∃ id, (p.move token o d).1 = .go (.leaving (.ok id))) := by
  have leads := p.leads_move token o d
  rcases hm : p.move token o d with ⟨m, d'⟩
  rw [hm] at leads
  cases m with
  | wait => exact .inl (congrArg (·.store.records) leads)
  | stop result =>
    obtain ⟨-, -, store⟩ := leads
    left
    show d'.store.records = d.store.records
    rw [store, Store.unregister_records]
  | go q =>
    rcases leads.2.records with same | ⟨file, digest, rfl, touched⟩ | ⟨c, isKnown, id, rfl⟩
    · exact .inl same
    · cases cached : o.noCache with
      | false => exact .inr ⟨rfl, .inl (touched ▸ d.store.kept_touch digest)⟩
      | true =>
        simp only [Phase.move, cached, if_true] at hm
        obtain ⟨-, rfl⟩ := Prod.mk.inj hm
        exact .inl (congrArg (·.store.records) d.dropSource_toWorkshop)
    · cases hm
      rcases records_conclude o c isKnown id d.store with same | ⟨cached, last⟩
      · exact .inl same
      · exact .inr ⟨cached, .inr ⟨id, congrArg _ last⟩⟩

theorem Job.records_move (j : Job) (d : Desk Store τ) :
    (j.move d).2.store.records = d.store.records ∨
      j.options.noCache = false ∧ ((j.move d).2.store.kept = d.store.kept ∨
        ∃ token o id, (j.move d).1 = .go (.running token o (.leaving (.ok id)))) := by
  cases j with
  | arriving context o =>
    left
    simp only [Job.move, arrive]
    split
    · rfl
    · split
      · rfl
      · next store h => exact Store.records_register h
  | running token o p =>
    have records := p.records_move token o d
    simp only [Job.move]
    rcases hm : p.move token o d with ⟨m, d'⟩
    rw [hm] at records
    rcases records with same | ⟨cached, same | ⟨id, last⟩⟩
    · cases m <;> exact .inl same
    · cases m <;> exact .inr ⟨cached, .inl same⟩
    · cases last
      exact .inr ⟨cached, .inr ⟨token, o, id, rfl⟩⟩

/-! ## Builds at a reception -/

namespace Reception

/-- **A build without the cache** changes no record. -/
theorem records_move_noCache {y : Reception τ} {i : Nat} {seat : Seat τ}
    (hs : y.floor.seats[i]? = some seat) (uncached : seat.job.options.noCache = true) :
    (y.step (.move i)).store.records = y.store.records := by
  rw [store_move hs]
  refine (seat.job.records_move (y.floor.desk seat)).resolve_right ?_
  rintro ⟨cached, -⟩
  rw [uncached] at cached
  cases cached

/-- **A build that is given up** changes no record. -/
theorem records_giveUp (y : Reception τ) (i : Nat) :
    (y.step (.giveUp i)).store.records = y.store.records := by
  show (y.floor.giveUp i).workshop.store.records = _
  cases hs : y.floor.seats[i]? with
  | none =>
    simp only [Floor.giveUp, hs]
    rfl
  | some seat =>
    rw [(Floor.giveUp_some hs).1]
    show (seat.job.abandon y.floor.workshop.store).records = _
    unfold Job.abandon
    split
    · rfl
    · rw [Store.unregister_records]
      rfl

/-- **A build that changes what the cache keeps** has nothing left to do but to return its
image. -/
theorem kept_move (events : List (ReceptionEvent τ)) (i : Nat) :
    (watch (events ++ [.move i])).store.kept = (watch events).store.kept ∨
      ∃ x id, (watch (events ++ [.move i])).return? i = some x ∧ x.result = .ok id := by
  have tells := tells_watch (events ++ [.move i])
  rw [watch_snoc] at tells ⊢
  change Reception.Tells ((watch events).step (.move i)) at tells
  show ((watch events).step (.move i)).store.kept = _ ∨ _
  cases hs : (watch events).floor.seats[i]? with
  | none =>
    left
    have nothing := (Issued.floor_move (watch events) i).1.trans (Floor.move_none hs).2
    exact congrArg (·.workshop.store.kept) nothing
  | some seat =>
    rcases seat.job.records_move ((watch events).floor.desk seat) with
      same | ⟨-, same | ⟨token, o, id, last⟩⟩
    · exact .inl (store_move hs ▸ Store.kept_of_records same)
    · exact .inl (store_move hs ▸ same)
    · right
      obtain ⟨v, hv⟩ := (recorded_watch events).exists_visit hs
      obtain ⟨hs', hv', -⟩ := step_go hs hv (Prod.ext last rfl)
      obtain ⟨u, hu, -⟩ := tells i _ _ hs' hv'
      have returns : ∃ x, ((watch events).step (.move i)).return? i = some x ∧ x.result = .ok id := by
        simp only [return?, hs', hv', hu]
        exact ⟨_, rfl, rfl⟩
      obtain ⟨x, hx, result⟩ := returns
      exact ⟨x, id, hx, result⟩

end Reception
end ContextEngine
end ImageBuild
