import ImageBuild.Proofs.Reception

/-!
# Ids and tokens of running builds

A running build that was given an id is entered in the store, from its first
move to its last one or until it is given up. Its token is made from that of the
context it came with, and nothing is made from the token of a build. So to
cancel an id cancels one build, and no request (`registry_run`).
-/

namespace ImageBuild

/-- The numbers of a token and of those it was made from. -/
def Token.lineage (t : Token) : List Nat := t.id :: t.ancestors

namespace Cancellation

/-- **To cancel** a token concerns those that have it in their lineage. -/
theorem isCancelled_cancel (c : Cancellation) (t u : Token) :
    (c.cancel t).isCancelled u = (decide (t.id ∈ u.lineage) || c.isCancelled u) := by
  rw [Bool.eq_iff_iff]
  simp only [isCancelled, cancel, Token.lineage, List.any_eq_true, List.contains_iff_mem,
    List.mem_cons, Bool.or_eq_true, decide_eq_true_eq]
  constructor
  · rintro ⟨k, hk, rfl | hc⟩
    · exact .inl hk
    · exact .inr ⟨k, hk, hc⟩
  · rintro (ht | ⟨k, hk, hc⟩)
    · exact ⟨t.id, ht, .inl rfl⟩
    · exact ⟨k, hk, .inr hc⟩

end Cancellation

namespace Store

theorem token?_eq_none_iff (s : Store) (id : String) :
    s.token? id = none ↔ id ∉ s.running.map (·.1) := by
  unfold token?
  rw [List.lookup_eq_none_iff]
  simp only [List.mem_map, not_exists, not_and, bne_iff_ne, ne_eq]
  exact ⟨fun h p hp he => h p hp he.symm, fun h p hp he => h p hp he.symm⟩

theorem cancel_of_free {s : Store} {id : String} (h : s.token? id = none) (c : Cancellation) :
    s.cancel id c = c := by
  simp only [cancel, h]

theorem mem_running_of_token? {s : Store} {id : String} {t : Token} (h : s.token? id = some t) :
    (id, t) ∈ s.running := by
  obtain ⟨before, after, hs, -⟩ := List.lookup_eq_some_iff.1 h
  rw [hs]
  simp

theorem register_of_free {s : Store} {id : String} (h : id ∉ s.running.map (·.1)) (t : Token) :
    s.register (some id) t = .ok { s with running := s.running ++ [(id, t)] } := by
  simp only [register, (s.token?_eq_none_iff id).2 h]

theorem register_of_mem {s : Store} {id : String} (h : id ∈ s.running.map (·.1)) (t : Token) :
    s.register (some id) t =
      .error (.invalidArgument ("build id " ++ Text.quote id ++ " is already in use")) := by
  cases ht : s.token? id with
  | none => exact absurd h ((s.token?_eq_none_iff id).1 ht)
  | some u => simp only [register, ht]

end Store

namespace ContextEngine

variable {τ : Type}

def Job.token? : Job → Option Token
  | .arriving .. => none
  | .running t _ _ => some t

/-- A running build that has an id, as it is entered. -/
def Job.registered? : Job → Option (String × Token)
  | .arriving .. => none
  | .running t o _ => o.buildId.map (·, t)

namespace Floor

def jobs (y : Floor τ) : List Job := y.seats.map (·.job)

def entries (y : Floor τ) : List (String × Token) := y.jobs.filterMap Job.registered?

theorem getElem?_jobs (y : Floor τ) (i : Nat) : y.jobs[i]? = (y.seats[i]?).map (·.job) :=
  List.getElem?_map ..

end Floor

section Lists

variable {α β : Type} {xs : List α} {i : Nat} {a : α}

theorem filterMap_perm_eraseIdx (h : xs[i]? = some a) (f : α → Option β) :
    (xs.filterMap f).Perm ((f a).toList ++ (xs.eraseIdx i).filterMap f) := by
  obtain ⟨hi, rfl⟩ := List.getElem?_eq_some_iff.1 h
  have perm := (List.getElem_cons_eraseIdx_perm hi).symm.filterMap f
  cases hf : f xs[i] <;> simpa [List.filterMap_cons, hf] using perm

theorem filterMap_set_perm (h : xs[i]? = some a) (b : α) (f : α → Option β) :
    ((xs.set i b).filterMap f).Perm ((f b).toList ++ (xs.eraseIdx i).filterMap f) := by
  obtain ⟨hi, -⟩ := List.getElem?_eq_some_iff.1 h
  have perm := (List.set_perm_cons_eraseIdx hi b).filterMap f
  cases hf : f b <;> simpa [List.filterMap_cons, hf] using perm

theorem filter_perm_of_cons {id : String} {t : Token} {entries rest : List (String × Token)}
    (perm : entries.Perm ((id, t) :: rest)) (once : (entries.map (·.1)).Nodup) :
    (entries.filter (·.1 ≠ id)).Perm rest := by
  have once := (perm.map (·.1)).nodup_iff.1 once
  have others : ∀ e ∈ rest, decide (e.1 ≠ id) = true := by
    intro e he
    have mem : e.1 ∈ rest.map (·.1) := List.mem_map_of_mem he
    rw [decide_eq_true_iff]
    rintro same
    exact (List.nodup_cons.1 once).1 (same ▸ mem)
  have filtered := perm.filter (·.1 ≠ id)
  rwa [List.filter_cons_of_neg (by simp), List.filter_eq_self.2 others] at filtered

end Lists

/-! ## What a move does to the registry -/

theorem Phase.Changes.running {p : Phase} {s s' : Store} (h : p.Changes s s') :
    s'.running = s.running := by
  cases h with
  | adopt => exact Store.adopt_running ..
  | _ => rfl

/-- What a move of a build has done to the registry and to the tokens. -/
inductive Job.Registers (j : Job) (w : Workshop Store) :
    Move Job (Except BuildError String) → Workshop Store → Prop where
  /-- the build is entered, with a token that is made from that of its context -/
  | enter {context : Context} {o : BuildOptions} {store : Store}
      (hj : j = .arriving context o)
      (h : w.store.register o.buildId (w.tokens.child context.token).1 = .ok store) :
      Registers j w (.go (.running (w.tokens.child context.token).1 o .opening))
        ⟨store, (w.tokens.child context.token).2⟩
  /-- the build goes on -/
  | go {t : Token} {o : BuildOptions} {p q : Phase} {w' : Workshop Store}
      (hj : j = .running t o p) (running : w'.store.running = w.store.running)
      (tokens : w'.tokens = w.tokens) : Registers j w (.go (.running t o q)) w'
  | wait : Registers j w .wait w
  /-- the build is taken out -/
  | leave {t : Token} {o : BuildOptions} {p : Phase} {result : Except BuildError String}
      (hj : j = .running t o p) :
      Registers j w (.stop result) { w with store := w.store.unregister o.buildId }
  /-- there is no upload -/
  | lack {context : Context} {o : BuildOptions} (hj : j = .arriving context o) :
      Registers j w (.stop (.error .missingContext)) w
  /-- the id is in use -/
  | refuse {context : Context} {o : BuildOptions} {e : BuildError} (hj : j = .arriving context o)
      (h : w.store.register o.buildId (w.tokens.child context.token).1 = .error e) :
      Registers j w (.stop (.error e)) { w with tokens := (w.tokens.child context.token).2 }

theorem Job.registers_move [Sink τ] (j : Job) (d : Desk Store τ) :
    j.Registers d.toWorkshop (j.move d).1 (j.move d).2.toWorkshop := by
  cases j with
  | arriving context options =>
    simp only [Job.move, arrive]
    split
    · exact .lack rfl
    · split
      · next e h => exact .refuse rfl h
      · next store h => exact .enter rfl h
  | running t o p =>
    have leads := p.leads_move t o d
    simp only [Job.move]
    rcases hp : p.move t o d with ⟨m, d'⟩
    rw [hp] at leads
    cases m with
    | go q => exact .go rfl leads.2.running leads.1
    | wait =>
      have same : d'.toWorkshop = d.toWorkshop := leads
      simp only [same]
      exact .wait
    | stop result =>
      obtain ⟨tokens, -, store⟩ := leads
      have same : d'.toWorkshop = ⟨d.store.unregister o.buildId, d.tokens⟩ := by
        rw [← tokens, ← store]
      simp only [same]
      exact .leave rfl

/-! ## Tokens that were given out -/

/-- Where the token of a build comes from: it was made from that of a context,
and no context's token was made from it. -/
def Job.IsIssued (contexts : List Context) (next : Nat) : Job → Prop
  | .arriving context _ => context ∈ contexts
  | .running t _ _ => t.id < next ∧ (∃ x ∈ contexts, t.ancestors = x.token.lineage) ∧
      ∀ x ∈ contexts, t.id ∉ x.token.lineage

/-- What is true of tokens and ids at a reception. -/
structure Issued (y : Reception τ) : Prop where
  entries : y.store.running.Perm y.floor.entries
  once : (y.store.running.map (·.1)).Nodup
  /-- the next token gets a number that is in no lineage -/
  below : ∀ x ∈ y.contexts, ∀ k ∈ x.token.lineage, k < y.tokens.next
  jobs : ∀ j ∈ y.floor.jobs, j.IsIssued y.contexts y.tokens.next
  apart : ((y.floor.jobs.filterMap Job.token?).map (·.id)).Nodup

namespace Job.IsIssued

variable {contexts : List Context} {next : Nat} {j : Job}

theorem later (h : j.IsIssued contexts next) : j.IsIssued contexts (next + 1) := by
  cases j with
  | arriving => exact h
  | running => exact ⟨Nat.lt_succ_of_lt h.1, h.2⟩

theorem meet (h : j.IsIssued contexts next) {x : Context}
    (fresh : x.token.id = next)
    (old : ∀ k ∈ x.token.ancestors, ∃ z ∈ contexts, k ∈ z.token.lineage) :
    j.IsIssued (contexts ++ [x]) (next + 1) := by
  cases j with
  | arriving => exact List.mem_append_left _ h
  | running t o p =>
    obtain ⟨lt, ⟨z, hz, ancestors⟩, none⟩ := h
    refine ⟨Nat.lt_succ_of_lt lt, ⟨z, List.mem_append_left _ hz, ancestors⟩, fun w hw => ?_⟩
    rcases List.mem_append.1 hw with hw | hw
    · exact none w hw
    · rw [List.mem_singleton.1 hw]
      intro mem
      rcases List.mem_cons.1 mem with he | hk
      · omega
      · obtain ⟨z', hz', hk'⟩ := old _ hk
        exact none z' hz' hk'

end Job.IsIssued

namespace Issued

variable {y : Reception τ}

theorem start : Issued (τ := τ) {} := by
  refine ⟨List.Perm.refl _, List.nodup_nil, ?_, ?_, List.nodup_nil⟩
  · rintro x ⟨⟩
  · rintro j ⟨⟩

theorem meet (h : Issued y) {x : Context} {c : Cancellation} (fresh : x.token.id = y.tokens.next)
    (counted : c.next = y.tokens.next + 1)
    (old : ∀ k ∈ x.token.ancestors, ∃ z ∈ y.contexts, k ∈ z.token.lineage) :
    Issued (y.meet (x, c)) := by
  refine ⟨h.entries, h.once, ?_, ?_, h.apart⟩
  · intro z hz k hk
    show k < c.next
    rw [counted]
    rcases List.mem_append.1 hz with hz | hz
    · exact Nat.lt_succ_of_lt (h.below z hz k hk)
    · rw [List.mem_singleton.1 hz] at hk
      rcases List.mem_cons.1 hk with rfl | hk
      · exact fresh ▸ Nat.lt_succ_self _
      · obtain ⟨z', hz', hk'⟩ := old k hk
        exact Nat.lt_succ_of_lt (h.below z' hz' k hk')
  · intro j hj
    show j.IsIssued (y.contexts ++ [x]) c.next
    rw [counted]
    exact (h.jobs j hj).meet fresh old

theorem same (h : Issued y) {y' : Reception τ} (running : y'.store.running = y.store.running)
    (jobs : y'.floor.jobs = y.floor.jobs) (contexts : y'.contexts = y.contexts)
    (next : y'.tokens.next = y.tokens.next) : Issued y' := by
  refine ⟨?_, running ▸ h.once, ?_, ?_, jobs ▸ h.apart⟩
  · rw [running, Floor.entries, jobs]
    exact h.entries
  · rw [contexts, next]
    exact h.below
  · rw [jobs, contexts, next]
    exact h.jobs

theorem jobs_change (y : Floor τ) (i : Nat) {f : Seat τ → Seat τ}
    (hf : ∀ seat, (f seat).job = seat.job) : (y.change i f).jobs = y.jobs := by
  refine List.ext_getElem? fun k => ?_
  simp only [Floor.getElem?_jobs, Floor.change, List.getElem?_modify]
  cases y.seats[k]? with
  | none => rfl
  | some seat =>
    simp only [Option.map_eq_map, Option.map_some]
    split
    · exact congrArg some (hf seat)
    · rfl

theorem set (h : Issued y) {y' : Reception τ} {i : Nat} {j k : Job}
    (hj : y.floor.jobs[i]? = some j) (jobs : y'.floor.jobs = y.floor.jobs.set i k)
    (contexts : y'.contexts = y.contexts)
    (entries : y'.store.running.Perm
      (k.registered?.toList ++ (y.floor.jobs.eraseIdx i).filterMap Job.registered?))
    (once : (y'.store.running.map (·.1)).Nodup)
    (next : y'.tokens.next = y.tokens.next ∨ y'.tokens.next = y.tokens.next + 1)
    (issued : k.IsIssued y.contexts y'.tokens.next)
    (apart : ∀ t, k.token? = some t →
      t.id ∉ ((y.floor.jobs.eraseIdx i).filterMap Job.token?).map (·.id)) : Issued y' := by
  refine ⟨?_, once, ?_, ?_, ?_⟩
  · rw [Floor.entries, jobs]
    exact entries.trans (filterMap_set_perm hj k _).symm
  · rw [contexts]
    intro x hx n hn
    have := h.below x hx n hn
    omega
  · rw [jobs, contexts]
    intro l hl
    rcases List.mem_or_eq_of_mem_set hl with hl | rfl
    · have := h.jobs l hl
      rcases next with he | he <;> rw [he]
      · exact this
      · exact Job.IsIssued.later this
    · exact issued
  · rw [jobs]
    have others : (((y.floor.jobs.eraseIdx i).filterMap Job.token?).map (·.id)).Nodup :=
      h.apart.sublist (((List.eraseIdx_sublist ..).filterMap _).map _)
    refine ((filterMap_set_perm hj k Job.token?).map (·.id)).nodup_iff.2 ?_
    cases ht : k.token? with
    | none => exact others
    | some t => exact List.nodup_cons.2 ⟨apart t ht, others⟩

theorem erase (h : Issued y) {y' : Reception τ} {i : Nat} {j : Job}
    (hj : y.floor.jobs[i]? = some j) (jobs : y'.floor.jobs = y.floor.jobs.eraseIdx i)
    (contexts : y'.contexts = y.contexts)
    (running : y'.store.running = y.store.running ∧ j.registered? = none ∨
      ∃ t o p, j = .running t o p ∧ y'.store.running = (y.store.unregister o.buildId).running)
    (next : y'.tokens.next = y.tokens.next ∨ y'.tokens.next = y.tokens.next + 1) : Issued y' := by
  have perm := h.entries.trans (filterMap_perm_eraseIdx hj Job.registered?)
  have left : y'.store.running.Perm ((y.floor.jobs.eraseIdx i).filterMap Job.registered?) := by
    rcases running with ⟨same, none⟩ | ⟨t, o, p, rfl, same⟩
    · rw [same]
      simpa [none] using perm
    · rw [same]
      cases hid : o.buildId with
      | none =>
        simp only [Job.registered?, hid] at perm
        exact perm
      | some id =>
        simp only [Job.registered?, hid] at perm
        exact filter_perm_of_cons perm h.once
  refine ⟨?_, ?_, ?_, ?_, ?_⟩
  · rw [Floor.entries, jobs]
    exact left
  · refine (left.map (·.1)).nodup_iff.2 ?_
    exact ((h.entries.map (·.1)).nodup_iff.1 h.once).sublist
      (((List.eraseIdx_sublist ..).filterMap _).map _)
  · rw [contexts]
    intro x hx n hn
    have := h.below x hx n hn
    omega
  · rw [jobs, contexts]
    intro l hl
    have := h.jobs l (List.mem_of_mem_eraseIdx hl)
    rcases next with he | he <;> rw [he]
    · exact this
    · exact Job.IsIssued.later this
  · rw [jobs]
    exact h.apart.sublist (((List.eraseIdx_sublist ..).filterMap _).map _)

theorem child (h : Issued y) {context : Context} {o : BuildOptions}
    (hj : .arriving context o ∈ y.floor.jobs) :
    (Job.running (y.tokens.child context.token).1 o .opening).IsIssued y.contexts
        (y.tokens.next + 1) ∧
      (y.tokens.child context.token).1.id ∉ (y.floor.jobs.filterMap Job.token?).map (·.id) := by
  refine ⟨⟨Nat.lt_succ_self _, ⟨context, h.jobs _ hj, rfl⟩, fun x hx mem => ?_⟩, ?_⟩
  · exact absurd (h.below x hx _ mem) (Nat.lt_irrefl _)
  · intro mem
    obtain ⟨t, ht, hid⟩ := List.mem_map.1 mem
    obtain ⟨j, hj, hjt⟩ := List.mem_filterMap.1 ht
    cases j with
    | arriving => cases hjt
    | running u p q =>
      cases hjt
      have lt := (h.jobs _ hj).1
      rw [hid] at lt
      exact absurd lt (Nat.lt_irrefl _)

theorem enter (h : Issued y) {y' : Reception τ} {i : Nat} {context : Context} {o : BuildOptions}
    (hj : y.floor.jobs[i]? = some (.arriving context o))
    (hr : y.store.register o.buildId (y.tokens.child context.token).1 = .ok y'.store)
    (jobs : y'.floor.jobs =
      y.floor.jobs.set i (.running (y.tokens.child context.token).1 o .opening))
    (contexts : y'.contexts = y.contexts)
    (tokens : y'.tokens = (y.tokens.child context.token).2) : Issued y' := by
  obtain ⟨issued, apart⟩ := h.child (List.mem_of_getElem? hj)
  obtain ⟨free, store⟩ := Store.register_ok hr
  have next : y'.tokens.next = y.tokens.next + 1 := congrArg (·.next) tokens
  have perm := h.entries.trans (filterMap_perm_eraseIdx hj Job.registered?)
  refine h.set hj jobs contexts ?_ ?_ (.inr next) (next ▸ issued) ?_
  · rw [store]
    exact List.perm_append_comm.trans (perm.append_left _)
  · rw [store]
    cases hid : o.buildId with
    | none => simpa using h.once
    | some id =>
      have unused := (y.store.token?_eq_none_iff id).1 (free id hid)
      rw [List.map_append]
      refine List.nodup_append.2 ⟨h.once, List.nodup_singleton _, ?_⟩
      rintro a ha b hb rfl
      rw [List.mem_singleton.1 hb] at ha
      exact unused ha
  · rintro t ⟨⟩ hid
    have others := ((List.eraseIdx_sublist y.floor.jobs i).filterMap Job.token?).map (·.id)
    exact apart (others.subset hid)

theorem goOn (h : Issued y) {y' : Reception τ} {i : Nat} {t : Token} {o : BuildOptions}
    {p q : Phase} (hj : y.floor.jobs[i]? = some (.running t o p))
    (jobs : y'.floor.jobs = y.floor.jobs.set i (.running t o q))
    (contexts : y'.contexts = y.contexts) (running : y'.store.running = y.store.running)
    (tokens : y'.tokens = y.tokens) : Issued y' := by
  have perm := h.entries.trans (filterMap_perm_eraseIdx hj Job.registered?)
  have issued := h.jobs _ (List.mem_of_getElem? hj)
  have apart := ((filterMap_perm_eraseIdx hj Job.token?).map (·.id)).nodup_iff.1 h.apart
  refine h.set hj jobs contexts (running ▸ perm) (running ▸ h.once) (.inl (by rw [tokens])) ?_ ?_
  · rw [tokens]
    exact issued
  · rintro u ⟨⟩
    exact (List.nodup_cons.1 apart).1

section Moves

variable [Sink τ]

theorem jobs_move_go {y : Floor τ} {i : Nat} {seat : Seat τ} {job : Job} {d : Desk Store τ}
    (hs : y.seats[i]? = some seat) (h : seat.job.move (y.desk seat) = (.go job, d)) :
    (y.move i).jobs = y.jobs.set i job := by
  rw [Floor.jobs, (Floor.move_go hs h).2, List.map_set]
  rfl

theorem jobs_move_wait {y : Floor τ} {i : Nat} {seat : Seat τ} {d : Desk Store τ}
    (hs : y.seats[i]? = some seat) (h : seat.job.move (y.desk seat) = (.wait, d)) :
    (y.move i).jobs = y.jobs := by
  have hj : y.jobs[i]? = some seat.job := by rw [Floor.getElem?_jobs, hs]; rfl
  obtain ⟨hi, hget⟩ := List.getElem?_eq_some_iff.1 hj
  rw [Floor.jobs, (Floor.move_wait hs h).2, List.map_set]
  show y.jobs.set i seat.job = y.jobs
  rw [← hget]
  exact List.set_getElem_self hi

theorem jobs_move_stop {y : Floor τ} {i : Nat} {seat : Seat τ} {d : Desk Store τ}
    {result : Except BuildError String} (hs : y.seats[i]? = some seat)
    (h : seat.job.move (y.desk seat) = (.stop result, d)) :
    (y.move i).jobs = y.jobs.eraseIdx i := by
  rw [Floor.jobs, (Floor.move_stop hs h).2]
  exact (List.eraseIdx_map ..).symm

omit [Sink τ] in
theorem jobs_giveUp {y : Floor τ} {i : Nat} {seat : Seat τ} (hs : y.seats[i]? = some seat) :
    (y.giveUp i).jobs = y.jobs.eraseIdx i := by
  rw [Floor.jobs, (Floor.giveUp_some hs).2]
  exact (List.eraseIdx_map ..).symm

theorem floor_move (y : Reception τ) (i : Nat) :
    (y.step (.move i)).floor = y.floor.move i ∧ (y.step (.move i)).contexts = y.contexts := by
  simp only [Reception.step]
  split <;> exact ⟨rfl, rfl⟩

theorem move (h : Issued y) (i : Nat) : Issued (y.step (.move i)) := by
  obtain ⟨floor, contexts⟩ := floor_move y i
  cases hs : y.floor.seats[i]? with
  | none =>
    have nothing := floor.trans (Floor.move_none hs).2
    refine h.same ?_ ?_ contexts ?_ <;> simp only [Reception.store, Reception.tokens, nothing]
  | some seat =>
    have hj : y.floor.jobs[i]? = some seat.job := by rw [Floor.getElem?_jobs, hs]; rfl
    have registers := seat.job.registers_move (y.floor.desk seat)
    rw [← Floor.move_workshop hs, ← floor] at registers
    rcases hm : seat.job.move (y.floor.desk seat) with ⟨m, d⟩
    rw [hm] at registers
    have go {job : Job} (hgo : m = .go job) :
        (y.step (.move i)).floor.jobs = y.floor.jobs.set i job :=
      floor ▸ jobs_move_go hs (hgo ▸ hm)
    have stop {result : Except BuildError String} (hstop : m = .stop result) :
        (y.step (.move i)).floor.jobs = y.floor.jobs.eraseIdx i :=
      floor ▸ jobs_move_stop hs (hstop ▸ hm)
    have wait (hwait : m = .wait) : (y.step (.move i)).floor.jobs = y.floor.jobs :=
      floor ▸ jobs_move_wait hs (hwait ▸ hm)
    generalize hw : (y.step (.move i)).floor.workshop = w at registers
    have store : (y.step (.move i)).store = w.store := congrArg (·.store) hw
    have tokens : (y.step (.move i)).tokens = w.tokens := congrArg (·.tokens) hw
    cases registers with
    | enter hjob hr => exact h.enter (hjob ▸ hj) (store ▸ hr) (go rfl) contexts tokens
    | go hjob running tokens' =>
      exact h.goOn (hjob ▸ hj) (go rfl) contexts (store ▸ running) (tokens.trans tokens')
    | wait => exact h.same (store ▸ rfl) (wait rfl) contexts (tokens ▸ rfl)
    | @leave t o p result hjob =>
      exact h.erase hj (stop rfl) contexts (.inr ⟨t, o, p, hjob, store ▸ rfl⟩) (.inl (tokens ▸ rfl))
    | lack hjob =>
      exact h.erase hj (stop rfl) contexts (.inl ⟨store ▸ rfl, hjob ▸ rfl⟩) (.inl (tokens ▸ rfl))
    | refuse hjob _ =>
      exact h.erase hj (stop rfl) contexts (.inl ⟨store ▸ rfl, hjob ▸ rfl⟩) (.inr (tokens ▸ rfl))

theorem giveUp (h : Issued y) (i : Nat) : Issued (y.step (.giveUp i)) := by
  show Issued (y.leave (y.floor.giveUp i) i)
  cases hs : y.floor.seats[i]? with
  | none =>
    have nothing : y.floor.giveUp i = y.floor := by simp only [Floor.giveUp, hs]
    refine h.same ?_ ?_ rfl ?_ <;>
      simp only [Reception.leave, Reception.store, Reception.tokens, nothing]
  | some seat =>
    have hj : y.floor.jobs[i]? = some seat.job := by rw [Floor.getElem?_jobs, hs]; rfl
    obtain ⟨workshop, -⟩ := Floor.giveUp_some hs
    have jobs : (y.floor.giveUp i).jobs = y.floor.jobs.eraseIdx i := jobs_giveUp hs
    have store : (y.leave (y.floor.giveUp i) i).store = seat.job.abandon y.store :=
      congrArg (·.store) workshop
    have tokens : (y.leave (y.floor.giveUp i) i).tokens = y.tokens := congrArg (·.tokens) workshop
    refine h.erase hj jobs rfl ?_ (.inl (tokens ▸ rfl))
    rw [store]
    cases seat.job with
    | arriving => exact .inl ⟨rfl, rfl⟩
    | running t o p => exact .inr ⟨t, o, p, rfl, rfl⟩

theorem arrive (h : Issued y) (k : Nat) (options : BuildOptions) (upload : Option Upload)
    (writer : Writer τ) : Issued (y.step (.arrive k options upload writer)) := by
  simp only [Reception.step]
  split
  · exact h
  · next context hk =>
    have jobs :
        (y.floor.step (.arrive context options (Visit.source { context, upload }) writer)).jobs =
        y.floor.jobs ++ [.arriving context options] := by
      simp [Floor.jobs, Floor.step]
    -- a build that has not begun has no token and no entry
    have none (β : Type) (f : Job → Option β) (hf : f (Job.arriving context options) = none) :
        (y.floor.jobs ++ [Job.arriving context options]).filterMap f =
          y.floor.jobs.filterMap f := by
      simp [List.filterMap_append, hf]
    refine ⟨?_, h.once, h.below, ?_, ?_⟩
    · rw [Floor.entries, jobs, none _ Job.registered? rfl]
      exact h.entries
    · rw [jobs]
      intro j hj
      rcases List.mem_append.1 hj with hj | hj
      · exact h.jobs j hj
      · rw [List.mem_singleton.1 hj]
        exact List.mem_of_getElem? hk
    · rw [jobs, none _ Job.token? rfl]
      exact h.apart

theorem step (h : Issued y) (e : ReceptionEvent τ) : Issued (y.step e) := by
  cases e with
  | request version => exact h.meet rfl rfl (by rintro k ⟨⟩)
  | branch k =>
    simp only [Reception.step]
    split
    · exact h
    · next x hx =>
      exact h.meet rfl rfl fun n hn => ⟨x, List.mem_of_getElem? hx, hn⟩
  | arrive k options upload writer => exact h.arrive k options upload writer
  | move i => exact h.move i
  | giveUp i => exact h.giveUp i
  | feed i items =>
    simp only [Reception.step]
    split
    · exact h.same rfl (jobs_change y.floor i fun _ => rfl) rfl rfl
    · exact h
  | complete i => exact h.same rfl (jobs_change y.floor i fun _ => rfl) rfl rfl
  | respond i sink => exact h.same rfl (jobs_change y.floor i fun _ => rfl) rfl rfl
  | cancel token => exact h.same rfl rfl rfl rfl
  | disk fault => exact h.same rfl rfl rfl rfl
  | cancelId id =>
    refine h.same rfl rfl rfl ?_
    show (y.store.cancel id y.tokens).next = y.tokens.next
    unfold Store.cancel
    split <;> rfl
  | strike o =>
    refine h.same ?_ rfl rfl rfl
    show (y.store.strike o).2.running = y.store.running
    unfold Store.strike
    split <;> rfl
  | sweep i =>
    have swept : (y.floor.step (.sweep i)).workshop.store.running = y.store.running ∧
        (y.floor.step (.sweep i)).jobs = y.floor.jobs ∧
        (y.floor.step (.sweep i)).workshop.tokens = y.tokens := by
      simp only [Floor.step]
      split <;> exact ⟨rfl, rfl, rfl⟩
    exact h.same swept.1 swept.2.1 rfl (congrArg (·.next) swept.2.2)

theorem run (h : Issued y) (events : List (ReceptionEvent τ)) : Issued (y.run events) := by
  induction events using List.reverseRecOn with
  | nil => exact h
  | append_singleton events e ih =>
    rw [Reception.run_snoc]
    exact ih.step e

end Moves

end Issued

/-! ## The registry -/

/-- **The registry of running builds** at a reception. -/
structure Registry [Sink τ] (y : Reception τ) : Prop where
  /-- what is registered are the running builds that have an id, with their tokens -/
  entries : y.store.running.Perm y.floor.entries
  once : (y.store.running.map (·.1)).Nodup
  /-- A build that has an upload and an id in use is refused. It writes nothing
  and takes nothing, and all else is left as it is. -/
  refuses : ∀ (i : Nat) (seat : Seat τ) (context : Context) (options : BuildOptions) (id : String),
    y.floor.seats[i]? = some seat → seat.job = .arriving context options →
    seat.source.isSome → options.buildId = some id → id ∈ y.floor.entries.map (·.1) →
    ∃ d, seat.job.move (y.floor.desk seat) = (.stop (.error
        (.invalidArgument ("build id " ++ Text.quote id ++ " is already in use"))), d) ∧
      d.source = seat.source ∧ d.writer = seat.writer ∧
      (y.step (.move i)).store = y.store ∧
      (y.step (.move i)).floor.seats = y.floor.seats.eraseIdx i ∧
      ∀ t, (y.step (.move i)).tokens.isCancelled t = y.tokens.isCancelled t
  /-- To cancel an id never fails. It concerns the one running build that has the
  id, and nothing if there is none. -/
  cancels : ∀ (version : Version) (id : String),
    Engine.cancel Job version id y.floor.workshop =
      (.ok (), (y.step (.cancelId id)).floor.workshop) ∧
    (∀ t o p, .running t o p ∈ y.floor.jobs → (y.step (.cancelId id)).tokens.isCancelled t =
      (decide (o.buildId = some id) || y.tokens.isCancelled t)) ∧
    (id ∉ y.floor.entries.map (·.1) → (y.step (.cancelId id)).floor = y.floor)
  /-- To cancel an id does not reach a request, also if the request is that of
  the build and the build has ended. -/
  spares : ∀ (later : List (ReceptionEvent τ)) (id : String), ∀ x ∈ y.contexts,
    ((y.run later).step (.cancelId id)).tokens.isCancelled x.token =
      (y.run later).tokens.isCancelled x.token
  /-- When a build has ended or was given up, its id is free. -/
  frees : ∀ (i : Nat) (t : Token) (o : BuildOptions) (p : Phase) (id : String),
    y.floor.jobs[i]? = some (.running t o p) → o.buildId = some id →
    ∀ e, e = .giveUp i ∨ e = .move i ∧ y.floor.stops i = true →
      ∀ t', ∃ s, (y.step e).store.register (some id) t' = .ok s

namespace Issued

variable [Sink τ] {y : Reception τ}

omit [Sink τ] in
theorem mem_ids (h : Issued y) (id : String) :
    id ∈ y.store.running.map (·.1) ↔ id ∈ y.floor.entries.map (·.1) :=
  (h.entries.map (·.1)).mem_iff

omit [Sink τ] in
theorem own (h : Issued y) {a b : Job} (ha : a ∈ y.floor.jobs) (hb : b ∈ y.floor.jobs)
    {t u : Token} (hat : a.token? = some t) (hbu : b.token? = some u) (same : t.id = u.id) :
    a = b := by
  have apart := List.pairwise_iff_getElem.1
    (List.pairwise_filterMap.1 (List.pairwise_map.1 h.apart))
  obtain ⟨i, hi, rfl⟩ := List.mem_iff_getElem.1 ha
  obtain ⟨j, hj, rfl⟩ := List.mem_iff_getElem.1 hb
  rcases Nat.lt_trichotomy i j with lt | rfl | lt
  · exact (apart i j hi hj lt t hat u hbu same).elim
  · rfl
  · exact (apart j i hj hi lt u hbu t hat same.symm).elim

omit [Sink τ] in
theorem mem_lineage (h : Issued y) {id : String} {u : Token} (hu : (id, u) ∈ y.store.running) :
    (∀ x ∈ y.contexts, u.id ∉ x.token.lineage) ∧
      ∀ t o p, .running t o p ∈ y.floor.jobs → (u.id ∈ t.lineage ↔ o.buildId = some id) := by
  obtain ⟨k, hk, hku⟩ := List.mem_filterMap.1 (h.entries.mem_iff.1 hu)
  cases k with
  | arriving => cases hku
  | running v o' p' =>
    obtain ⟨id', hid', he⟩ := Option.map_eq_some_iff.1 hku
    cases he
    have none := (h.jobs _ hk).2.2
    refine ⟨none, fun t o p hj => ?_⟩
    constructor
    · intro mem
      rcases List.mem_cons.1 mem with same | old
      · cases h.own hk hj rfl rfl same
        exact hid'
      · -- what a build's token was made from belongs to contexts
        obtain ⟨-, ⟨x, hx, ancestors⟩, -⟩ := h.jobs _ hj
        exact absurd (ancestors ▸ old) (none x hx)
    · intro hid
      have ht : (id, t) ∈ y.store.running :=
        h.entries.mem_iff.2 (List.mem_filterMap.2 ⟨_, hj, by simp [Job.registered?, hid]⟩)
      cases List.inj_on_of_nodup_map h.once hu ht rfl
      exact List.mem_cons_self ..

omit [Sink τ] in
/-- What to cancel an id does to the token of a running build. -/
theorem cancel_build (h : Issued y) (id : String) {t : Token} {o : BuildOptions} {p : Phase}
    (hj : .running t o p ∈ y.floor.jobs) : (y.store.cancel id y.tokens).isCancelled t =
      (decide (o.buildId = some id) || y.tokens.isCancelled t) := by
  unfold Store.cancel
  cases ht : y.store.token? id with
  | none =>
    have free := (y.store.token?_eq_none_iff id).1 ht
    have other : o.buildId ≠ some id := by
      intro hid
      refine free ((h.mem_ids id).2 (List.mem_map.2 ⟨(id, t), ?_, rfl⟩))
      exact List.mem_filterMap.2 ⟨_, hj, by simp [Job.registered?, hid]⟩
    simp only [other, decide_false, Bool.false_or]
  | some u =>
    have lineage := (h.mem_lineage (Store.mem_running_of_token? ht)).2 t o p hj
    simp only [Cancellation.isCancelled_cancel, lineage]

omit [Sink τ] in
theorem cancel_context (h : Issued y) (id : String) {x : Context} (hx : x ∈ y.contexts) :
    (y.store.cancel id y.tokens).isCancelled x.token = y.tokens.isCancelled x.token := by
  unfold Store.cancel
  cases ht : y.store.token? id with
  | none => rfl
  | some u =>
    have none := (h.mem_lineage (Store.mem_running_of_token? ht)).1 x hx
    simp only [Cancellation.isCancelled_cancel, none, decide_false, Bool.false_or]

theorem contexts_step (y : Reception τ) (e : ReceptionEvent τ) :
    y.contexts ⊆ (y.step e).contexts := by
  have all : y.contexts ⊆ y.contexts := fun _ hx => hx
  cases e with
  | request version => exact List.subset_append_left ..
  | branch k =>
    simp only [Reception.step]
    split
    · exact all
    · exact List.subset_append_left ..
  | arrive k options upload writer =>
    simp only [Reception.step]
    split <;> exact all
  | move i => exact (floor_move y i).2 ▸ all
  | feed i items =>
    simp only [Reception.step]
    split <;> exact all
  | _ => exact all

theorem contexts_run (y : Reception τ) (events : List (ReceptionEvent τ)) :
    y.contexts ⊆ (y.run events).contexts := by
  induction events using List.reverseRecOn with
  | nil => exact fun _ hx => hx
  | append_singleton events e ih =>
    rw [Reception.run_snoc]
    exact fun x hx => contexts_step _ e (ih hx)

theorem refuses (h : Issued y) {i : Nat} {seat : Seat τ} {context : Context}
    {options : BuildOptions} {id : String} (hs : y.floor.seats[i]? = some seat)
    (hj : seat.job = .arriving context options) (hsource : seat.source.isSome)
    (hid : options.buildId = some id) (used : id ∈ y.floor.entries.map (·.1)) :
    ∃ d, seat.job.move (y.floor.desk seat) = (.stop (.error
        (.invalidArgument ("build id " ++ Text.quote id ++ " is already in use"))), d) ∧
      d.source = seat.source ∧ d.writer = seat.writer ∧
      (y.step (.move i)).store = y.store ∧
      (y.step (.move i)).floor.seats = y.floor.seats.eraseIdx i ∧
      ∀ t, (y.step (.move i)).tokens.isCancelled t = y.tokens.isCancelled t := by
  obtain ⟨source, hsome⟩ := Option.isSome_iff_exists.1 hsource
  have refused := Store.register_of_mem ((h.mem_ids id).2 used)
    (y.tokens.child context.token).1
  have moved : seat.job.move (y.floor.desk seat) = (.stop (.error
      (.invalidArgument ("build id " ++ Text.quote id ++ " is already in use"))),
      (y.floor.desk seat).inWorkshop ⟨y.store, (y.tokens.child context.token).2⟩) := by
    simp only [Reception.store, Reception.tokens] at refused
    simp only [hj, Job.move, ContextEngine.arrive, Floor.desk, hsome, hid, Desk.inWorkshop, refused]
    rfl
  have workshop := Floor.move_workshop hs
  rw [moved, ← (floor_move y i).1] at workshop
  refine ⟨_, moved, rfl, rfl, congrArg (·.store) workshop, ?_, fun t => ?_⟩
  · rw [(floor_move y i).1]
    exact (Floor.move_stop hs moved).2
  · have tokens : (y.step (.move i)).tokens = (y.tokens.child context.token).2 :=
      congrArg (·.tokens) workshop
    rw [tokens]
    rfl

omit [Sink τ] in
theorem free_of_erase (h : Issued y) {z : Reception τ} (hz : Issued z) {i : Nat} {j : Job}
    {id : String} {t : Token} (hj : y.floor.jobs[i]? = some j)
    (entry : j.registered? = some (id, t))
    (jobs : z.floor.jobs = y.floor.jobs.eraseIdx i) (u : Token) :
    ∃ s, z.store.register (some id) u = .ok s := by
  have once := (h.entries.map (·.1)).nodup_iff.1 h.once
  have perm := ((filterMap_perm_eraseIdx hj Job.registered?).map (·.1)).nodup_iff.1 once
  rw [entry] at perm
  have unused : id ∉ z.store.running.map (·.1) := by
    rw [hz.mem_ids, Floor.entries, jobs]
    exact (List.nodup_cons.1 perm).1
  exact ⟨_, Store.register_of_free unused u⟩

theorem frees (h : Issued y) {i : Nat} {t : Token} {o : BuildOptions} {p : Phase} {id : String}
    (hj : y.floor.jobs[i]? = some (.running t o p)) (hid : o.buildId = some id)
    {e : ReceptionEvent τ} (he : e = .giveUp i ∨ e = .move i ∧ y.floor.stops i = true)
    (u : Token) : ∃ s, (y.step e).store.register (some id) u = .ok s := by
  have entry : (Job.running t o p).registered? = some (id, t) := by simp [Job.registered?, hid]
  refine h.free_of_erase (h.step e) hj entry ?_ u
  obtain ⟨seat, hs, hjob⟩ := Option.map_eq_some_iff.1 ((y.floor.getElem?_jobs i).symm.trans hj)
  rcases he with rfl | ⟨rfl, stops⟩
  · exact jobs_giveUp hs
  · rw [(floor_move y i).1]
    rcases hm : seat.job.move (y.floor.desk seat) with ⟨m, d⟩
    cases m with
    | stop result => exact jobs_move_stop hs hm
    | go job =>
      rw [(Floor.move_go hs hm).1] at stops
      cases stops
    | wait =>
      rw [(Floor.move_wait hs hm).1] at stops
      cases stops

end Issued

/-- **At every moment**, whatever builds start, end or are given up and whatever
is cancelled, the registry is that of the running builds. -/
theorem registry_run [Sink τ] (events : List (ReceptionEvent τ)) :
    Registry (({} : Reception τ).run events) := by
  have issued := Issued.run (τ := τ) .start events
  refine ⟨issued.entries, issued.once, ?_, ?_, ?_, ?_⟩
  · intro i seat context options id hs hj hsource hid used
    exact issued.refuses hs hj hsource hid used
  · intro version id
    refine ⟨rfl, fun t o p hj => issued.cancel_build id hj, fun unused => ?_⟩
    have free := (Store.token?_eq_none_iff _ id).2 fun mem => unused ((issued.mem_ids id).1 mem)
    exact congrArg (Floor.withTokens _) (Store.cancel_of_free free _)
  · intro later id x hx
    exact (issued.run later).cancel_context id (Issued.contexts_run _ later hx)
  · intro i t o p id hj hid e he u
    exact issued.frees hj hid he u

end ContextEngine
end ImageBuild
