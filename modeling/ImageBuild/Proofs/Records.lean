import ImageBuild.Proofs.Copies

/-!
# Every record tells the truth

A record of the cache names a file, a digest and a size. The file holds the
octets of one upload that arrived whole, and digest and size are theirs. It was
received by a build (`Phase.Copies`), which left it to the record when it ended
(`Recorded`).
-/

namespace ImageBuild
namespace ContextEngine

variable {τ : Type}

/-! ## Records -/

/-- Records were used at different times, all of them past. -/
structure Dated (s : Store) : Prop where
  once : (s.records.map (·.lastUsed)).Nodup
  past : ∀ r ∈ s.records, r.lastUsed < s.clock

namespace Dated

variable {s s' : Store}

theorem ofSublist (h : Dated s) (records : s'.records.Sublist s.records)
    (clock : s.clock ≤ s'.clock) : Dated s' :=
  ⟨h.once.sublist (records.map _),
    fun r hr => Nat.lt_of_lt_of_le (h.past r (records.subset hr)) clock⟩

theorem touch (h : Dated s) (digests : (s.records.map (·.digest)).Nodup) (digest : String) :
    Dated (s.touch digest).2 := by
  constructor
  · simp only [Store.touch, List.map_map]
    rw [List.Nodup, List.pairwise_map]
    have once := List.pairwise_map.1 h.once
    have names := List.pairwise_map.1 digests
    refine (once.and names).imp_of_mem ?_
    intro a b ha hb
    rintro ⟨used, name⟩
    have := h.past a ha
    have := h.past b hb
    simp only [Function.comp_apply]
    -- one of the two is used now, or neither is
    split <;> split
    · next ea eb => exact absurd (ea.trans eb.symm) name
    · show s.clock ≠ b.lastUsed
      omega
    · show a.lastUsed ≠ s.clock
      omega
    · exact used
  · intro r hr
    obtain ⟨q, hq, rfl⟩ := List.mem_map.1 hr
    have := h.past q hq
    rw [Store.touch_clock]
    split
    · exact Nat.lt_succ_self _
    · exact Nat.lt_succ_of_lt this

theorem adopt (h : Dated s) (digest : String) (file size : Nat) :
    Dated (s.adopt digest file size).2 := by
  cases known : s.holds digest with
  | true =>
    refine h.ofSublist ?_ ?_
    · simp only [Store.adopt, known, if_true]
      exact List.Sublist.refl _
    · rw [Store.adopt_clock]
      exact Nat.le_succ _
  | false =>
    rw [adopt_unknown known]
    constructor
    · show (List.map _ (s.records ++ [_])).Nodup
      rw [List.map_append]
      refine List.nodup_append.2 ⟨h.once, List.nodup_singleton _, ?_⟩
      intro a ha b hb
      obtain ⟨r, hr, rfl⟩ := List.mem_map.1 ha
      rw [List.map_singleton, List.mem_singleton] at hb
      rw [hb]
      exact Nat.ne_of_lt (h.past r hr)
    · intro r hr
      show r.lastUsed < s.clock + 1
      rcases List.mem_append.1 hr with hr | hr
      · exact Nat.lt_succ_of_lt (h.past r hr)
      · rw [List.mem_singleton.1 hr]
        exact Nat.lt_succ_self _

theorem changes (h : Dated s) (digests : (s.records.map (·.digest)).Nodup) {p : Phase}
    (c : p.Changes s s') : Dated s' := by
  cases c with
  | nothing => exact h
  | create | tick => exact h.ofSublist (List.Sublist.refl _) (Nat.le_succ _)
  | append => exact h.ofSublist (List.Sublist.refl _) (Nat.le_refl _)
  | touch _ digest => exact h.touch digests digest
  | adopt => exact h.adopt ..
  | discard => exact h.ofSublist (List.Sublist.refl _) (Nat.le_refl _)

end Dated

theorem Phase.Changes.record {p : Phase} {s s' : Store} (h : p.Changes s s') {r : CacheRecord}
    (hr : r ∈ s'.records) :
    (∃ q ∈ s.records, r.digest = q.digest ∧ r.file = q.file ∧ r.size = q.size) ∨
      ∃ c isKnown id, p = .concluding c isKnown (.ok id) ∧ s'.files = s.files ∧
        r.digest = c.digest ∧ r.file = c.file ∧ r.size = c.size := by
  have same (hr : r ∈ s.records) :
      ∃ q ∈ s.records, r.digest = q.digest ∧ r.file = q.file ∧ r.size = q.size :=
    ⟨r, hr, rfl, rfl, rfl⟩
  cases h with
  | nothing | create | tick | append | discard => exact .inl (same hr)
  | touch =>
    obtain ⟨q, hq, rfl⟩ := List.mem_map.1 hr
    refine .inl ⟨q, hq, ?_⟩
    split <;> exact ⟨rfl, rfl, rfl⟩
  | @adopt c isKnown id hp =>
    cases known : s.holds c.digest with
    | true =>
      simp only [Store.adopt, known, if_true] at hr
      exact .inl (same hr)
    | false =>
      rw [adopt_unknown known] at hr
      rcases List.mem_append.1 hr with hr | hr
      · exact .inl (same hr)
      · rw [List.mem_singleton] at hr
        subst hr
        exact .inr ⟨c, isKnown, id, hp, Store.adopt_files .., rfl, rfl, rfl⟩

theorem Dated.changed {s s' : Store} (h : Dated s) (digests : (s.records.map (·.digest)).Nodup)
    {j : Job} (c : j.Changes s s') : Dated s' := by
  cases c with
  | phase hj c => exact h.changes digests c
  | registry files records clock =>
    exact h.ofSublist (records ▸ List.Sublist.refl _) (Nat.le_of_eq clock.symm)

/-! ## The whole reception -/

namespace Accounted

variable {y : Floor τ}

theorem parts (h : Accounted y) : y.workshop.store.fileNumbers.Perm
    ((y.workshop.store.recordFiles ++ y.held) ++ (y.doomed ++ (y.stranded ++ y.abandoned))) := by
  refine List.perm_iff_count.2 fun n => ?_
  have := h.files n
  simp only [List.count_append]
  omega

/-- **No file is used twice**, by two records, by two builds or by one of each. -/
theorem nodup (h : Accounted y) : (y.workshop.store.recordFiles ++ y.held).Nodup :=
  (List.nodup_append.1 (h.parts.nodup_iff.1 h.once)).1

theorem mem_of_used (h : Accounted y) {n : Nat}
    (hn : n ∈ y.workshop.store.recordFiles ++ y.held) : n ∈ y.workshop.store.fileNumbers :=
  h.parts.mem_iff.2 (List.mem_append_left _ hn)

theorem not_doomed (h : Accounted y) {n : Nat}
    (hn : n ∈ y.workshop.store.recordFiles ++ y.held) : n ∉ y.doomed := by
  have apart := (List.nodup_append.1 (h.parts.nodup_iff.1 h.once)).2.2
  intro hd
  exact apart n hn n (List.mem_append_left _ hd) rfl

theorem own (h : Accounted y) {i j : Nat} {a b : Seat τ} (ha : y.seats[i]? = some a)
    (hb : y.seats[j]? = some b) {n : Nat} (hna : a.job.file? = some n)
    (hnb : b.job.file? = some n) : i = j := by
  have held := (List.nodup_append.1 h.nodup).2.1
  have apart := List.pairwise_iff_getElem.1 (List.pairwise_filterMap.1 held)
  obtain ⟨hi, rfl⟩ := List.getElem?_eq_some_iff.1 ha
  obtain ⟨hj, rfl⟩ := List.getElem?_eq_some_iff.1 hb
  rcases Nat.lt_trichotomy i j with lt | rfl | lt
  · exact (apart i j hi hj lt n hna n hnb rfl).elim
  · rfl
  · exact (apart j i hj hi lt n hnb n hna rfl).elim

theorem not_record (h : Accounted y) {i : Nat} {seat : Seat τ} (hs : y.seats[i]? = some seat)
    {n : Nat} (hn : n ∈ y.workshop.store.recordFiles) : seat.job.file? ≠ some n := by
  intro hf
  have held : n ∈ y.held := List.mem_filterMap.2 ⟨seat, List.mem_of_getElem? hs, hf⟩
  exact (List.nodup_append.1 h.nodup).2.2 n hn n held rfl

end Accounted

theorem Spares.refl {s : Store} {n : Nat} (hn : n ∈ s.fileNumbers) : Spares s s n := ⟨hn, rfl⟩

/-- **An event spares** a file that a record names or that a build works with,
unless that build moves. -/
theorem spares_step [Sink τ] {y : Reception τ} (h : Accounted y.floor) (e : ReceptionEvent τ)
    {n : Nat} (hn : n ∈ y.store.recordFiles ++ y.floor.held)
    (other : ∀ i seat, e = .move i → y.floor.seats[i]? = some seat → seat.job.file? ≠ some n) :
    Spares y.store (y.step e).store n := by
  have mem : n ∈ y.store.fileNumbers := h.mem_of_used hn
  cases e with
  | request version => exact .refl mem
  | branch k =>
    simp only [Reception.step]
    split <;> exact .refl mem
  | arrive k options upload writer =>
    simp only [Reception.step]
    split <;> exact .refl mem
  | move i =>
    have moved : Spares y.store (y.floor.move i).workshop.store n := by
      cases hs : y.floor.seats[i]? with
      | none =>
        rw [(Floor.move_none hs).2]
        exact .refl mem
      | some seat =>
        rw [Floor.move_workshop hs]
        exact (seat.job.changes_move (y.floor.desk seat)).spares mem (other i seat rfl hs)
    simp only [Reception.step]
    split <;> exact moved
  | giveUp i =>
    show Spares y.store (y.floor.giveUp i).workshop.store n
    cases hs : y.floor.seats[i]? with
    | none =>
      simp only [Floor.giveUp, hs]
      exact .refl mem
    | some seat =>
      -- a build that is given up removes no file, not even its own
      rw [(Floor.giveUp_some hs).1]
      show Spares y.store (seat.job.abandon y.store) n
      cases seat.job with
      | arriving => exact .refl mem
      | running token o p =>
        refine ⟨?_, content_of_files (Store.unregister_files ..) n⟩
        rw [Store.fileNumbers, Job.abandon, Store.unregister_files]
        exact mem
  | feed i items =>
    simp only [Reception.step]
    split <;> exact .refl mem
  | strike o =>
    have files : (y.store.strike o).2.files = y.store.files := by
      unfold Store.strike
      split <;> rfl
    exact ⟨show n ∈ (y.store.strike o).2.files.map _ by rw [files]; exact mem,
      content_of_files files n⟩
  | sweep i =>
    show Spares y.store (y.floor.step (.sweep i)).workshop.store n
    simp only [Floor.step]
    split
    · exact .refl mem
    · next m hm =>
      -- only a file that a prune has struck is swept
      have ne : n ≠ m := by
        rintro rfl
        exact h.not_doomed hn (List.mem_of_getElem? hm)
      refine ⟨?_, content_discard ne⟩
      rw [fileNumbers_discard]
      exact List.mem_filter.2 ⟨mem, by simpa using ne⟩
  | _ => exact .refl mem

/-- What is true of records and builds at a reception. -/
structure Recorded (y : Reception τ) : Prop where
  account : Accounted y.floor
  seated : y.present.length = y.floor.seats.length
  copies : ∀ (i : Nat) (seat : Seat τ) (v : Visit), y.floor.seats[i]? = some seat →
    y.present[i]? = some v → seat.Copies y.store v
  records : ∀ r ∈ y.store.records, ∃ v ∈ y.past ++ y.present, ∃ u, v.upload = some u ∧
    IsCopy u y.store r.file r.digest r.size
  dated : Dated y.store

namespace Seat.Copies

variable {seat : Seat τ} {s s' : Store} {v : Visit}

theorem congr (h : seat.Copies s v)
    (same : ∀ n, seat.job.file? = some n → s'.content n = s.content n) : seat.Copies s' v := by
  obtain ⟨job, source, writer⟩ := seat
  cases job with
  | arriving => exact h
  | running token o p =>
    obtain ⟨u, hu, copies⟩ := h
    exact ⟨u, hu, copies.congr same⟩

theorem feed (h : seat.Copies s v) (isOpen : v.isOpen = true) (items : List Upload.Item) :
    Seat.Copies { seat with source := seat.source.map (·.feed items) } s (v.feed items) := by
  obtain ⟨job, source, writer⟩ := seat
  cases job with
  | arriving =>
    have : source = v.source := h
    subst this
    show v.source.map _ = (v.feed items).source
    simp only [Visit.source, Visit.feed, Option.map_map]
    rfl
  | running token o p =>
    obtain ⟨u, hu, copies⟩ := h
    refine ⟨u.feed items, by simp only [Visit.feed, hu, Option.map_some], copies.feed ?_ items⟩
    simpa [Visit.isOpen, hu] using isOpen

theorem close (h : seat.Copies s v) :
    Seat.Copies { seat with source := seat.source.map (·.close) } s v.close := by
  obtain ⟨job, source, writer⟩ := seat
  cases job with
  | arriving =>
    have : source = v.source := h
    subst this
    show v.source.map _ = v.close.source
    simp only [Visit.source, Visit.close, Option.map_map]
    rfl
  | running token o p =>
    obtain ⟨u, hu, copies⟩ := h
    exact ⟨u.close, by simp only [Visit.close, hu, Option.map_some], copies.close⟩

theorem suffer (h : seat.Copies s v) (fault : Option String) : seat.Copies s (v.suffer fault) := by
  obtain ⟨job, source, writer⟩ := seat
  cases job with
  | arriving => exact h
  | running => exact h

theorem move [Sink τ] {y : Floor τ} (h : seat.Copies y.workshop.store v) (account : Accounted y)
    {i : Nat} (hs : y.seats[i]? = some seat) :
    match seat.job.move (y.desk seat) with
    | (.go job, d) => Seat.Copies ⟨job, d.source, d.writer⟩ d.store v
    | (.wait, d) => Seat.Copies ⟨seat.job, d.source, d.writer⟩ d.store v
    | (.stop _, _) => True := by
  have mem (n) (hn : seat.job.file? = some n) := account.mem_of_held hs hn
  obtain ⟨job, source, writer⟩ := seat
  cases job with
  | arriving context options =>
    -- the upload is there, and nothing has been taken from it
    have : source = v.source := h
    subst this
    simp only [Job.move, arrive, Floor.desk, Visit.source]
    cases hu : v.upload with
    | none => trivial
    | some u =>
      simp only [Option.map_some]
      split
      · next store d hr =>
        split at hr
        · cases hr
        · cases hr
          exact ⟨u, hu, _, rfl, .start u⟩
      · next hr => split at hr <;> cases hr
      · trivial
  | running token o p =>
    obtain ⟨u, hu, copies⟩ := h
    have goes := Phase.Copies.move (d := y.desk ⟨.running token o p, source, writer⟩) copies token o
      account.past mem
    simp only [Job.move]
    rcases hp : p.move token o (y.desk ⟨.running token o p, source, writer⟩) with ⟨m, d⟩
    rw [hp] at goes
    cases m with
    | go q => exact ⟨u, hu, goes⟩
    | wait => exact ⟨u, hu, goes⟩
    | stop result => trivial

end Seat.Copies

namespace Recorded

variable [Sink τ] {y : Reception τ}

omit [Sink τ] in
theorem start : Recorded (τ := τ) {} := by
  refine ⟨.start, rfl, ?_, ?_, ⟨List.nodup_nil, ?_⟩⟩
  · rintro i seat v ⟨⟩
  · rintro r ⟨⟩
  · rintro r ⟨⟩

omit [Sink τ] in
theorem exists_visit (h : Recorded y) {i : Nat} {seat : Seat τ}
    (hs : y.floor.seats[i]? = some seat) : ∃ v, y.present[i]? = some v := by
  have lt := (List.getElem?_eq_some_iff.1 hs).1
  rw [← h.seated] at lt
  exact ⟨_, List.getElem?_eq_getElem lt⟩

theorem stays (h : Recorded y) (e : ReceptionEvent τ) {i : Nat} {seat : Seat τ} {v : Visit}
    (hs : y.floor.seats[i]? = some seat) (hv : y.present[i]? = some v) (other : e ≠ .move i) :
    seat.Copies (y.step e).store v := by
  refine (h.copies i seat v hs hv).congr fun n hn => ?_
  have held : n ∈ y.floor.held := List.mem_filterMap.2 ⟨seat, List.mem_of_getElem? hs, hn⟩
  refine (spares_step h.account e (List.mem_append_right _ held) fun j mover he hj hf => ?_).2
  exact other (h.account.own hj hs hf hn ▸ he)

theorem mem_recordFiles {s : Store} {r : CacheRecord} (hr : r ∈ s.records) :
    r.file ∈ s.recordFiles :=
  List.mem_map_of_mem hr

/-- **Every event spares** the files of records. -/
theorem spares (h : Accounted y.floor) (e : ReceptionEvent τ) {n : Nat}
    (hn : n ∈ y.store.recordFiles) : Spares y.store (y.step e).store n :=
  spares_step h e (List.mem_append_left _ hn) fun _ _ _ hs => h.not_record hs hn

theorem remains (h : Recorded y) (e : ReceptionEvent τ) {q r : CacheRecord}
    (hq : q ∈ y.store.records)
    (same : r.digest = q.digest ∧ r.file = q.file ∧ r.size = q.size) :
    ∃ v ∈ y.past ++ y.present, ∃ u, v.upload = some u ∧
      IsCopy u (y.step e).store r.file r.digest r.size := by
  obtain ⟨v, hv, u, hu, copy⟩ := h.records q hq
  refine ⟨v, hv, u, hu, ?_⟩
  rw [same.1, same.2.1, same.2.2]
  exact copy.congr (spares h.account e (mem_recordFiles hq)).2

omit [Sink τ] in
theorem mem_leave {v : Visit} (hv : v ∈ y.past ++ y.present) (floor : Floor τ) (i : Nat) :
    v ∈ (y.leave floor i).past ++ (y.leave floor i).present := by
  simp only [Reception.leave]
  rcases List.mem_append.1 hv with hv | hv
  · exact List.mem_append_left _ (List.mem_append_right _ hv)
  · obtain ⟨j, hj⟩ := List.mem_iff_getElem?.1 hv
    by_cases hji : j = i
    · subst hji
      refine List.mem_append_left _ (List.mem_append_left _ ?_)
      rw [hj]
      exact List.mem_singleton_self v
    · exact List.mem_append_right _ (List.mem_eraseIdx_iff_getElem?.2 ⟨j, hji, hj⟩)

theorem copies_leave (h : Recorded y) (e : ReceptionEvent τ) (i : Nat)
    (other : ∀ j, j ≠ i → e ≠ .move j) (j : Nat) (seat : Seat τ) (v : Visit)
    (hs : (y.floor.seats.eraseIdx i)[j]? = some seat)
    (hv : (y.present.eraseIdx i)[j]? = some v) : seat.Copies (y.step e).store v := by
  rw [List.getElem?_eraseIdx] at hs hv
  split at hs
  · next lt =>
    rw [if_pos lt] at hv
    exact h.stays e hs hv (other j (by omega))
  · next lt =>
    rw [if_neg lt] at hv
    exact h.stays e hs hv (other (j + 1) (by omega))

omit [Sink τ] in
theorem length_leave (h : Recorded y) (i : Nat) :
    (y.present.eraseIdx i).length = (y.floor.seats.eraseIdx i).length := by
  simp only [List.length_eraseIdx, h.seated]

omit [Sink τ] in
theorem changes (h : Recorded y) {y' : Reception τ} {i : Nat} {f : Seat τ → Seat τ}
    {g : Visit → Visit} (account : Accounted y'.floor) (floor : y'.floor = y.floor.change i f)
    (present : y'.present = y.present.modify i g) (past : y'.past = y.past)
    (copies : ∀ (seat : Seat τ) v, y.present[i]? = some v → seat.Copies y.store v →
      (f seat).Copies y.store (g v))
    (whole : ∀ v u content, y.present[i]? = some v → v.upload = some u → u.Whole content →
      ∃ u', (g v).upload = some u' ∧ u'.Whole content) : Recorded y' := by
  have store : y'.store = y.store := by rw [Reception.store, floor]; rfl
  have seats : y'.floor.seats = y.floor.seats.modify i f := by rw [floor]; rfl
  refine ⟨account, ?_, ?_, ?_, store ▸ h.dated⟩
  · rw [present, seats, List.length_modify, List.length_modify, h.seated]
  · intro j seat v hs hv
    rw [seats, List.getElem?_modify] at hs
    rw [present, List.getElem?_modify] at hv
    obtain ⟨a, ha, rfl⟩ := Option.map_eq_some_iff.1 hs
    obtain ⟨b, hb, rfl⟩ := Option.map_eq_some_iff.1 hv
    have old := h.copies j a b ha hb
    rw [store]
    split
    · next hij =>
      subst hij
      exact copies a b hb old
    · exact old
  · rw [store, past, present]
    intro r hr
    obtain ⟨v, hv, u, hu, copy⟩ := h.records r hr
    rcases List.mem_append.1 hv with hv | hv
    · exact ⟨v, List.mem_append_left _ hv, u, hu, copy⟩
    · obtain ⟨j, hj⟩ := List.mem_iff_getElem?.1 hv
      have hj' := List.getElem?_modify g i y.present j
      rw [hj] at hj'
      by_cases hij : i = j
      · -- an upload that a record was made of is complete and does not change any more
        subst hij
        obtain ⟨u', hu', whole'⟩ := whole v u _ hj hu copy.whole
        have mem := List.mem_of_getElem? (hj'.trans (congrArg some (if_pos rfl)))
        exact ⟨g v, List.mem_append_right _ mem, u', hu', whole', copy.digest, copy.size⟩
      · have mem := List.mem_of_getElem? (hj'.trans (congrArg some (if_neg hij)))
        exact ⟨v, List.mem_append_right _ mem, u, hu, copy⟩

theorem exists_step_move {v : Visit} (hv : v ∈ y.past ++ y.present) (i : Nat) :
    ∃ v' ∈ (y.step (.move i)).past ++ (y.step (.move i)).present, v'.upload = v.upload := by
  simp only [Reception.step]
  split
  · exact ⟨v, mem_leave hv _ i, rfl⟩
  · rcases List.mem_append.1 hv with hv | hv
    · exact ⟨v, List.mem_append_left _ hv, rfl⟩
    · obtain ⟨j, hj⟩ := List.mem_iff_getElem?.1 hv
      have hj' := List.getElem?_modify (·.suffer (y.floor.fault? i)) i y.present j
      rw [hj] at hj'
      refine ⟨_, List.mem_append_right _ (List.mem_of_getElem? hj'), ?_⟩
      split <;> rfl

theorem records_move (h : Recorded y) {i : Nat} {seat : Seat τ} {v : Visit}
    (hs : y.floor.seats[i]? = some seat) (hv : y.present[i]? = some v)
    (store : (y.step (.move i)).store = (seat.job.move (y.floor.desk seat)).2.store) :
    ∀ r ∈ (y.step (.move i)).store.records,
      ∃ v ∈ (y.step (.move i)).past ++ (y.step (.move i)).present, ∃ u, v.upload = some u ∧
        IsCopy u (y.step (.move i)).store r.file r.digest r.size := by
  intro r hr
  have remains {q : CacheRecord} (hq : q ∈ y.store.records)
      (same : r.digest = q.digest ∧ r.file = q.file ∧ r.size = q.size) :
      ∃ v ∈ (y.step (.move i)).past ++ (y.step (.move i)).present, ∃ u, v.upload = some u ∧
        IsCopy u (y.step (.move i)).store r.file r.digest r.size := by
    obtain ⟨v, mem, u, hu, copy⟩ := h.remains (.move i) hq same
    obtain ⟨v', mem', upload⟩ := exists_step_move mem i
    exact ⟨v', mem', u, upload.trans hu, copy⟩
  have copies := h.copies i seat v hs hv
  have changes := seat.job.changes_move (y.floor.desk seat)
  rw [← store] at changes
  cases changes with
  | registry files records clock =>
    rw [records] at hr
    exact remains hr ⟨rfl, rfl, rfl⟩
  | phase hj changes =>
    rcases changes.record hr with ⟨q, hq, same⟩ | ⟨c, isKnown, id, rfl, files, hd, hf, hn⟩
    · exact remains hq same
    · -- the file of the build has become a record
      simp only [Seat.Copies, hj] at copies
      obtain ⟨u, hu, copy⟩ := copies
      have mem : v ∈ y.past ++ y.present := List.mem_append_right _ (List.mem_of_getElem? hv)
      obtain ⟨v', mem', upload⟩ := exists_step_move mem i
      refine ⟨v', mem', u, upload.trans hu, ?_⟩
      rw [hd, hf, hn]
      exact IsCopy.congr copy (content_of_files files c.file)

theorem seated_move (h : Recorded y) {i : Nat} {seat : Seat τ} {v : Visit}
    (hs : y.floor.seats[i]? = some seat) (hv : y.present[i]? = some v) {job : Job}
    {d : Desk Store τ} (stays : y.floor.stops i = false)
    (seats : (y.floor.move i).seats = y.floor.seats.set i ⟨job, d.source, d.writer⟩)
    (store : (y.step (.move i)).store = d.store)
    (copies : Seat.Copies ⟨job, d.source, d.writer⟩ d.store v) :
    (y.step (.move i)).present.length = (y.step (.move i)).floor.seats.length ∧
      ∀ (j : Nat) (seat' : Seat τ) (v' : Visit), (y.step (.move i)).floor.seats[j]? = some seat' →
        (y.step (.move i)).present[j]? = some v' → seat'.Copies (y.step (.move i)).store v' := by
  have step := Reception.step_move_stays stays
  constructor
  · rw [step, seats, List.length_set, List.length_modify]
    exact h.seated
  · intro j seat' v' hs' hv'
    rw [step] at hs' hv'
    by_cases hij : i = j
    · subst hij
      rw [seats, List.getElem?_set_self (List.getElem?_eq_some_iff.1 hs).1] at hs'
      rw [List.getElem?_modify_eq, hv] at hv'
      cases hs'
      cases hv'
      exact store ▸ copies.suffer _
    · rw [seats, List.getElem?_set_ne hij] at hs'
      rw [List.getElem?_modify_ne _ _ hij] at hv'
      exact h.stays _ hs' hv' fun e => hij (by cases e; rfl)

theorem move (h : Recorded y) (i : Nat) : Recorded (y.step (.move i)) := by
  have account := Reception.accounted_step h.account (.move i)
  cases hs : y.floor.seats[i]? with
  | none =>
    exact (Reception.step_move_none h.seated hs).symm ▸ h
  | some seat =>
    have hi : i < y.present.length := by
      rw [h.seated]
      exact (List.getElem?_eq_some_iff.1 hs).1
    have hv : y.present[i]? = some y.present[i] := List.getElem?_eq_getElem hi
    have store := Reception.store_move hs
    have records := h.records_move hs hv store
    have dated : Dated (y.step (.move i)).store := by
      rw [store]
      exact h.dated.changed h.account.digests (seat.job.changes_move (y.floor.desk seat))
    have moves := (h.copies i seat _ hs hv).move h.account hs
    rcases hm : seat.job.move (y.floor.desk seat) with ⟨m, d⟩
    rw [hm] at moves store
    cases m with
    | go job =>
      obtain ⟨stays, seats⟩ := Floor.move_go hs hm
      obtain ⟨seated, copies⟩ := h.seated_move hs hv stays seats store moves
      exact ⟨account, seated, copies, records, dated⟩
    | wait =>
      obtain ⟨stays, seats⟩ := Floor.move_wait hs hm
      obtain ⟨seated, copies⟩ := h.seated_move hs hv stays seats store moves
      exact ⟨account, seated, copies, records, dated⟩
    | stop result =>
      obtain ⟨stops, seats⟩ := Floor.move_stop hs hm
      have step : y.step (.move i) = y.leave (y.floor.move i) i := by
        simp only [Reception.step, stops, if_true]
      refine ⟨account, ?_, ?_, records, dated⟩
      · rw [step, Reception.leave, seats]
        exact h.length_leave i
      · intro j seat' v' hs' hv'
        rw [step, Reception.leave] at hs' hv'
        rw [seats] at hs'
        exact h.copies_leave _ i (fun k hk e => hk (by cases e; rfl)) j seat' v' hs' hv'

theorem giveUp (h : Recorded y) (i : Nat) : Recorded (y.step (.giveUp i)) := by
  have account := Reception.accounted_step h.account (.giveUp i)
  have seats : (y.floor.giveUp i).seats = y.floor.seats.eraseIdx i := by
    cases hs : y.floor.seats[i]? with
    | none =>
      simp only [Floor.giveUp, hs]
      exact (List.eraseIdx_of_length_le (List.getElem?_eq_none_iff.1 hs)).symm
    | some seat => exact (Floor.giveUp_some hs).2
  have changes : ∃ j : Job, j.Changes y.store (y.step (.giveUp i)).store ∧
      (y.step (.giveUp i)).store.records = y.store.records := by
    show ∃ j : Job, j.Changes y.store (y.floor.giveUp i).workshop.store ∧
      (y.floor.giveUp i).workshop.store.records = y.store.records
    cases hs : y.floor.seats[i]? with
    | none =>
      simp only [Floor.giveUp, hs]
      exact ⟨.running ⟨0, []⟩ {} .opening, .registry rfl rfl rfl, rfl⟩
    | some seat =>
      rw [(Floor.giveUp_some hs).1]
      refine ⟨seat.job, seat.job.changes_abandon y.store, ?_⟩
      cases seat.job with
      | arriving => rfl
      | running token o p => exact Store.unregister_records ..
  obtain ⟨j, changes, records⟩ := changes
  refine ⟨account, ?_, ?_, ?_, h.dated.changed h.account.digests changes⟩
  · show (y.present.eraseIdx i).length = (y.floor.giveUp i).seats.length
    rw [seats]
    exact h.length_leave i
  · intro j seat v hs hv
    have hs : (y.floor.giveUp i).seats[j]? = some seat := hs
    rw [seats] at hs
    exact h.copies_leave _ i (fun k hk e => by cases e) j seat v hs hv
  · intro r hr
    rw [records] at hr
    obtain ⟨v, hv, rest⟩ := h.remains (.giveUp i) hr ⟨rfl, rfl, rfl⟩
    exact ⟨v, mem_leave hv _ i, rest⟩

theorem fewer (h : Recorded y) (e : ReceptionEvent τ)
    (records : (y.step e).store.records.Sublist y.store.records)
    (clock : (y.step e).store.clock = y.store.clock)
    (seats : (y.step e).floor.seats = y.floor.seats) (present : (y.step e).present = y.present)
    (past : (y.step e).past = y.past) (other : ∀ i, e ≠ .move i) : Recorded (y.step e) := by
  refine ⟨Reception.accounted_step h.account e, ?_, ?_, ?_, ?_⟩
  · rw [seats, present]
    exact h.seated
  · intro i seat v hs hv
    rw [seats] at hs
    rw [present] at hv
    exact h.stays e hs hv (other i)
  · intro r hr
    rw [past, present]
    exact h.remains e (records.subset hr) ⟨rfl, rfl, rfl⟩
  · exact h.dated.ofSublist records (Nat.le_of_eq clock.symm)

theorem arrive (h : Recorded y) (k : Nat) (options : BuildOptions) (upload : Option Upload)
    (writer : Writer τ) : Recorded (y.step (.arrive k options upload writer)) := by
  have account := Reception.accounted_step h.account (.arrive k options upload writer)
  simp only [Reception.step] at account ⊢
  split at account
  · exact h
  · next context _ =>
    refine ⟨account, ?_, ?_, ?_, h.dated⟩
    · simp only [Floor.step, List.length_append, h.seated, List.length_singleton]
    · intro i seat v hs hv
      simp only [Floor.step, List.getElem?_append, h.seated] at hs hv
      split at hs
      · next lt =>
        rw [if_pos lt] at hv
        exact h.copies i seat v hs hv
      · next lt =>
        -- the new build has its upload as it came
        rw [if_neg lt] at hv
        have first := (List.getElem?_eq_some_iff.1 hs).1
        rw [List.length_singleton] at first
        rw [Nat.lt_one_iff.1 first] at hs hv
        cases hs
        cases hv
        rfl
    · intro r hr
      obtain ⟨v, hv, rest⟩ := h.records r hr
      refine ⟨v, ?_, rest⟩
      rw [← List.append_assoc]
      exact List.mem_append_left _ hv

theorem step (h : Recorded y) (e : ReceptionEvent τ) : Recorded (y.step e) := by
  cases e with
  | request version =>
    exact h.fewer _ (List.Sublist.refl _) rfl rfl rfl rfl fun _ => by simp
  | branch k =>
    simp only [Reception.step]
    split
    · exact h
    · exact ⟨⟨h.account.files, h.account.once, h.account.past, h.account.digests⟩, h.seated,
        h.copies, h.records, h.dated⟩
  | arrive k options upload writer => exact h.arrive k options upload writer
  | move i => exact h.move i
  | giveUp i => exact h.giveUp i
  | feed i items =>
    have account := Reception.accounted_step h.account (.feed i items)
    by_cases isOpen : (y.present[i]?).any (·.isOpen) = true
    · simp only [Reception.step, if_pos isOpen] at account ⊢
      have isOpen {v : Visit} (hv : y.present[i]? = some v) : v.isOpen = true := by
        rwa [hv] at isOpen
      refine h.changes account rfl rfl rfl (fun seat v hv copies => copies.feed (isOpen hv) items)
        fun v u content hv hu whole => ?_
      have := isOpen hv
      simp only [Visit.isOpen, hu, whole.isClosed, Bool.not_true, Bool.false_eq_true] at this
    · simp only [Reception.step, if_neg isOpen]
      exact h
  | complete i =>
    refine h.changes (Reception.accounted_step h.account (.complete i)) rfl rfl rfl
      (fun seat v _ copies => copies.close) fun v u content _ hu whole => ?_
    exact ⟨u.close, by simp only [Visit.close, hu, Option.map_some], whole.close⟩
  | respond i sink =>
    refine h.changes (g := id) (Reception.accounted_step h.account (.respond i sink)) rfl
      (List.modify_id ..).symm rfl (fun seat v _ copies => copies) fun v u content _ hu whole => ?_
    exact ⟨u, hu, whole⟩
  | cancel token => exact h.fewer _ (List.Sublist.refl _) rfl rfl rfl rfl fun _ => by simp
  | cancelId id => exact h.fewer _ (List.Sublist.refl _) rfl rfl rfl rfl fun _ => by simp
  | disk fault => exact h.fewer _ (List.Sublist.refl _) rfl rfl rfl rfl fun _ => by simp
  | strike o =>
    have struck : (y.store.strike o).2.records.Sublist y.store.records ∧
        (y.store.strike o).2.clock = y.store.clock := by
      unfold Store.strike
      split
      · exact ⟨List.Sublist.refl _, rfl⟩
      · exact ⟨List.filter_sublist, rfl⟩
    exact h.fewer (.strike o) struck.1 struck.2 rfl rfl rfl fun _ => by simp
  | sweep i =>
    have swept : (y.floor.step (.sweep i)).workshop.store.records = y.store.records ∧
        (y.floor.step (.sweep i)).workshop.store.clock = y.store.clock ∧
        (y.floor.step (.sweep i)).seats = y.floor.seats := by
      simp only [Floor.step]
      split <;> exact ⟨rfl, rfl, rfl⟩
    exact h.fewer (.sweep i) (swept.1.symm ▸ List.Sublist.refl _) swept.2.1 swept.2.2 rfl rfl
      fun _ => by simp

theorem run (events : List (ReceptionEvent τ)) : Recorded (({} : Reception τ).run events) := by
  induction events using List.reverseRecOn with
  | nil => exact .start
  | append_singleton events e ih =>
    rw [Reception.run_snoc]
    exact ih.step e

end Recorded

/-- **Every record tells the truth.** Whatever builds, prunes and cancellations
do, and in whatever order: a record's file is there and holds one upload that
arrived whole, its octets in order and nothing else, and digest and size are
those of this content. No two records have the same digest or were used at the
same time, and the clock is past all of them. Records and builds in flight work
with different files, and no event removes or changes a file that a record names. -/
theorem records_run [Sink τ] (events : List (ReceptionEvent τ)) :
    let y := ({} : Reception τ).run events
    let s := y.store
    (∀ r ∈ s.records, r.file ∈ s.fileNumbers ∧
      ∃ v ∈ y.past ++ y.present, ∃ u, v.upload = some u ∧ u.isClosed = true ∧
        (∀ reason, .fault reason ∉ u.items) ∧ s.content r.file = Upload.bytes u.items ∧
        r.digest = Digest.name (Upload.bytes u.items) ∧ r.size = (Upload.bytes u.items).size) ∧
    (s.recordFiles ++ y.floor.held).Nodup ∧
    (s.records.map (·.digest)).Nodup ∧
    (s.records.map (·.lastUsed)).Nodup ∧
    (∀ r ∈ s.records, r.lastUsed < s.clock) ∧
    ∀ e, ∀ n ∈ s.recordFiles,
      n ∈ (y.step e).store.fileNumbers ∧ (y.step e).store.content n = s.content n := by
  intro y s
  have recorded : Recorded y := .run events
  have account := recorded.account
  refine ⟨fun r hr => ⟨?_, ?_⟩, account.nodup, account.digests, recorded.dated.once,
    recorded.dated.past, fun e n hn => Recorded.spares account e hn⟩
  · exact account.mem_of_used (List.mem_append_left _ (Recorded.mem_recordFiles hr))
  · obtain ⟨v, hv, u, hu, copy⟩ := recorded.records r hr
    have content : s.content r.file = Upload.bytes u.items := copy.whole.bytes.symm
    refine ⟨v, hv, u, hu, copy.whole.isClosed, copy.whole.clean, content, ?_, ?_⟩
    · rw [← content]
      exact copy.digest
    · rw [← content]
      exact copy.size

end ContextEngine
end ImageBuild
