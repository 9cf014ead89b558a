import ImageBuild.Proofs.Recency

/-!
# What a prune removes

The records that a prune may remove stand in the order of their last uses, and it
removes a beginning of them: all, or as few as bring the size of all records down
to what may stay (`prune_run`).
-/

namespace ImageBuild

/-- Whether a prune may remove a context: one of the ids that it names, if it names ids,
is a beginning of the digest. -/
def PruneOptions.Wants (o : PruneOptions) (digest : String) : Prop :=
  ∀ ids, o.filters.get? "id" = some ids →
    ∃ id ∈ ids, Digest.bare id ≠ [] ∧ Digest.bare id <+: Digest.bare digest

namespace Store

/-- The records that stay when these are gone. -/
def without (s : Store) (gone : List CacheRecord) : List CacheRecord :=
  s.records.filter (· ∉ gone)

/-- The store after these records are removed with their files. -/
def removed (s : Store) (gone : List CacheRecord) : Store :=
  { s with
    records := s.without gone
    files := s.files.filter fun f => f.number ∉ gone.map (·.file) }

/-- Whether a prune that may remove the records `wanted` stops after `n` of them: it removes
all, or as few as make the size of all records that stay small enough. -/
def StopsAt (s : Store) (o : PruneOptions) (wanted : List CacheRecord) (n : Nat) : Prop :=
  if o.all = true ∨ o.keepStorage = 0 then n = wanted.length
  else (∀ m < n, o.keepStorage.toNat < total (s.without (wanted.take m))) ∧
    (n = wanted.length ∨ total (s.without (wanted.take n)) ≤ o.keepStorage.toNat)

/-! ## Sizes -/

@[simp] theorem total_cons (r : CacheRecord) (rs : List CacheRecord) :
    total (r :: rs) = r.size + total rs := rfl

theorem total_append (rs qs : List CacheRecord) : total (rs ++ qs) = total rs + total qs := by
  induction rs with
  | nil => simp [total]
  | cons r rs ih =>
    rw [List.cons_append, total_cons, total_cons, ih, Nat.add_assoc]

theorem total_perm {rs qs : List CacheRecord} (h : rs.Perm qs) : total rs = total qs := by
  induction h with
  | nil => rfl
  | cons r _ ih => rw [total_cons, total_cons, ih]
  | swap r q rs => simp only [total_cons, Nat.add_left_comm]
  | trans _ _ ih ih' => exact ih.trans ih'

theorem total_without {s : Store} (nodup : s.records.Nodup) {gone : List CacheRecord}
    (once : gone.Nodup) (subset : gone ⊆ s.records) :
    total s.records = total gone + total (s.without gone) := by
  rw [total_perm (ContextEngine.perm_append_rest nodup once subset), total_append]
  rfl

/-- **A beginning is removed**, and no shorter one would do. -/
theorem surplus_eq_take (keep sum : Nat) (rs : List CacheRecord) :
    ∃ n ≤ rs.length, surplus keep sum rs = rs.take n ∧
      (∀ m < n, keep < sum - total (rs.take m)) ∧
      (n = rs.length ∨ sum - total (rs.take n) ≤ keep) := by
  induction rs generalizing sum with
  | nil => exact ⟨0, Nat.le_refl _, rfl, by simp, .inl rfl⟩
  | cons r rest ih =>
    by_cases small : sum ≤ keep
    · refine ⟨0, Nat.zero_le _, ?_, by simp, .inr ?_⟩
      · rw [surplus, if_pos small, List.take_zero]
      · exact Nat.le_trans (Nat.sub_le _ _) small
    · obtain ⟨n, hn, taken, before, stops⟩ := ih (sum - r.size)
      refine ⟨n + 1, Nat.succ_le_succ hn, ?_, ?_, ?_⟩
      · rw [surplus, if_neg small, taken, List.take_succ_cons]
      · intro m hm
        cases m with
        | zero => exact Nat.lt_of_not_le small
        | succ m =>
          rw [List.take_succ_cons, total_cons, ← Nat.sub_sub]
          exact before m (Nat.lt_of_succ_lt_succ hm)
      · rw [List.take_succ_cons, total_cons, ← Nat.sub_sub, List.length_cons]
        exact stops.imp (congrArg (· + 1)) id

theorem surplus_of_le {keep sum : Nat} (h : sum ≤ keep) (rs : List CacheRecord) :
    surplus keep sum rs = [] := by
  cases rs with
  | nil => rfl
  | cons r rest => rw [surplus, if_pos h]

/-! ## Candidates -/

theorem isSelected_iff (o : PruneOptions) (r : CacheRecord) :
    isSelected o r = true ↔ o.Wants r.digest := by
  unfold isSelected PruneOptions.Wants
  cases o.filters.get? "id" with
  | none => simp
  | some ids => simp [Digest.isNamed]

theorem mem_candidates (s : Store) (o : PruneOptions) (r : CacheRecord) :
    r ∈ s.candidates o ↔ r ∈ s.records ∧ o.Wants r.digest := by
  rw [(ContextEngine.candidates_perm s o).mem_iff, List.mem_filter, isSelected_iff]

end Store

namespace ContextEngine

open Store

variable {s : Store}

theorem candidates_ordered (dated : Dated s) (o : PruneOptions) :
    (s.candidates o).Pairwise fun r q => r.lastUsed < q.lastUsed := by
  have sorted : (s.candidates o).Pairwise fun a b : CacheRecord =>
      (decide (a.lastUsed < b.lastUsed) || (decide (a.lastUsed = b.lastUsed) &&
        decide (a.digest ≤ b.digest))) = true := by
    apply List.pairwise_mergeSort
    · intro a b c hab hbc
      simp only [Bool.or_eq_true, Bool.and_eq_true, decide_eq_true_eq] at hab hbc ⊢
      rcases hab with lt | ⟨same, le⟩ <;> rcases hbc with lt' | ⟨same', le'⟩
      · exact .inl (Nat.lt_trans lt lt')
      · exact .inl (same' ▸ lt)
      · exact .inl (same ▸ lt')
      · exact .inr ⟨same.trans same', String.le_trans le le'⟩
    · intro a b
      simp only [Bool.or_eq_true, Bool.and_eq_true, decide_eq_true_eq]
      rcases Nat.lt_trichotomy a.lastUsed b.lastUsed with lt | same | lt
      · exact .inl (.inl lt)
      · exact (String.le_total a.digest b.digest).imp (fun le => .inr ⟨same, le⟩)
          fun le => .inr ⟨same.symm, le⟩
      · exact .inr (.inl lt)
  have dates : ((s.candidates o).map (·.lastUsed)).Nodup := by
    apply ((candidates_perm s o).map _).nodup_iff.2
    exact dated.once.sublist (List.filter_sublist.map _)
  have differ := List.pairwise_map.1 dates
  apply (sorted.and differ).imp
  rintro r q ⟨le, ne⟩
  simp only [Bool.or_eq_true, Bool.and_eq_true, decide_eq_true_eq] at le
  exact le.resolve_right fun same => ne same.1

theorem nodup_digests_candidates (digests : (s.records.map (·.digest)).Nodup) (o : PruneOptions) :
    ((s.candidates o).map (·.digest)).Nodup := by
  apply ((candidates_perm s o).map _).nodup_iff.2
  exact digests.sublist (List.filter_sublist.map _)

/-- **Candidates stand in the order of their last uses.** -/
theorem candidates_byLastUse {uses : List String} (aged : Aged s uses) (dated : Dated s)
    (digests : (s.records.map (·.digest)).Nodup) (o : PruneOptions) :
    ((s.candidates o).map (·.digest)).Sublist (byLastUse uses) := by
  have subset {r : CacheRecord} (hr : r ∈ s.candidates o) : r ∈ s.records :=
    ((mem_candidates s o r).1 hr).1
  have once := nodup_digests_candidates digests o
  have ordered : ((s.candidates o).map (·.digest)).Pairwise fun d d' => ∀ r ∈ s.records,
      ∀ q ∈ s.records, r.digest = d → q.digest = d' → r.lastUsed < q.lastUsed := by
    apply List.pairwise_map.2
    apply (candidates_ordered dated o).imp_of_mem
    intro a b ha hb earlier r hr q hq hra hqb
    rw [List.inj_on_of_nodup_map digests hr (subset ha) hra,
      List.inj_on_of_nodup_map digests hq (subset hb) hqb]
    exact earlier
  -- two lists of the same digests, both in the order of the dates
  have same : (s.candidates o).map (·.digest) =
      (byLastUse uses).filter (· ∈ (s.candidates o).map (·.digest)) := by
    refine List.Perm.eq_of_pairwise ?_ ordered (aged.ordered.sublist List.filter_sublist) ?_
    · intro d d' hd hd' earlier later
      obtain ⟨r, hr, rfl⟩ := List.mem_map.1 hd
      obtain ⟨q, hq, rfl⟩ := List.mem_map.1 (of_decide_eq_true (List.mem_filter.1 hd').2)
      have := earlier r (subset hr) q (subset hq) rfl rfl
      have := later q (subset hq) r (subset hr) rfl rfl
      omega
    · apply (List.perm_ext_iff_of_nodup once ((nodup_byLastUse uses).filter _)).2
      intro d
      simp only [List.mem_filter, decide_eq_true_eq]
      constructor
      · intro hd
        obtain ⟨r, hr, rfl⟩ := List.mem_map.1 hd
        exact ⟨aged.mem r (subset hr), hd⟩
      · rintro ⟨-, hd⟩
        exact hd
  rw [same]
  exact List.filter_sublist

/-! ## Removing -/

theorem total_take (digests : (s.records.map (·.digest)).Nodup) (o : PruneOptions) (m : Nat) :
    total s.records =
      total ((s.candidates o).take m) + total (s.without ((s.candidates o).take m)) := by
  apply total_without (List.Nodup.of_map _ digests)
  · exact (List.Nodup.of_map _ (nodup_digests_candidates digests o)).sublist (List.take_sublist ..)
  · intro r hr
    exact ((mem_candidates s o r).1 (List.mem_of_mem_take hr)).1

/-- Some candidates are evicted: the first of them, and a prune stops there. -/
theorem evicted_eq_take (digests : (s.records.map (·.digest)).Nodup) (o : PruneOptions) :
    ∃ n ≤ (s.candidates o).length, s.evicted o = (s.candidates o).take n ∧
      s.StopsAt o (s.candidates o) n := by
  unfold Store.evicted StopsAt
  by_cases unbounded : o.all = true ∨ o.keepStorage = 0
  · rw [if_pos unbounded]
    refine ⟨_, Nat.le_refl _, List.take_length.symm, ?_⟩
    rw [if_pos unbounded]
  · rw [if_neg unbounded]
    obtain ⟨n, hn, taken, before, stops⟩ :=
      surplus_eq_take o.keepStorage.toNat (total s.records) (s.candidates o)
    -- the running total is the size of the records that stay
    have stays (m : Nat) : total s.records - total ((s.candidates o).take m) =
        total (s.without ((s.candidates o).take m)) := by
      rw [total_take digests o m, Nat.add_sub_cancel_left]
    refine ⟨n, hn, taken, ?_⟩
    rw [if_neg unbounded]
    constructor
    · intro m hm
      exact stays m ▸ before m hm
    · exact stays n ▸ stops

theorem mem_records_of_take {o : PruneOptions} {n : Nat} {r : CacheRecord}
    (h : r ∈ (s.candidates o).take n) : r ∈ s.records :=
  ((mem_candidates s o r).1 (List.mem_of_mem_take h)).1

theorem prune_refused (s : Store) {o : PruneOptions} (h : ∃ key ∈ o.filters.keys, key ≠ "id") :
    ∃ text, s.prune o = (.error (.invalidArgument text), s) := by
  unfold prune knownFilter
  cases hk : o.filters.keys.find? (· ≠ "id") with
  | none =>
    obtain ⟨key, mem, other⟩ := h
    have := List.find?_eq_none.1 hk key mem
    simp [other] at this
  | some key => exact ⟨_, rfl⟩

theorem prune_evicted (digests : (s.records.map (·.digest)).Nodup) {o : PruneOptions}
    (h : ∀ key ∈ o.filters.keys, key = "id") :
    s.prune o = (.ok ⟨(s.evicted o).map (·.digest), UInt64.ofNat (total (s.evicted o))⟩,
      s.removed (s.evicted o)) := by
  have known : o.filters.keys.find? (· ≠ knownFilter) = none := by
    apply List.find?_eq_none.2
    intro key mem
    simp [knownFilter, h key mem]
  have files : (s.files.filter fun f => !(s.evicted o).any (·.file = f.number)) =
      s.files.filter fun f => f.number ∉ (s.evicted o).map (·.file) := by
    apply List.filter_congr
    intro f _
    rw [decide_not]
    congr 1
    simp [List.any_eq]
  unfold prune removed without
  rw [known, ← files, ← filter_digest digests fun _ => mem_records_of_evicted]

/-- After a prune there is nothing more for it to remove. -/
theorem evicted_removed {o : PruneOptions} {n : Nat}
    (stops : s.StopsAt o (s.candidates o) n) :
    (s.removed ((s.candidates o).take n)).evicted o = [] := by
  -- no candidate is left when all were removed
  have none_left (all : n = (s.candidates o).length) :
      (s.removed ((s.candidates o).take n)).candidates o = [] := by
    apply List.eq_nil_iff_forall_not_mem.2
    intro r hr
    obtain ⟨stays, wanted⟩ := (mem_candidates _ o r).1 hr
    obtain ⟨mem, kept⟩ := List.mem_filter.1 stays
    rw [all, List.take_length, decide_eq_true_eq] at kept
    exact kept ((mem_candidates s o r).2 ⟨mem, wanted⟩)
  unfold Store.StopsAt at stops
  unfold Store.evicted
  by_cases unbounded : o.all = true ∨ o.keepStorage = 0
  · rw [if_pos unbounded] at stops ⊢
    exact none_left stops
  · rw [if_neg unbounded] at stops ⊢
    rcases stops.2 with all | small
    · rw [none_left all]
      rfl
    · exact surplus_of_le small _

theorem fileNumbers_removed (s : Store) (gone : List CacheRecord) :
    (s.removed gone).fileNumbers = s.fileNumbers.filter (· ∉ gone.map (·.file)) := by
  simp only [removed, Store.fileNumbers, List.filter_map]
  rfl

theorem content_removed (s : Store) {gone : List CacheRecord} {n : Nat}
    (h : n ∉ gone.map (·.file)) : (s.removed gone).content n = s.content n := by
  simp only [Store.content, removed, List.find?_filter]
  congr 2
  funext f
  by_cases same : f.number = n
  · simp [same, h]
  · simp [same]

/-- **A file stays** that another record names or that a build works with. -/
theorem spares_removed {τ : Type} {y : Floor τ} (account : Accounted y) {gone : List CacheRecord}
    (once : gone.Nodup) (subset : gone ⊆ y.workshop.store.records) {n : Nat}
    (used : n ∈ (y.workshop.store.removed gone).recordFiles ++ y.held) :
    Spares y.workshop.store (y.workshop.store.removed gone) n := by
  have records := perm_append_rest (List.Nodup.of_map _ account.digests) once subset
  have files : y.workshop.store.recordFiles.Perm
      (gone.map (·.file) ++ (y.workshop.store.removed gone).recordFiles) := by
    rw [Store.recordFiles, Store.recordFiles, ← List.map_append]
    exact records.map _
  have apart := (files.append_right y.held).nodup_iff.1 account.nodup
  rw [List.append_assoc] at apart
  have kept : n ∉ gone.map (·.file) := by
    intro hn
    exact (List.nodup_append.1 apart).2.2 n hn n used rfl
  have mem : n ∈ y.workshop.store.fileNumbers := by
    apply account.mem_of_used
    apply (files.append_right y.held).mem_iff.2
    rw [List.append_assoc]
    exact List.mem_append_right _ used
  constructor
  · rw [fileNumbers_removed]
    exact List.mem_filter.2 ⟨mem, by simpa using kept⟩
  · exact content_removed _ kept

/-- **What a prune removes**, after whatever happened at a reception. A prune with a filter that
it does not know is refused. Any other one may remove the records `wanted` that its ids name,
which stand in the order of their last uses, and removes the first `n` of them, where it stops.
It reports them and their size, by which the size of all records drops: at no point is more
taken off than there is. The removed records lose their files, what other records and
builds use stays, and doing the same again removes nothing. -/
theorem prune_run {τ : Type} [Sink τ] (events : List (ReceptionEvent τ)) (o : PruneOptions) :
    let y := ({} : Reception τ).run events
    let s := y.store
    ((∃ key ∈ o.filters.keys, key ≠ "id") →
      ∃ text, s.prune o = (.error (.invalidArgument text), s)) ∧
    ((∀ key ∈ o.filters.keys, key = "id") →
      ∃ (wanted : List CacheRecord) (n : Nat),
        (∀ r, r ∈ wanted ↔ r ∈ s.records ∧ o.Wants r.digest) ∧
        (wanted.map (·.digest)).Sublist (byLastUse (({} : Reception τ).uses events)) ∧
        n ≤ wanted.length ∧ s.StopsAt o wanted n ∧
        (∀ m, total s.records =
          total (wanted.take m) + total (s.without (wanted.take m))) ∧
        let gone := wanted.take n
        let s' := s.removed gone
        s.prune o = (.ok ⟨gone.map (·.digest), UInt64.ofNat (total gone)⟩, s') ∧
        total gone = total s.records - total s'.records ∧
        (total gone < UInt64.size → (UInt64.ofNat (total gone)).toNat = total gone) ∧
        (∀ r ∈ gone, r.file ∉ s'.fileNumbers) ∧
        (∀ file ∈ s'.recordFiles ++ y.floor.held, Spares s s' file) ∧
        s'.prune o = (.ok ⟨[], 0⟩, s')) := by
  intro y s
  have recorded : Recorded y := Recorded.run events
  have digests : (s.records.map (·.digest)).Nodup := recorded.account.digests
  refine ⟨prune_refused s, ?_⟩
  intro known
  obtain ⟨n, hn, evicted, stops⟩ := evicted_eq_take digests o
  have sizes := total_take digests o
  have once : ((s.candidates o).take n).Nodup := evicted ▸ nodup_evicted digests o
  have subset : (s.candidates o).take n ⊆ s.records := fun _ => mem_records_of_take
  refine ⟨s.candidates o, n, mem_candidates s o, ?_, hn, stops, sizes, ?_, ?_, ?_, ?_, ?_, ?_⟩
  · exact candidates_byLastUse (Aged.run events) recorded.dated digests o
  · rw [← evicted]
    exact prune_evicted digests known
  · exact Nat.eq_sub_of_add_eq (sizes n).symm
  · intro fits
    exact UInt64.toNat_ofNat_of_lt' fits
  · intro r hr stays
    rw [fileNumbers_removed] at stays
    exact of_decide_eq_true (List.mem_filter.1 stays).2 (List.mem_map_of_mem hr)
  · intro file used
    exact spares_removed recorded.account once subset used
  · have nothing : (s.removed ((s.candidates o).take n)).evicted o = [] := evicted_removed stops
    have again := prune_evicted (s := s.removed ((s.candidates o).take n))
      (digests.sublist (List.filter_sublist.map _)) known
    rw [nothing] at again
    rw [again]
    simp [removed, without, total]

end ContextEngine
end ImageBuild
