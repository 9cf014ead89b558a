import ImageBuild.Proofs.Floor
import Mathlib.Data.List.Induction
import Mathlib.Data.List.Nodup
import Mathlib.Data.List.Perm.Basic

/-!
# No file is forgotten

A file in the spool directory belongs to a record, to a build in flight or to a
prune that has not removed it yet, or else to a build that left it behind
(`Accounted`, kept by every event). A build leaves a file behind only when it
cannot tell that its context is known. So at rest the files are those of the
records if, and only if, nobody was refused that line
(`Floor.files_eq_records_iff`).
-/

namespace ImageBuild

namespace Store

/-- The numbers of the files in the spool directory. -/
def fileNumbers (s : Store) : List Nat := s.files.map (·.number)

def recordFiles (s : Store) : List Nat := s.records.map (·.file)

end Store

namespace ContextEngine

/-! ## What a move does to the spool directory -/

/-- What a move of a build does to files and records. The indices are the file
of the build before and after the move, and the file that is left behind. -/
inductive Effect (s : Store) : Option Nat → Option Nat → Option Nat → Store → Prop where
  /-- files are filled and records are used, nothing else -/
  | keep {file : Option Nat} {s' : Store} (numbers : s'.fileNumbers = s.fileNumbers)
      (files : s'.recordFiles = s.recordFiles)
      (digests : s'.records.map (·.digest) = s.records.map (·.digest))
      (clock : s.clock ≤ s'.clock) : Effect s file file none s'
  | create : Effect s none (some s.clock) none s.createFile.2
  | adopt {digest : String} {file size : Nat} (unknown : s.holds digest = false) :
      Effect s (some file) none none (s.adopt digest file size).2
  | discard {file : Nat} : Effect s (some file) none none (s.discard file)
  | strand {file : Nat} : Effect s (some file) none (some file) s

variable {τ : Type}

theorem Effect.refl (s : Store) (file : Option Nat) : Effect s file file none s :=
  .keep rfl rfl rfl (Nat.le_refl _)

/-- What a move of a phase has done. -/
def Phase.Follows (p : Phase) (s : Store) :
    Move Phase (Except BuildError String) × Desk Store τ → Prop
  | (.go q, d) => Effect s p.file? q.file? (p.strands q) d.store
  | (.wait, d) => d.store = s
  | (.stop _, d) => p.file? = none ∧ Effect s none none none d.store

section Moves

variable [Sink τ]

theorem Phase.follows_offer {p next : Phase} {failed : SinkError → Phase} (d : Desk Store τ)
    (f : Frame) (hn : Effect d.store p.file? next.file? (p.strands next) d.store)
    (hf : ∀ e, Effect d.store p.file? (failed e).file? (p.strands (failed e)) d.store) :
    p.Follows d.store (d.offer f next fun e => .go (failed e)) := by
  rcases d.offer_cases f next (fun e => (.go (failed e) : Move Phase (Except BuildError String)))
    with ⟨-, h⟩ | ⟨-, h⟩ | ⟨e, -, h⟩
  · rw [h]
    exact hn
  · rw [h]
    rfl
  · rw [h]
    exact hf e

theorem Effect.append (s : Store) (file n : Nat) (data : ByteArray) :
    Effect s (some file) (some file) none (s.append n data) := by
  refine .keep ?_ rfl rfl (Nat.le_refl _)
  simp only [Store.append, Store.fileNumbers, List.map_map]
  refine List.map_congr_left fun f _ => ?_
  simp only [Function.comp_apply]
  split <;> rfl

theorem Effect.touch (s : Store) (file : Nat) (digest : String) :
    Effect s (some file) (some file) none (s.touch digest).2 := by
  refine .keep rfl ?_ ?_ (Nat.le_succ _)
  · simp only [Store.touch, Store.recordFiles, List.map_map]
    refine List.map_congr_left fun r _ => ?_
    simp only [Function.comp_apply]
    split <;> rfl
  · simp only [Store.touch, List.map_map]
    refine List.map_congr_left fun r _ => ?_
    simp only [Function.comp_apply]
    split <;> rfl

theorem Effect.adopt_known {s : Store} {digest : String} (h : s.holds digest = true)
    (file size : Nat) : Effect s (some file) (some file) none (s.adopt digest file size).2 := by
  simp only [Store.adopt, h, if_true]
  exact .keep rfl rfl rfl (Nat.le_succ _)

theorem follows_receive (token : Token) (file threshold : Nat) (d : Desk Store τ) :
    (Phase.receiving file threshold).Follows d.store (receive token file threshold d) := by
  rcases receive_cases token file threshold d with
    ⟨-, h⟩ | ⟨-, h⟩ | ⟨s, -, ⟨-, h⟩ | ⟨-, h⟩⟩ <;> rw [h]
  · exact .refl _ _
  · exact .refl _ _
  · exact rfl
  · have store : (d.take s).2.store = d.store := by rw [d.take_toWorkshop s]
    rw [Phase.Follows, store]
    cases s.next.1 <;> exact .refl _ _

omit [Sink τ] in
theorem Phase.follows_spool {α : Type} {p : Phase} (d : Desk Store τ) {a : α}
    {next : Except String α → Phase × Store}
    (done : Effect d.store p.file? (next (.ok a)).1.file? (p.strands (next (.ok a)).1)
      (next (.ok a)).2)
    (failed : ∀ reason, Effect d.store p.file? (next (.error reason)).1.file?
      (p.strands (next (.error reason)).1) (next (.error reason)).2) :
    p.Follows d.store (spool d a next) := by
  rcases spool_cases d a next with ⟨-, h⟩ | ⟨reason, -, h⟩ <;> rw [h]
  · exact done
  · exact failed reason

theorem file?_written (file threshold received : Nat) :
    (Phase.written file threshold received).file? = some file := by
  unfold Phase.written
  split <;> rfl

theorem follows_conclude (o : BuildOptions) (c : ReceivedContext) (isKnown : Bool)
    (result : Except BuildError String) (s : Store) :
    Effect s (some c.file) (conclude o c isKnown result s).1.file?
      ((Phase.concluding c isKnown result).strands (conclude o c isKnown result s).1)
      (conclude o c isKnown result s).2 := by
  rcases conclude_cases o c isKnown result s with
    ⟨-, h⟩ | ⟨id, -, -, -, known, h⟩ | ⟨id, -, -, -, unknown, h⟩ <;> rw [h]
  · exact .refl _ _
  · exact .adopt_known known _ _
  · exact .adopt unknown

theorem Phase.follows_move (token : Token) (o : BuildOptions) (p : Phase) (d : Desk Store τ) :
    p.Follows d.store (p.move token o d) := by
  cases p with
  | opening =>
    unfold Phase.move
    refine follows_spool d ?_ fun _ => ?_
    · exact .create
    · exact .keep rfl rfl rfl (Nat.le_succ _)
  | receiving file threshold => exact follows_receive token file threshold d
  | writing file threshold data =>
    unfold Phase.move
    refine follows_spool d ?_ fun _ => ?_
    · rw [file?_written]
      exact .append ..
    · exact .refl _ _
  | reporting file threshold => exact follows_offer d _ (.refl _ _) fun e => .refl _ _
  | flushing file =>
    unfold Phase.move
    refine follows_spool d ?_ fun _ => ?_ <;> exact .refl _ _
  | totalling file => exact follows_offer d _ (.refl _ _) fun e => .refl _ _
  | looking file =>
    have hw : d.dropSource.store = d.store := by rw [d.dropSource_toWorkshop]
    rcases looking_cases token o file d with ⟨-, hl⟩ | ⟨-, -, hl⟩ | ⟨-, -, hl⟩ <;> rw [hl]
    · exact hw ▸ .refl _ _
    · exact .touch ..
    · exact .touch ..
  | noting c => exact follows_offer d _ (.refl _ _) fun e => .strand
  | inspecting c isKnown =>
    show Effect d.store _ (inspect token o c isKnown d).file? _ d.store
    rcases inspect_fails_or_tells token o c isKnown d with ⟨e, hi⟩ | ⟨steps, id, hi⟩ <;> rw [hi] <;>
      exact .refl _ _
  | telling c isKnown steps id =>
    cases steps with
    | nil => exact .refl _ _
    | cons step rest =>
      cases step with
      | check =>
        show Effect d.store _ (Phase.file? (if _ then _ else _)) _ d.store
        split <;> exact .refl _ _
      | line text => exact follows_offer d _ (.refl _ _) fun e => .refl _ _
  | concluding c isKnown result => exact follows_conclude o c isKnown result d.store
  | discarding file result => exact .discard
  | leaving result =>
    refine ⟨rfl, ?_⟩
    show Effect d.store none none none (d.store.unregister o.buildId)
    unfold Store.unregister
    split <;> exact .keep rfl rfl rfl (Nat.le_refl _)

def Job.Follows (j : Job) (s : Store) : Move Job (Except BuildError String) × Desk Store τ → Prop
  | (.go k, d) => Effect s j.file? k.file? (j.strands k) d.store
  | (.wait, d) => d.store = s
  | (.stop _, d) => j.file? = none ∧ Effect s none none none d.store

theorem effect_register {s s' : Store} {id : Option String} {t : Token}
    (h : s.register id t = .ok s') : Effect s none none none s' := by
  unfold Store.register at h
  split at h
  · cases h
    exact .refl _ _
  · split at h
    · cases h
    · cases h
      exact .keep rfl rfl rfl (Nat.le_refl _)

/-- **One move** changes files and records in one of the ways of `Effect`. -/
theorem Job.follows_move (j : Job) (d : Desk Store τ) : j.Follows d.store (j.move d) := by
  cases j with
  | arriving context options =>
    simp only [Job.move, arrive]
    split
    · exact ⟨rfl, .refl _ _⟩
    · split
      · exact ⟨rfl, .refl _ _⟩
      · next h => exact effect_register h
  | running token o p =>
    have := p.follows_move token o d
    simp only [Job.move]
    split
    · next h => rwa [h] at this
    · next h => rwa [h] at this
    · next h => rwa [h] at this

end Moves

/-! ## The account -/

def Floor.held (y : Floor τ) : List Nat := y.seats.filterMap (·.job.file?)

/-- **Every file is accounted for:** a record names it, a build works with it, a
prune is about to remove it, or it was left behind, and only one of these. -/
structure Accounted (y : Floor τ) : Prop where
  files : ∀ n, y.workshop.store.fileNumbers.count n = y.workshop.store.recordFiles.count n +
    y.held.count n + y.doomed.count n + y.stranded.count n + y.abandoned.count n
  once : y.workshop.store.fileNumbers.Nodup
  /-- the next file gets a number that no file has -/
  past : ∀ n ∈ y.workshop.store.fileNumbers, n < y.workshop.store.clock
  digests : (y.workshop.store.records.map (·.digest)).Nodup

section Counting

variable {α : Type} {xs : List α} {i : Nat} {a : α}

theorem count_filterMap_eraseIdx (h : xs[i]? = some a) (f : α → Option Nat) (n : Nat) :
    ((xs.eraseIdx i).filterMap f).count n + (f a).toList.count n = (xs.filterMap f).count n := by
  obtain ⟨hi, rfl⟩ := List.getElem?_eq_some_iff.1 h
  have hp := ((List.getElem_cons_eraseIdx_perm hi).filterMap f).count_eq n
  rw [← hp]
  cases hf : f xs[i] with
  | none => simp [hf]
  | some m => simp [hf, List.count_cons]

theorem count_filterMap_set (h : xs[i]? = some a) (b : α) (f : α → Option Nat) (n : Nat) :
    ((xs.set i b).filterMap f).count n + (f a).toList.count n =
      (xs.filterMap f).count n + (f b).toList.count n := by
  obtain ⟨hi, -⟩ := List.getElem?_eq_some_iff.1 h
  have hp := ((List.set_perm_cons_eraseIdx hi b).filterMap f).count_eq n
  have he := count_filterMap_eraseIdx h f n
  rw [hp]
  cases hf : f b with
  | none =>
    simp [hf]
    omega
  | some m =>
    simp [hf, List.count_cons]
    omega

theorem filterMap_modify (f : α → Option Nat) (g : α → α) (hg : ∀ a, f (g a) = f a) (i : Nat) :
    (xs.modify i g).filterMap f = xs.filterMap f := by
  induction xs generalizing i with
  | nil => simp
  | cons x xs ih =>
    cases i with
    | zero => simp [List.filterMap_cons, hg]
    | succ i => simp [List.filterMap_cons, ih]

end Counting

theorem fileNumbers_discard (s : Store) (m : Nat) :
    (s.discard m).fileNumbers = s.fileNumbers.filter (· ≠ m) := by
  simp only [Store.discard, Store.fileNumbers, List.filter_map]
  rfl

theorem fileNumbers_createFile (s : Store) :
    s.createFile.2.fileNumbers = s.fileNumbers ++ [s.clock] := by
  simp [Store.createFile, Store.fileNumbers]

theorem adopt_unknown {s : Store} {digest : String} (h : s.holds digest = false)
    (file size : Nat) : (s.adopt digest file size).2 =
      { s with clock := s.clock + 1, records := s.records ++ [⟨digest, file, size, s.clock⟩] } := by
  simp only [Store.adopt, h, Bool.false_eq_true, if_false]

theorem count_discard {s : Store} {m : Nat} (once : s.fileNumbers.Nodup)
    (hm : m ∈ s.fileNumbers) (n : Nat) :
    (s.discard m).fileNumbers.count n + [m].count n = s.fileNumbers.count n := by
  rw [fileNumbers_discard]
  by_cases hn : n = m
  · subst hn
    rw [List.count_eq_zero_of_not_mem (by simp), List.count_eq_one_of_mem once hm]
    simp
  · rw [List.count_filter (by simpa using hn)]
    simp [Ne.symm hn]

variable {s s' : Store} {before after stranded : Option Nat}

/-- **Files are conserved** by a move: what the directory gains, the records and
the build gain. -/
theorem Effect.conserves (h : Effect s before after stranded s') (once : s.fileNumbers.Nodup)
    (mem : ∀ m, before = some m → m ∈ s.fileNumbers) (n : Nat) :
    s'.fileNumbers.count n + s.recordFiles.count n + before.toList.count n =
      s.fileNumbers.count n + s'.recordFiles.count n + after.toList.count n +
        stranded.toList.count n := by
  cases h with
  | keep numbers files digests clock =>
    rw [numbers, files]
    simp
  | create =>
    rw [fileNumbers_createFile]
    show _ + s.recordFiles.count n + _ = _ + s.recordFiles.count n + _ + _
    simp only [List.count_append, Option.toList_none, Option.toList_some, List.count_nil]
    omega
  | adopt unknown =>
    rw [adopt_unknown unknown]
    show s.fileNumbers.count n + _ + _ = _ + (List.map _ (s.records ++ [_])).count n + _ + _
    simp only [Store.recordFiles, List.map_append, List.map_cons, List.map_nil, List.count_append,
      Option.toList_none, Option.toList_some, List.count_nil]
    omega
  | @discard file =>
    have hd := count_discard once (mem file rfl) n
    show _ + s.recordFiles.count n + _ = _ + s.recordFiles.count n + _ + _
    simp only [Option.toList_none, Option.toList_some, List.count_nil]
    omega
  | strand =>
    simp only [Option.toList_none, Option.toList_some, List.count_nil]
    omega

theorem Effect.keeps (h : Effect s before after stranded s') (once : s.fileNumbers.Nodup)
    (past : ∀ n ∈ s.fileNumbers, n < s.clock) (digests : (s.records.map (·.digest)).Nodup) :
    s'.fileNumbers.Nodup ∧ (∀ n ∈ s'.fileNumbers, n < s'.clock) ∧
      (s'.records.map (·.digest)).Nodup := by
  cases h with
  | keep hn hf hd hc =>
    rw [hn, hd]
    exact ⟨once, fun n hn => Nat.lt_of_lt_of_le (past n hn) hc, digests⟩
  | create =>
    rw [fileNumbers_createFile]
    refine ⟨?_, ?_, digests⟩
    · refine List.nodup_append.2 ⟨once, List.nodup_singleton _, ?_⟩
      rintro a ha b hb rfl
      rw [List.mem_singleton] at hb
      have := past a ha
      omega
    · intro n hn
      show n < s.clock + 1
      rcases List.mem_append.1 hn with hn | hn
      · exact Nat.lt_succ_of_lt (past n hn)
      · rw [List.mem_singleton] at hn
        omega
  | @adopt digest file size unknown =>
    rw [adopt_unknown unknown]
    refine ⟨once, fun n hn => Nat.lt_succ_of_lt (past n hn), ?_⟩
    show (List.map _ (s.records ++ [_])).Nodup
    rw [List.map_append]
    refine List.nodup_append.2 ⟨digests, List.nodup_singleton _, ?_⟩
    rintro a ha b hb rfl
    rw [List.map_singleton, List.mem_singleton] at hb
    -- a record with this digest would have made it known
    obtain ⟨r, hr, rfl⟩ := List.mem_map.1 ha
    have := List.any_eq_false.1 unknown r hr
    simp [hb] at this
  | discard =>
    rw [fileNumbers_discard]
    exact ⟨once.filter _, fun n hn => past n (List.mem_filter.1 hn).1, digests⟩
  | strand => exact ⟨once, past, digests⟩

/-! ## Pruning -/

theorem surplus_sublist (keep total : Nat) (rs : List CacheRecord) :
    (Store.surplus keep total rs).Sublist rs := by
  induction rs generalizing total with
  | nil => exact List.Sublist.refl _
  | cons r rest ih =>
    unfold Store.surplus
    split
    · exact List.nil_sublist _
    · exact (ih _).cons_cons r

theorem candidates_perm (s : Store) (o : PruneOptions) :
    (s.candidates o).Perm (s.records.filter (Store.isSelected o)) :=
  List.mergeSort_perm _ _

theorem evicted_sublist (s : Store) (o : PruneOptions) :
    (s.evicted o).Sublist (s.candidates o) := by
  unfold Store.evicted
  split
  · exact List.Sublist.refl _
  · exact surplus_sublist _ _ _

theorem mem_records_of_evicted {s : Store} {o : PruneOptions} {r : CacheRecord}
    (h : r ∈ s.evicted o) : r ∈ s.records :=
  (List.mem_filter.1 ((candidates_perm s o).mem_iff.1 ((evicted_sublist s o).subset h))).1

theorem nodup_evicted {s : Store} (digests : (s.records.map (·.digest)).Nodup) (o : PruneOptions) :
    (s.evicted o).Nodup :=
  ((candidates_perm s o).nodup_iff.2 ((List.Nodup.of_map _ digests).filter _)).sublist
    (evicted_sublist s o)

theorem perm_append_rest {records gone : List CacheRecord} (nodup : records.Nodup)
    (once : gone.Nodup) (subset : gone ⊆ records) :
    records.Perm (gone ++ records.filter (· ∉ gone)) := by
  have taken : (records.filter fun r => decide (r ∈ gone)).Perm gone := by
    refine (List.perm_ext_iff_of_nodup (nodup.filter _) once).2 fun r => ?_
    simp only [List.mem_filter, decide_eq_true_eq]
    exact ⟨fun h => h.2, fun h => ⟨subset h, h⟩⟩
  have rest : (records.filter fun r => !decide (r ∈ gone)) = records.filter (· ∉ gone) :=
    List.filter_congr fun r _ => (decide_not ..).symm
  rw [← rest]
  exact (List.filter_append_perm _ _).symm.trans (taken.append_right _)

theorem filter_digest {s : Store} (digests : (s.records.map (·.digest)).Nodup)
    {gone : List CacheRecord} (subset : gone ⊆ s.records) :
    (s.records.filter fun r => !gone.any (·.digest = r.digest)) =
      s.records.filter (· ∉ gone) := by
  refine List.filter_congr fun r hr => ?_
  rw [decide_not]
  congr 1
  by_cases hm : r ∈ gone
  · simp only [hm, decide_true, List.any_eq_true]
    exact ⟨r, hm, by simp⟩
  · simp only [hm, decide_false, List.any_eq_false, decide_eq_true_eq]
    intro q hq hd
    exact hm (List.inj_on_of_nodup_map digests (subset hq) hr hd ▸ hq)

theorem records_perm (s : Store) (o : PruneOptions) (digests : (s.records.map (·.digest)).Nodup) :
    s.records.Perm
      (s.evicted o ++ s.records.filter fun r => !(s.evicted o).any (·.digest = r.digest)) := by
  have subset : s.evicted o ⊆ s.records := fun _ => mem_records_of_evicted
  rw [filter_digest digests subset]
  exact perm_append_rest (List.Nodup.of_map _ digests) (nodup_evicted digests o) subset

theorem count_strike (s : Store) (o : PruneOptions) (digests : (s.records.map (·.digest)).Nodup)
    (n : Nat) :
    (s.strike o).2.recordFiles.count n + (s.strike o).1.count n = s.recordFiles.count n := by
  unfold Store.strike
  split
  · simp
  · have hp := ((records_perm s o digests).map (·.file)).count_eq n
    rw [List.map_append, List.count_append] at hp
    simp only [Store.recordFiles]
    omega

/-! ## One event -/

namespace Accounted

variable {y : Floor τ} {i : Nat}

theorem start : Accounted (τ := τ) {} := by
  constructor
  · intro n
    rfl
  · exact List.nodup_nil
  · intro n hn
    cases hn
  · exact List.nodup_nil

theorem mem_of_held (h : Accounted y) {seat : Seat τ} (hs : y.seats[i]? = some seat) {m : Nat}
    (hm : seat.job.file? = some m) : m ∈ y.workshop.store.fileNumbers := by
  have held : m ∈ y.held := List.mem_filterMap.2 ⟨seat, List.mem_of_getElem? hs, hm⟩
  have := List.count_pos_iff.2 held
  have := h.files m
  exact List.count_pos_iff.1 (by omega)

theorem mem_of_doomed (h : Accounted y) {m : Nat} (hm : m ∈ y.doomed) :
    m ∈ y.workshop.store.fileNumbers := by
  have := List.count_pos_iff.2 hm
  have := h.files m
  exact List.count_pos_iff.1 (by omega)

theorem move [Sink τ] (h : Accounted y) (i : Nat) : Accounted (y.move i) := by
  unfold Floor.move
  split
  · exact h
  · next seat hs =>
    have follows := seat.job.follows_move (y.desk seat)
    have mem (m) (hm : seat.job.file? = some m) := h.mem_of_held hs hm
    split
    · next job d hm =>
      rw [hm] at follows
      obtain ⟨once, past, digests⟩ := Effect.keeps follows h.once h.past h.digests
      refine ⟨fun n => ?_, once, past, digests⟩
      -- the directory, the records and this build change in step; the others keep what they have
      have conserves := Effect.conserves follows h.once mem n
      have set := count_filterMap_set hs (⟨job, d.source, d.writer⟩ : Seat τ) (·.job.file?) n
      have files := h.files n
      simp only [Floor.held, Floor.desk, List.count_append] at *
      omega
    · next d hm =>
      rw [hm] at follows
      have store : d.store = y.workshop.store := follows
      have set := count_filterMap_set hs (⟨seat.job, d.source, d.writer⟩ : Seat τ) (·.job.file?)
      refine ⟨fun n => ?_, store ▸ h.once, store ▸ h.past, store ▸ h.digests⟩
      have := set n
      have files := h.files n
      simp only [Floor.held, store] at *
      omega
    · next result d hm =>
      rw [hm] at follows
      obtain ⟨none, effect⟩ := follows
      obtain ⟨once, past, digests⟩ := effect.keeps h.once h.past h.digests
      refine ⟨fun n => ?_, once, past, digests⟩
      have conserves := effect.conserves h.once (by rintro m ⟨⟩) n
      have erase := count_filterMap_eraseIdx hs (·.job.file?) n
      have files := h.files n
      simp only [none, Floor.held, Floor.desk, Option.toList_none, List.count_nil] at *
      omega

theorem change (h : Accounted y) (i : Nat) {f : Seat τ → Seat τ}
    (hf : ∀ seat, (f seat).job = seat.job) :
    Accounted (y.change i f) := by
  have held : (y.change i f).held = y.held :=
    filterMap_modify _ _ (fun seat => by rw [hf]) i
  exact ⟨fun n => by rw [held]; exact h.files n, h.once, h.past, h.digests⟩

theorem strike [Sink τ] (h : Accounted y) (o : PruneOptions) : Accounted (y.step (.strike o)) := by
  have same : (y.workshop.store.strike o).2.fileNumbers = y.workshop.store.fileNumbers ∧
      (y.workshop.store.strike o).2.clock = y.workshop.store.clock := by
    unfold Store.strike
    split <;> exact ⟨rfl, rfl⟩
  have digests : ((y.workshop.store.strike o).2.records.map (·.digest)).Nodup := by
    unfold Store.strike
    split
    · exact h.digests
    · exact h.digests.sublist (List.filter_sublist.map _)
  refine ⟨fun n => ?_, same.1 ▸ h.once, ?_, digests⟩
  · have count := count_strike y.workshop.store o h.digests n
    have files := h.files n
    simp only [Floor.step, Floor.held, same.1, List.count_append] at *
    omega
  · show ∀ n ∈ (y.workshop.store.strike o).2.fileNumbers, n < (y.workshop.store.strike o).2.clock
    rw [same.1, same.2]
    exact h.past

theorem sweep [Sink τ] (h : Accounted y) (i : Nat) : Accounted (y.step (.sweep i)) := by
  simp only [Floor.step]
  split
  · exact h
  · next m hm =>
    refine ⟨fun n => ?_, ?_, ?_, h.digests⟩
    · have count := count_discard h.once (h.mem_of_doomed (List.mem_of_getElem? hm)) n
      have erase := count_filterMap_eraseIdx hm some n
      rw [List.filterMap_some, List.filterMap_some] at erase
      have files := h.files n
      show (y.workshop.store.discard m).fileNumbers.count n =
        y.workshop.store.recordFiles.count n + y.held.count n + (y.doomed.eraseIdx i).count n +
          y.stranded.count n + y.abandoned.count n
      simp only [Option.toList_some] at erase
      omega
    · rw [fileNumbers_discard]
      exact h.once.filter _
    · rw [fileNumbers_discard]
      exact fun n hn => h.past n (List.mem_filter.1 hn).1

theorem giveUp (h : Accounted y) (i : Nat) : Accounted (y.giveUp i) := by
  unfold Floor.giveUp
  split
  · exact h
  · next seat hs =>
    have same : (seat.job.abandon y.workshop.store).fileNumbers = y.workshop.store.fileNumbers ∧
        (seat.job.abandon y.workshop.store).records = y.workshop.store.records ∧
        (seat.job.abandon y.workshop.store).clock = y.workshop.store.clock := by
      cases seat.job with
      | arriving => exact ⟨rfl, rfl, rfl⟩
      | running token o p =>
        simp only [Job.abandon, Store.unregister]
        split <;> exact ⟨rfl, rfl, rfl⟩
    have once := h.once
    have past := h.past
    rw [← same.1] at once past
    refine ⟨fun n => ?_, once, same.2.2 ▸ past, same.2.1 ▸ h.digests⟩
    have erase := count_filterMap_eraseIdx hs (·.job.file?) n
    have files := h.files n
    simp only [Floor.held, Store.recordFiles, same.1, same.2.1, List.count_append] at *
    omega

theorem step [Sink τ] (h : Accounted y) (e : FloorEvent τ) : Accounted (y.step e) := by
  cases e with
  | arrive context options source writer =>
    refine ⟨fun n => ?_, h.once, h.past, h.digests⟩
    have held : (y.step (.arrive context options source writer)).held = y.held := by
      simp [Floor.held, Floor.step, Job.file?]
    rw [held]
    exact h.files n
  | move i => exact h.move i
  | feed i items => exact h.change i fun _ => rfl
  | complete i => exact h.change i fun _ => rfl
  | respond i sink => exact h.change i fun _ => rfl
  | cancel token => exact ⟨h.files, h.once, h.past, h.digests⟩
  | cancelId id => exact ⟨h.files, h.once, h.past, h.digests⟩
  | strike o => exact h.strike o
  | sweep i => exact h.sweep i
  | giveUp i => exact h.giveUp i
  | disk fault => exact ⟨h.files, h.once, h.past, h.digests⟩

end Accounted

namespace Floor

variable [Sink τ]

theorem accounted_run (events : List (FloorEvent τ)) : Accounted (({} : Floor τ).run events) := by
  induction events using List.reverseRecOn with
  | nil => exact .start
  | append_singleton events e ih =>
    rw [run_snoc]
    exact ih.step e

end Floor

/-! ## Files that nobody removes -/

section Stranding

variable [Sink τ]

/-- Whether the line that tells that the context is known is refused. -/
def Job.IsRefused (j : Job) (d : Desk Store τ) : Prop :=
  ∃ token o c cause, j = .running token o (.noting c) ∧
    (d.write (Message.line (Plan.cachedLine c.digest)).frame).1 = .failed cause

/-- A refused line strands the file. -/
theorem strands_of_isRefused {j : Job} {d : Desk Store τ} (h : j.IsRefused d) :
    ∃ k d' file, j.move d = (.go k, d') ∧ j.strands k = some file := by
  obtain ⟨token, o, c, cause, rfl, hw⟩ := h
  rcases hd : d.write (Message.line (Plan.cachedLine c.digest)).frame with ⟨sent, d'⟩
  rw [hd] at hw
  cases hw
  refine ⟨.running token o (.leaving (.error (.progress cause))), d', c.file, ?_, rfl⟩
  simp only [Job.move, Phase.move, Desk.offer, hd]

theorem strands_eq_none {j k : Job} {d d' : Desk Store τ} (h : j.move d = (.go k, d'))
    (hr : ¬ j.IsRefused d) : j.strands k = none := by
  cases j with
  | arriving => rfl
  | running token o p =>
    simp only [Job.move] at h
    split at h
    · next q d₁ hp =>
      cases h
      cases p with
      | noting c =>
        rcases d.offer_cases (Message.line (Plan.cachedLine c.digest)).frame
          (Phase.inspecting c true)
          (fun e => (.go (.leaving (.error (.progress e))) : Move Phase (Except BuildError String)))
          with ⟨-, ho⟩ | ⟨-, ho⟩ | ⟨e, he, -⟩
        · simp only [Phase.move, ho, Prod.mk.injEq, Move.go.injEq] at hp
          rw [← hp.1]
          rfl
        · simp only [Phase.move, ho, Prod.mk.injEq, reduceCtorEq, false_and] at hp
        · exact absurd ⟨token, o, c, e, rfl, he⟩ hr
      | _ => rfl
    · cases h
    · cases h

namespace Floor

/-- Whether an event is a move in which a build is refused the line that tells
that its context is known. -/
def Refuses (y : Floor τ) (e : FloorEvent τ) : Prop :=
  ∃ i seat, e = .move i ∧ y.seats[i]? = some seat ∧ seat.job.IsRefused (y.desk seat)

theorem stranded_move (y : Floor τ) (i : Nat) :
    (y.move i).stranded = [] ↔ y.stranded = [] ∧ ¬ y.Refuses (.move i) := by
  have refuses (seat) (hs : y.seats[i]? = some seat) :
      y.Refuses (.move i) ↔ seat.job.IsRefused (y.desk seat) := by
    constructor
    · rintro ⟨_, seat', ⟨⟩, hs', hr⟩
      rw [hs] at hs'
      cases hs'
      exact hr
    · intro hr
      exact ⟨i, seat, rfl, hs, hr⟩
  unfold move
  split
  · next hs =>
    refine (and_iff_left ?_).symm
    rintro ⟨_, seat, ⟨⟩, hs', -⟩
    rw [hs] at hs'
    cases hs'
  · next seat hs =>
    rw [refuses seat hs]
    by_cases hr : seat.job.IsRefused (y.desk seat)
    · obtain ⟨k, d', file, hm, hk⟩ := strands_of_isRefused hr
      simp only [hm, hk, hr]
      simp
    · rw [and_iff_left hr]
      split
      · next k d' hm =>
        simp only [strands_eq_none hm hr]
        simp
      · rfl
      · rfl

/-- **A file is stranded** by a refused line and by nothing else. -/
theorem stranded_step (y : Floor τ) (e : FloorEvent τ) :
    (y.step e).stranded = [] ↔ y.stranded = [] ∧ ¬ y.Refuses e := by
  have other (hn : ∀ i, e ≠ .move i) : ¬ y.Refuses e := by
    rintro ⟨i, -, he, -⟩
    exact hn i he
  cases e with
  | move i => exact y.stranded_move i
  | sweep i =>
    rw [and_iff_left (other (by simp))]
    simp only [step]
    split <;> rfl
  | giveUp i =>
    rw [and_iff_left (other (by simp))]
    simp only [step, giveUp]
    split <;> rfl
  | _ =>
    rw [and_iff_left (other (by simp))]
    rfl

/-- No file is stranded in a run exactly if no build is refused that line. -/
theorem stranded_run (events : List (FloorEvent τ)) :
    (({} : Floor τ).run events).stranded = [] ↔
      ∀ before e after, events = before ++ e :: after → ¬ (({} : Floor τ).run before).Refuses e := by
  induction events using List.reverseRecOn with
  | nil => simp [run]
  | append_singleton events e ih =>
    rw [run_snoc, stranded_step, ih]
    constructor
    · rintro ⟨h, he⟩ before f after hf
      -- `f` is the last event, or else one of those before it
      rcases List.eq_nil_or_concat after with rfl | ⟨rest, g, rfl⟩
      · obtain ⟨rfl, hef⟩ := List.append_inj' hf rfl
        rw [List.singleton_inj] at hef
        exact hef ▸ he
      · have : events ++ [e] = (before ++ f :: rest) ++ [g] := by simpa using hf
        exact h before f rest (List.append_inj' this rfl).1
    · intro h
      constructor
      · rintro before f after rfl
        exact h before f (after ++ [e]) (by simp)
      · exact h events e [] rfl

theorem abandoned_run (events : List (FloorEvent τ)) (complete : ∀ i, .giveUp i ∉ events) :
    (({} : Floor τ).run events).abandoned = [] := by
  induction events using List.reverseRecOn with
  | nil => rfl
  | append_singleton events e ih =>
    have ih := ih fun i hi => complete i (List.mem_append_left _ hi)
    rw [run_snoc]
    cases e with
    | giveUp i => exact absurd (List.mem_append_right _ (List.mem_singleton_self _)) (complete i)
    | move i =>
      simp only [step, move]
      split
      · exact ih
      · split <;> exact ih
    | sweep i =>
      simp only [step]
      split <;> exact ih
    | _ => exact ih

/-- **The spool directory at rest.** When every build has run to its end and no
prune has still something to remove, the files are exactly those that records
name, unless a build was refused the line that tells that its context is known:
then, and only then, there are others. -/
theorem files_eq_records_iff (events : List (FloorEvent τ)) (complete : ∀ i, .giveUp i ∉ events)
    (idle : (({} : Floor τ).run events).seats = [])
    (swept : (({} : Floor τ).run events).doomed = []) :
    let s := (({} : Floor τ).run events).workshop.store
    (s.fileNumbers.Perm s.recordFiles ↔
      ∀ before e after, events = before ++ e :: after →
        ¬ (({} : Floor τ).run before).Refuses e) ∧
      s.fileNumbers.Perm (s.recordFiles ++ (({} : Floor τ).run events).stranded) ∧
      s.fileNumbers.Nodup := by
  intro s
  have account := accounted_run events
  have files : s.fileNumbers.Perm (s.recordFiles ++ (({} : Floor τ).run events).stranded) := by
    -- at rest only records and stranded files are left in the account
    refine List.perm_iff_count.2 fun n => ?_
    have hn := account.files n
    rw [held, idle, swept, abandoned_run events complete] at hn
    rw [List.filterMap_nil, List.count_nil] at hn
    rw [List.count_append]
    omega
  refine ⟨?_, files, account.once⟩
  rw [← stranded_run]
  constructor
  · intro h
    -- two permutations of the files differ by the stranded ones
    have length := (h.symm.trans files).length_eq
    rw [List.length_append] at length
    exact List.length_eq_zero_iff.1 (by omega)
  · intro h
    rwa [h, List.append_nil] at files

/-- A build whose upload is no archive, with a cancellation and a prune between
its moves. -/
def unreadable : List (FloorEvent Recorder) :=
  .arrive ⟨.newest, ⟨0, []⟩⟩ { buildId := some "b" }
      (some { upload := ⟨[.chunk ⟨#[0x61]⟩], true⟩ }) ⟨{}, none⟩ ::
    List.replicate 8 (.move 0) ++ [.cancelId "b", .strike {}, .sweep 0] ++
    List.replicate 4 (.move 0)

/-- Nobody is refused a line there, and no file stays. -/
theorem files_eq_records_unreadable :
    (∀ i, .giveUp i ∉ unreadable) ∧ (({} : Floor Recorder).run unreadable).seats = [] ∧
      (({} : Floor Recorder).run unreadable).doomed = [] ∧
      (({} : Floor Recorder).run unreadable).workshop.store.fileNumbers.Perm
        ((({} : Floor Recorder).run unreadable).workshop.store.recordFiles ++
          (({} : Floor Recorder).run unreadable).stranded) := by
  have complete (i : Nat) : .giveUp i ∉ unreadable := by simp [unreadable]
  have idle : (({} : Floor Recorder).run unreadable).seats = [] :=
    List.isEmpty_iff.1 (by decide +kernel)
  have swept : (({} : Floor Recorder).run unreadable).doomed = [] := by decide +kernel
  exact ⟨complete, idle, swept, (files_eq_records_iff unreadable complete idle swept).2.1⟩

end Floor

end Stranding

end ContextEngine
end ImageBuild
