import ImageBuild.Proofs.Transparency

/-!
# How a build reports its upload

While a build receives its context it reports how much has arrived. A report is made
after each chunk with which the octets reach another multiple of the interval, and
one more at the end of the upload (`upload_reported`). Which chunks these are
depends on the sizes of the chunks only (`milestones`); what a build has reported is
compared with them while it takes one chunk after the other (`Phase.Reports`).
-/

namespace ImageBuild

namespace Upload

/-! ## Totals -/

/-- How many octets have arrived before and after each chunk that is not empty, `total`
before the first of them. -/
def arrivals (total : Nat) : List Item → List (Nat × Nat)
  | [] => []
  | x :: rest =>
    if x.size = 0 then arrivals total rest
    else (total, total + x.size) :: arrivals (total + x.size) rest

theorem size_bytes_cons (x : Item) (rest : List Item) :
    (bytes (x :: rest)).size = x.size + (bytes rest).size := by
  cases x with
  | chunk data => exact ByteArray.size_append
  | fault | pause => exact (Nat.zero_add _).symm

theorem size_bytes_append (xs ys : List Item) :
    (bytes (xs ++ ys)).size = (bytes xs).size + (bytes ys).size := by
  rw [bytes_append, ByteArray.size_append]

theorem arrivals_append (total : Nat) (xs ys : List Item) :
    arrivals total (xs ++ ys) = arrivals total xs ++ arrivals (total + (bytes xs).size) ys := by
  induction xs generalizing total with
  | nil => rfl
  | cons x xs ih =>
    rw [List.cons_append, arrivals, arrivals, size_bytes_cons, ← Nat.add_assoc]
    split
    · next none => rw [ih, none, Nat.add_zero]
    · rw [ih, List.cons_append]

theorem length_arrivals (total : Nat) (xs : List Item) :
    (arrivals total xs).length = xs.countP fun x => x.size ≠ 0 := by
  induction xs generalizing total with
  | nil => rfl
  | cons x xs ih =>
    rw [arrivals]
    split
    · next none => rw [ih, List.countP_cons_of_neg (by simp [none])]
    · next some => rw [List.length_cons, ih, List.countP_cons_of_pos (by simp [some])]

theorem of_mem_arrivals {total : Nat} {xs : List Item} {p : Nat × Nat}
    (h : p ∈ arrivals total xs) :
    total ≤ p.1 ∧ p.1 < p.2 ∧ p.2 ≤ total + (bytes xs).size := by
  induction xs generalizing total with
  | nil => cases h
  | cons x xs ih =>
    rw [size_bytes_cons]
    rw [arrivals] at h
    split at h
    · have := ih h
      omega
    · rcases List.mem_cons.1 h with rfl | h
      · simp only
        omega
      · have := ih h
        omega

theorem pairwise_arrivals (total : Nat) (xs : List Item) :
    (arrivals total xs).Pairwise fun p q => p.2 ≤ q.1 := by
  induction xs generalizing total with
  | nil => exact .nil
  | cons x xs ih =>
    rw [arrivals]
    split
    · exact ih total
    · exact .cons (fun q hq => (of_mem_arrivals hq).1) (ih _)

theorem Takes.bytesRead {u : Upload} {s : Source} {content : ByteArray} {past : List Item}
    (h : u.Takes s content) (items : u.items = past ++ s.upload.items) :
    s.bytesRead = (bytes past).size := by
  obtain ⟨taken, items', -, rfl⟩ := h.items
  rw [h.count, List.append_cancel_right (items.symm.trans items')]

end Upload

namespace ContextEngine

open Upload (arrivals)

/-- The totals with which the octets of an upload reach another multiple of the interval. -/
def milestones (items : List Upload.Item) : List Nat :=
  ((arrivals 0 items).filter fun p => p.1 / reportInterval < p.2 / reportInterval).map (·.2)

section Milestones

variable {items : List Upload.Item}

theorem reportInterval_pos : 0 < reportInterval := by decide

/-- **When a report is due.** After some octets the next one is due as soon as there are
more whole intervals. -/
theorem nextReport_le_iff {before after : Nat} :
    nextReport before ≤ after ↔ before / reportInterval < after / reportInterval := by
  rw [nextReport, Nat.lt_iff_add_one_le, Nat.le_div_iff_mul_le reportInterval_pos]

theorem nextReport_eq {before after : Nat} (h : before ≤ after)
    (none : ¬ nextReport before ≤ after) : nextReport before = nextReport after := by
  have le : before / reportInterval ≤ after / reportInterval := Nat.div_le_div_right h
  rw [nextReport_le_iff] at none
  rw [nextReport, nextReport, show before / reportInterval = after / reportInterval by omega]

theorem milestones_snoc (past : List Upload.Item) (x : Upload.Item) :
    milestones (past ++ [x]) =
      milestones past ++ if nextReport (Upload.bytes past).size ≤ (Upload.bytes (past ++ [x])).size
        then [(Upload.bytes (past ++ [x])).size] else [] := by
  have size : (Upload.bytes (past ++ [x])).size = (Upload.bytes past).size + x.size := by
    rw [Upload.size_bytes_append, Upload.size_bytes_cons]
    rfl
  have last : arrivals (0 + (Upload.bytes past).size) [x] =
      if x.size = 0 then []
      else [((Upload.bytes past).size, (Upload.bytes past).size + x.size)] := by
    rw [Nat.zero_add]
    rfl
  simp only [milestones, nextReport_le_iff, Upload.arrivals_append, last, List.filter_append,
    List.map_append, size]
  congr 1
  split
  · next none => rw [none, Nat.add_zero, if_neg (Nat.lt_irrefl _)]; rfl
  · split <;> simp [*]

theorem milestones_blank (past : List Upload.Item) {passed : List Upload.Item}
    (blank : ∀ x ∈ passed, x.isBlank) : milestones (past ++ passed) = milestones past := by
  have none (total : Nat) : arrivals total passed = [] := by
    refine List.eq_nil_of_length_eq_zero ?_
    rw [Upload.length_arrivals, List.countP_eq_zero]
    intro x hx
    have := blank x hx
    cases x with
    | chunk data => simpa [Upload.Item.isBlank, Upload.Item.size, ByteArray.isEmpty] using this
    | fault | pause => cases this
  rw [milestones, Upload.arrivals_append, none, List.append_nil]
  rfl

/-- **The totals grow**, and none is more than the whole. -/
theorem pairwise_milestones (items : List Upload.Item) :
    (milestones items).Pairwise (· < ·) ∧
      ∀ n ∈ milestones items, n ≤ (Upload.bytes items).size := by
  constructor
  · refine List.pairwise_map.2 (.filter _ ?_)
    refine (Upload.pairwise_arrivals 0 items).imp_of_mem fun {p q} _ hq le => ?_
    exact Nat.lt_of_le_of_lt le (Upload.of_mem_arrivals hq).2.1
  · intro n hn
    obtain ⟨p, hp, rfl⟩ := List.mem_map.1 hn
    have le := (Upload.of_mem_arrivals (List.mem_filter.1 hp).1).2.2
    rwa [Nat.zero_add] at le

/-- Of the intervals in a total, each is behind at most one arrival. -/
theorem length_crossings_le (total : Nat) (items : List Upload.Item) :
    ((arrivals total items).filter fun p => p.1 / reportInterval < p.2 / reportInterval).length +
      total / reportInterval ≤ (total + (Upload.bytes items).size) / reportInterval := by
  induction items generalizing total with
  | nil => simp [arrivals, Upload.bytes]
  | cons x rest ih =>
    rw [arrivals, Upload.size_bytes_cons, ← Nat.add_assoc]
    split
    · next none =>
      rw [none, Nat.add_zero]
      exact ih total
    · have le := ih (total + x.size)
      have mono : total / reportInterval ≤ (total + x.size) / reportInterval :=
        Nat.div_le_div_right (Nat.le_add_right ..)
      rw [List.filter_cons]
      split
      · next lt =>
        have lt := of_decide_eq_true lt
        rw [List.length_cons]
        simp only at lt
        omega
      · omega

/-- **There are few reports**: one at most for each chunk that is not empty, and one at
most for each whole interval. -/
theorem length_milestones_le (items : List Upload.Item) :
    (milestones items).length ≤ items.countP (fun x => x.size ≠ 0) ∧
      (milestones items).length ≤ (Upload.bytes items).size / reportInterval := by
  rw [milestones, List.length_map]
  constructor
  · rw [← Upload.length_arrivals 0]
    exact List.length_filter_le ..
  · have le := length_crossings_le 0 items
    rwa [Nat.zero_div, Nat.add_zero, Nat.zero_add] at le

end Milestones

end ContextEngine

/-! ## What has been reported -/

/-- The reports among the frames that a sink has taken. -/
def Notes.reports (n : Notes) : List Frame := n.taken.filter ContextEngine.isReport

namespace ContextEngine

variable {τ : Type} {u : Upload} {n : Notes} {faults faults' : List String}
  {isCancelled isCancelled' : Bool}

theorem reports_add_report (n : Notes) (total : Nat) :
    (n.add (report total) .accepted).reports = n.reports ++ [report total] := by
  rw [Notes.reports, Notes.add, List.filter_append,
    List.filter_cons_of_pos (isReport_report total)]
  rfl

theorem reports_add_line (n : Notes) (text : String) :
    (n.add (Message.line text).frame .accepted).reports = n.reports := by
  rw [Notes.reports, Notes.add, List.filter_append,
    List.filter_cons_of_neg (by simp), List.filter_nil, List.append_nil]
  rfl

/-- What may stand in the way of a build. -/
inductive Hindered (u : Upload) (n : Notes) (faults : List String) (isCancelled : Bool) : Prop where
  | canceled (h : isCancelled = true)
  | refused (h : n.refused ≠ [])
  | fault {reason : String} (h : .fault reason ∈ u.items)
  /-- the file system has failed the build -/
  | failed (h : faults ≠ [])

/-- Whether an upload has arrived to its end, and has been reported as it belongs. -/
structure Reported (u : Upload) (n : Notes) : Prop where
  isClosed : u.isClosed = true
  reports : n.reports = (milestones u.items ++ [(Upload.bytes u.items).size]).map report

/-- Whether a source has handed out the items `past` of an upload, and the next report is
due at `threshold`. -/
structure HandedOut (u : Upload) (source : Option Source) (threshold : Nat)
    (past : List Upload.Item) : Prop where
  items : ∃ x, source = some x ∧ u.items = past ++ x.upload.items
  threshold : threshold = nextReport (Upload.bytes past).size

/-- What has been reported in a phase of a build with the upload `u`. -/
def Phase.Reports (u : Upload) (source : Option Source) (n : Notes) (faults : List String)
    (isCancelled : Bool) : Phase → Prop
  | .opening => True
  | .receiving _ threshold =>
    ∃ past, HandedOut u source threshold past ∧ n.reports = (milestones past).map report
  | .writing _ threshold _ =>
    -- whether the report is due is found out when the chunk is in the file
    ∃ past, let total := (Upload.bytes past).size
      HandedOut u source (if threshold ≤ total then nextReport total else threshold) past ∧
        n.reports ++ (if threshold ≤ total then [report total] else []) =
          (milestones past).map report
  | .reporting _ threshold =>
    ∃ past, HandedOut u source threshold past ∧
      n.reports ++ [report (Upload.bytes past).size] = (milestones past).map report
  | .flushing _ | .totalling _ => u.isClosed = true ∧ n.reports = (milestones u.items).map report
  | .looking _ | .noting _ | .inspecting .. | .telling .. => Reported u n
  | .concluding .. | .discarding .. | .leaving _ => Reported u n ∨ Hindered u n faults isCancelled

/-! ## What happens between moves -/

theorem Hindered.mono (h : Hindered u n faults isCancelled) (more : faults ⊆ faults')
    (later : isCancelled = true → isCancelled' = true) : Hindered u n faults' isCancelled' := by
  cases h with
  | canceled h => exact .canceled (later h)
  | refused h => exact .refused h
  | fault h => exact .fault h
  | failed h =>
    refine .failed fun none => h ?_
    exact List.subset_nil.1 (none ▸ more)

theorem Hindered.feed (h : Hindered u n faults isCancelled) (items : List Upload.Item) :
    Hindered (u.feed items) n faults isCancelled := by
  cases h with
  | canceled h => exact .canceled h
  | refused h => exact .refused h
  | fault h => exact .fault (List.mem_append_left _ h)
  | failed h => exact .failed h

theorem Hindered.close (h : Hindered u n faults isCancelled) :
    Hindered u.close n faults isCancelled := by
  cases h with
  | canceled h => exact .canceled h
  | refused h => exact .refused h
  | fault h => exact .fault h
  | failed h => exact .failed h

theorem Reported.not_isOpen (h : Reported u n) : u.isClosed ≠ false := by
  rw [h.isClosed]
  simp

theorem Reported.close (h : Reported u n) : Reported u.close n := ⟨rfl, h.reports⟩

namespace HandedOut

variable {source : Option Source} {threshold : Nat} {past : List Upload.Item}

theorem feed (h : HandedOut u source threshold past) (items : List Upload.Item) :
    HandedOut (u.feed items) (source.map (·.feed items)) threshold past := by
  obtain ⟨⟨x, rfl, hu⟩, due⟩ := h
  refine ⟨⟨x.feed items, rfl, ?_⟩, due⟩
  show u.items ++ items = past ++ (x.upload.items ++ items)
  rw [hu, List.append_assoc]

theorem close (h : HandedOut u source threshold past) :
    HandedOut u.close (source.map (·.close)) threshold past := by
  obtain ⟨⟨x, rfl, hu⟩, due⟩ := h
  exact ⟨⟨x.close, rfl, hu⟩, due⟩

/-- **What is handed out next**: an item, with the empty chunks before it. -/
theorem take {x : Source} (h : HandedOut u (some x) threshold past)
    (count : x.bytesRead = (Upload.bytes past).size) {passed rest : List Upload.Item}
    {item : Upload.Item} (items : x.upload.items = passed ++ item :: rest)
    (blank : ∀ y ∈ passed, y.isBlank) :
    let total := x.bytesRead + item.size
    ∃ past', u.items = past' ++ rest ∧ (Upload.bytes past').size = total ∧
      milestones past' = milestones past ++ (if threshold ≤ total then [total] else []) ∧
      (¬ threshold ≤ total → threshold = nextReport total) := by
  obtain ⟨⟨_, ⟨⟩, hu⟩, rfl⟩ := h
  have same : (Upload.bytes (past ++ passed)).size = (Upload.bytes past).size := by
    rw [Upload.bytes_append, Upload.bytes_eq_empty blank, ByteArray.append_empty]
  have size : (Upload.bytes (past ++ passed ++ [item])).size = x.bytesRead + item.size := by
    rw [Upload.size_bytes_append, same, count, Upload.size_bytes_cons]
    rfl
  refine ⟨past ++ passed ++ [item], by rw [hu, items]; simp, size, ?_, fun none => ?_⟩
  · rw [milestones_snoc, milestones_blank past blank, same, size]
  · exact nextReport_eq (count ▸ Nat.le_add_right ..) none

end HandedOut

namespace Phase.Reports

variable {p : Phase} {source : Option Source}

theorem mono (h : p.Reports u source n faults isCancelled) (more : faults ⊆ faults')
    (later : isCancelled = true → isCancelled' = true) :
    p.Reports u source n faults' isCancelled' := by
  cases p with
  | concluding | discarding | leaving => exact h.imp_right (·.mono more later)
  | _ => exact h

theorem feed (h : p.Reports u source n faults isCancelled) (isOpen : u.isClosed = false)
    (items : List Upload.Item) :
    p.Reports (u.feed items) (source.map (·.feed items)) n faults isCancelled := by
  cases p with
  | opening => trivial
  | receiving | writing | reporting =>
    obtain ⟨past, handed, reports⟩ := h
    exact ⟨past, handed.feed items, reports⟩
  | flushing | totalling =>
    rw [h.1] at isOpen
    cases isOpen
  | looking | noting | inspecting | telling => exact (Reported.not_isOpen h isOpen).elim
  | concluding | discarding | leaving =>
    exact h.imp (fun reported => (reported.not_isOpen isOpen).elim) (·.feed items)

theorem close (h : p.Reports u source n faults isCancelled) :
    p.Reports u.close (source.map (·.close)) n faults isCancelled := by
  cases p with
  | opening => trivial
  | receiving | writing | reporting =>
    obtain ⟨past, handed, reports⟩ := h
    exact ⟨past, handed.close, reports⟩
  | flushing | totalling => exact ⟨rfl, h.2⟩
  | looking | noting | inspecting | telling => exact Reported.close h
  | concluding | discarding | leaving => exact h.imp (·.close) (·.close)

end Phase.Reports

/-! ## Moves -/

/-- What has been reported after a move of a phase. -/
def Phase.Counts (p : Phase) (u : Upload) (faults : List String) (isCancelled : Bool) :
    Move Phase (Except BuildError String) × Desk Store (Noted τ) → Prop
  | (.go q, d) => q.Reports u d.source d.writer.notes faults isCancelled
  | (.wait, d) => p.Reports u d.source d.writer.notes faults isCancelled
  | (.stop _, _) => True

section Moves

variable [Sink τ] {d : Desk Store (Noted τ)}

theorem counts_offer {p next : Phase} {failed : SinkError → Phase} {m : Message}
    (h : p.Reports u d.source d.writer.notes faults isCancelled)
    (hn : next.Reports u d.source (d.writer.notes.add m.frame .accepted) faults isCancelled)
    (hf : ∀ e n, n.refused ≠ [] → (failed e).Reports u d.source n faults isCancelled) :
    p.Counts u faults isCancelled (d.offer m.frame next fun e => .go (failed e)) := by
  rcases d.noted_offer m.frame_ne_nil next
    (fun e => (.go (failed e) : Move Phase (Except BuildError String)))
    with ⟨d', moved, -, source, notes⟩ | ⟨d', moved, -, source, notes⟩ |
      ⟨e, d', moved, -, source, notes⟩ <;>
    rw [moved, Phase.Counts, notes, source]
  · exact hn
  · exact h
  · exact hf e _ (by simp [Notes.add])

omit [Sink τ] in
theorem counts_spool {α : Type} {p : Phase} {a : α} {next : Except String α → Phase × Store}
    (heard : ∀ reason, d.store.fault = some reason → reason ∈ faults)
    (done : (next (.ok a)).1.Reports u d.source d.writer.notes faults isCancelled)
    (failed : ∀ reason, faults ≠ [] →
      (next (.error reason)).1.Reports u d.source d.writer.notes faults isCancelled) :
    p.Counts u faults isCancelled (spool d a next) := by
  rcases spool_cases d a next with ⟨-, h⟩ | ⟨reason, fault, h⟩ <;> rw [h]
  · exact done
  · exact failed reason (List.ne_nil_of_mem (heard reason fault))

omit [Sink τ] in
/-- **What a build has received** is what its source has handed out. -/
theorem HandedOut.received {threshold : Nat} {past : List Upload.Item} {content : ByteArray}
    (h : HandedOut u d.source threshold past)
    (copies : ∃ x, d.source = some x ∧ u.Takes x content) :
    received d = (Upload.bytes past).size := by
  obtain ⟨x, hx, takes⟩ := copies
  obtain ⟨_, hx', hu⟩ := h.items
  cases hx.symm.trans hx'
  exact received_of_bytesRead ⟨x, hx, takes.bytesRead hu⟩

/-- **A chunk** that is taken will be reported if a report is due, and nothing else will. -/
theorem counts_receive (token : Token) (file threshold : Nat)
    (h : (Phase.receiving file threshold).Reports u d.source d.writer.notes faults
      (d.tokens.isCancelled token))
    (copies : (Phase.receiving file threshold).Copies u d.store d.source) :
    (Phase.receiving file threshold).Counts u faults (d.tokens.isCancelled token)
      (receive token file threshold d) := by
  obtain ⟨past, handed, reports⟩ := id h
  obtain ⟨x, hx, takes⟩ := copies
  obtain ⟨⟨_, hx', hu⟩, due⟩ := id handed
  cases hx.symm.trans hx'
  have count := takes.bytesRead hu
  obtain ⟨cancelled, h'⟩ | ⟨noContext, -⟩ | ⟨s, hs, ⟨-, h'⟩ | ⟨ready, h'⟩⟩ :=
    receive_cases token file threshold d
  · rw [h']
    exact .inr (.canceled cancelled)
  · cases noContext.symm.trans hx
  · rw [h']
    exact h
  cases hs.symm.trans hx
  rw [hx] at handed
  have notes := d.notes_take x
  have source := d.take_source x
  rw [h']
  obtain ⟨passed, item, rest, items, blank, -, look⟩ | ⟨blank, look⟩ :=
    Source.looks_next takes.unfinished
  · obtain ⟨past', hu', size, stones, later⟩ := handed.take count items blank
    rw [look] at source ⊢
    cases item with
    | chunk data =>
      refine ⟨past', ⟨⟨_, source, hu'⟩, ?_⟩, ?_⟩
      · rw [size]
        split
        · rfl
        · next none => exact later none
      · show (d.take x).2.writer.notes.reports ++ _ = _
        rw [notes, stones, List.map_append, reports, size]
        split <;> rfl
    | fault reason =>
      have arrived : .fault reason ∈ u.items := by
        rw [hu, items]
        simp
      exact .inr (.fault arrived)
    | pause =>
      have none : ¬ threshold ≤ x.bytesRead + Upload.Item.pause.size := by
        rw [due, nextReport_le_iff, ← count]
        exact Nat.lt_irrefl _
      refine ⟨past', ⟨⟨_, source, hu'⟩, size ▸ later none⟩, ?_⟩
      show (d.take x).2.writer.notes.reports = _
      rw [notes]
      rw [stones, if_neg none, List.append_nil, reports]
  · rw [look] at ready ⊢
    cases closed : x.upload.isClosed with
    | true =>
      refine ⟨takes.isClosed ▸ closed, ?_⟩
      show (d.take x).2.writer.notes.reports = _
      rw [notes, reports, hu, milestones_blank past blank]
    | false =>
      rw [closed] at ready
      exact absurd rfl ready

/-- **A move** of a build reports what belongs to its next phase. -/
theorem Phase.Reports.move {p : Phase} (token : Token) {o : BuildOptions}
    (h : p.Reports u d.source d.writer.notes faults (d.tokens.isCancelled token))
    (tells : p.Tells o u d.writer.notes faults (d.tokens.isCancelled token))
    (copies : p.Copies u d.store d.source)
    (heard : p.spools = true → ∀ reason, d.store.fault = some reason → reason ∈ faults) :
    p.Counts u faults (d.tokens.isCancelled token) (p.move token o d) := by
  cases p with
  | opening =>
    obtain ⟨x, hx, takes⟩ := copies
    obtain ⟨past, hu, -, none⟩ := takes.items
    have size : (Upload.bytes past).size = 0 := by rw [none]; rfl
    have stones : milestones past = [] := by
      refine List.eq_nil_of_length_eq_zero ?_
      have le := (length_milestones_le past).2
      rwa [size, Nat.zero_div, Nat.le_zero] at le
    unfold Phase.move
    refine counts_spool (heard rfl) ⟨past, ⟨⟨x, hx, hu⟩, by rw [size]; rfl⟩, ?_⟩
      fun _ failed => .inr (.failed failed)
    rw [stones]
    show List.filter isReport d.writer.notes.taken = []
    rw [show d.writer.notes.taken = [] from tells]
    rfl
  | receiving file threshold => exact counts_receive token file threshold h copies
  | writing file threshold data =>
    obtain ⟨past, handed, reports⟩ := h
    have total := handed.received copies
    unfold Phase.move
    refine counts_spool (heard rfl) ?_ fun _ failed => .inr (.failed failed)
    show (Phase.written file threshold (received d)).Reports u _ _ faults _
    unfold Phase.written
    rw [total]
    split
    · next due =>
      rw [if_pos due] at handed reports
      exact ⟨past, handed, reports⟩
    · next early =>
      rw [if_neg early] at handed reports
      rw [List.append_nil] at reports
      exact ⟨past, handed, reports⟩
  | reporting file threshold =>
    obtain ⟨past, handed, reports⟩ := id h
    have total := handed.received copies
    refine counts_offer h ⟨past, handed, ?_⟩ fun e n hn => .inr (.refused hn)
    rw [← reports, ← total]
    exact reports_add_report ..
  | flushing file =>
    unfold Phase.move
    exact counts_spool (heard rfl) h fun _ failed => .inr (.failed failed)
  | totalling file =>
    obtain ⟨closed, reports⟩ := id h
    obtain ⟨whole, counted⟩ := copies
    have total : received d = (Upload.bytes u.items).size :=
      whole.bytes ▸ received_of_bytesRead counted
    refine counts_offer h ⟨closed, ?_⟩ fun e n hn => .inr (.refused hn)
    rw [List.map_append, ← reports, ← total]
    exact reports_add_report ..
  | looking file =>
    have notes := d.notes_dropSource
    have told : Reported u d.dropSource.writer.notes := notes ▸ h
    rcases looking_cases token o file d with ⟨-, hl⟩ | ⟨-, -, hl⟩ | ⟨-, -, hl⟩ <;> rw [hl] <;>
      exact told
  | noting c =>
    refine counts_offer h ⟨Reported.isClosed h, ?_⟩ fun e n hn => .inr (.refused hn)
    rw [reports_add_line]
    exact Reported.reports h
  | inspecting c isKnown =>
    show Phase.Reports u d.source d.writer.notes faults _ (inspect token o c isKnown d)
    rcases inspect_fails_or_tells token o c isKnown d with ⟨e, hi⟩ | ⟨steps, id, hi⟩ <;> rw [hi]
    · exact .inl h
    · exact h
  | telling c isKnown steps id =>
    cases steps with
    | nil => exact .inl h
    | cons step rest =>
      cases step with
      | check =>
        show Phase.Reports u d.source d.writer.notes faults _ (if _ then _ else _)
        split
        · exact .inl h
        · exact h
      | line text =>
        refine counts_offer h ⟨Reported.isClosed h, ?_⟩ fun e n hn => .inr (.refused hn)
        rw [reports_add_line]
        exact Reported.reports h
  | concluding c isKnown result =>
    show Phase.Reports u d.source d.writer.notes faults _ (conclude o c isKnown result d.store).1
    rcases conclude_cases o c isKnown result d.store with
      ⟨-, hc⟩ | ⟨id, -, -, -, -, hc⟩ | ⟨id, -, -, -, -, hc⟩ <;> rw [hc] <;> exact h
  | discarding file result => exact h
  | leaving result => trivial

end Moves

/-! ## Watched receptions -/

/-- What a build has reported that is watched. -/
def Seat.Reports (seat : Seat (Noted τ)) (c : Cancellation) (v : Visit) : Prop :=
  match seat.job with
  | .arriving .. => True
  | .running token _ p =>
    ∀ u, v.upload = some u →
      p.Reports u seat.source seat.writer.notes v.faults (c.isCancelled token)

namespace Seat.Reports

variable {seat : Seat (Noted τ)} {c c' : Cancellation} {v : Visit}

theorem mono (h : seat.Reports c v)
    (later : ∀ t, c.isCancelled t = true → c'.isCancelled t = true) : seat.Reports c' v := by
  obtain ⟨job, source, writer⟩ := seat
  cases job with
  | arriving => trivial
  | running token o p => exact fun u hu => (h u hu).mono (fun _ mem => mem) (later token)

theorem feed (h : seat.Reports c v) (isOpen : v.isOpen = true) (items : List Upload.Item) :
    Seat.Reports { seat with source := seat.source.map (·.feed items) } c (v.feed items) := by
  obtain ⟨job, source, writer⟩ := seat
  cases job with
  | arriving => trivial
  | running token o p =>
    intro u hu
    obtain ⟨u, hv, rfl⟩ := Option.map_eq_some_iff.1 hu
    exact (h u hv).feed (by simpa [Visit.isOpen, hv] using isOpen) items

theorem close (h : seat.Reports c v) :
    Seat.Reports { seat with source := seat.source.map (·.close) } c v.close := by
  obtain ⟨job, source, writer⟩ := seat
  cases job with
  | arriving => trivial
  | running token o p =>
    intro u hu
    obtain ⟨u, hv, rfl⟩ := Option.map_eq_some_iff.1 hu
    exact (h u hv).close

theorem respond (h : seat.Reports c v) {sink : Noted τ}
    (same : sink.notes = seat.writer.sink.notes) :
    Seat.Reports { seat with writer := { seat.writer with sink } } c v := by
  obtain ⟨job, source, writer⟩ := seat
  have notes : Writer.notes { writer with sink } = writer.notes := writer.notes_respond same
  cases job with
  | arriving => trivial
  | running token o p => exact fun u hu => notes.symm ▸ h u hu

theorem suffer (h : seat.Reports c v) (fault : Option String) :
    seat.Reports c (v.suffer fault) := by
  obtain ⟨job, source, writer⟩ := seat
  cases job with
  | arriving => trivial
  | running token o p => exact fun u hu => (h u hu).mono (List.subset_append_left _ _) id

theorem move [Sink τ] {y : Floor (Noted τ)} (h : seat.Reports y.workshop.tokens v)
    (tells : seat.Tells y.workshop.tokens v) (copies : seat.Copies y.workshop.store v) :
    match seat.job.move (y.desk seat) with
    | (.go job, d) => Seat.Reports ⟨job, d.source, d.writer⟩ y.workshop.tokens
        (v.suffer (seat.job.fault? y.workshop.store))
    | (.wait, d) => Seat.Reports ⟨seat.job, d.source, d.writer⟩ y.workshop.tokens
        (v.suffer (seat.job.fault? y.workshop.store))
    | (.stop _, _) => True := by
  replace h := h.suffer (seat.job.fault? y.workshop.store)
  replace tells := tells.suffer (seat.job.fault? y.workshop.store)
  obtain ⟨job, source, writer⟩ := seat
  cases job with
  | arriving context o =>
    simp only [Job.move, arrive_eq, Floor.desk]
    split
    · next moved =>
      split at moved <;> cases moved
      exact fun u hu => trivial
    · next moved => split at moved <;> cases moved
    · trivial
  | running token o p =>
    obtain ⟨u, hu, copies⟩ := copies
    obtain ⟨u', hu', tells⟩ := tells
    cases hu.symm.trans hu'
    have counts := (h u hu).move (d := y.desk ⟨.running token o p, source, writer⟩) token tells
      copies fun spools _ => v.mem_suffer token o spools
    have only {P : Upload → Prop} (hP : P u) : ∀ u', v.upload = some u' → P u' :=
      fun u' hu' => Option.some.inj (hu.symm.trans hu') ▸ hP
    simp only [Job.move]
    rcases hp : p.move token o (y.desk ⟨.running token o p, source, writer⟩) with ⟨m, d⟩
    rw [hp] at counts
    cases m with
    | go q => exact only counts
    | wait => exact only counts
    | stop result => trivial

end Seat.Reports

section Runs

variable [Sink τ]

/-- What every build has reported that is at a reception. -/
def Reception.Reports (z : Reception (Noted τ)) : Prop :=
  ∀ (i : Nat) (seat : Seat (Noted τ)) (v : Visit), z.floor.seats[i]? = some seat →
    z.present[i]? = some v → seat.Reports z.tokens v

theorem Reception.Reports.step {z : Reception (Noted τ)} (h : z.Reports) (tells : z.Tells)
    (recorded : Recorded z) (e : ReceptionEvent τ) : (z.step (z.noting e)).Reports := by
  intro j seat v hs hv
  have comes := comes_step recorded.seated hs hv
  clear hs hv
  refine Seat.Reports.mono (c := z.tokens) ?_ fun t => isCancelled_step (z.noting e)
  cases comes with
  | arrive => trivial
  | stay hs hv => exact h _ _ _ hs hv
  | go hs hv he hm =>
    have moved := (h _ _ _ hs hv).move (tells _ _ _ hs hv) (recorded.copies _ _ _ hs hv)
    rwa [hm] at moved
  | wait hs hv he hm =>
    have moved := (h _ _ _ hs hv).move (tells _ _ _ hs hv) (recorded.copies _ _ _ hs hv)
    rwa [hm] at moved
  | feed hs hv he isOpen => exact (h _ _ _ hs hv).feed isOpen _
  | complete hs hv => exact (h _ _ _ hs hv).close
  | respond hs hv he => exact (h _ _ _ hs hv).respond (Reception.notes_of_noting he hs)

theorem reports_watch (events : List (ReceptionEvent τ)) : (Reception.watch events).Reports := by
  induction events using List.reverseRecOn with
  | nil => rintro i seat v ⟨⟩
  | append_singleton events e ih =>
    rw [Reception.watch_snoc]
    exact ih.step (tells_watch events) (Reception.recorded_watch events) e

/-- The reports of a build that nothing stood in the way of. -/
theorem reports_of_return {events : List (ReceptionEvent τ)} {i : Nat} {o : BuildOptions}
    {content : ByteArray} {x : Return} (h : (Reception.watch events).Returns i o content x) :
    x.notes.reports = (milestones x.upload.items ++ [content.size]).map report := by
  obtain ⟨seat, v, p, d, hs, hv, hu, hj, notes, faults, hm⟩ := Reception.return?_eq_some h.returns
  have leads := p.leads_move x.token x.options ((Reception.watch events).floor.desk seat)
  rw [hm] at leads
  obtain ⟨-, rfl, -⟩ := leads
  have reports := reports_watch events i seat v hs hv
  simp only [Seat.Reports, hj, notes, faults] at reports
  rcases reports _ hu with reported | hindered
  · rw [reported.reports, h.whole.bytes]
  · cases hindered with
    | canceled cancelled => exact absurd cancelled (by simp [h.going])
    | refused refused => exact absurd h.refused refused
    | fault fault => exact absurd fault (h.whole.clean _)
    | failed failed => exact absurd h.sound failed

theorem exists_rest {counts : List Nat} {content : ByteArray} {isKnown : Bool}
    {frames : List Frame}
    (taken : n.taken = counts.map report ++ (preamble content isKnown ++ frames))
    (h : ∀ f ∈ frames, isReport f = false) :
    ∃ rest, n.taken = n.reports ++ rest ∧ ∀ f ∈ rest, isReport f = false := by
  let note := if isKnown then [cachedNote content] else []
  have quiet : ∀ f ∈ note ++ frames, isReport f = false := by
    intro f hf
    rcases List.mem_append.1 hf with hf | hf
    · simp only [note] at hf
      split at hf
      · rw [List.mem_singleton.1 hf]
        exact isReport_line _
      · cases hf
    · exact h f hf
  have parts : n.taken = (counts ++ [content.size]).map report ++ (note ++ frames) := by
    rw [taken, List.map_append, preamble]
    simp [note]
  refine ⟨note ++ frames, ?_, quiet⟩
  have first : ((counts ++ [content.size]).map report).filter isReport =
      (counts ++ [content.size]).map report :=
    List.filter_eq_self.2 fun f hf => by
      obtain ⟨n, -, rfl⟩ := List.mem_map.1 hf
      exact isReport_report n
  have last : (note ++ frames).filter isReport = [] :=
    List.filter_eq_nil_iff.2 fun f hf => by simp [quiet f hf]
  rw [Notes.reports, parts, List.filter_append, first, last, List.append_nil]

/-- **How an upload is reported.** A build that nothing stood in the way of has told first
how much had arrived after each chunk with which another whole interval was reached, then
the size of the whole, and has reported nothing else. These totals grow, up to the last, and
are few, however the octets were cut into chunks. And a build returns like that whenever
nothing stands in its way, whatever its upload is. -/
theorem upload_reported (events : List (ReceptionEvent τ)) (o : BuildOptions)
    (content : ByteArray) :
    (∀ i x, (Reception.watch events).Returns i o content x →
      let totals := milestones x.upload.items
      (∃ rest, x.notes.taken = (totals ++ [content.size]).map report ++ rest ∧
        ∀ f ∈ rest, isReport f = false) ∧
      totals.Pairwise (· < ·) ∧ (∀ n ∈ totals, n ≤ content.size) ∧
      totals.length ≤ x.upload.items.countP (fun item => item.size ≠ 0) ∧
      (totals ++ [content.size]).length ≤ content.size / 1048576 + 1) ∧
    ∀ k u writer, (Reception.watch events).Admits k o u content writer →
      ∃ n x, (Reception.watchBuild events k o u writer n).Returns
        (Reception.watch events).present.length o content x ∧ x.upload = u := by
  refine ⟨fun i x h => ?_, fun k u writer admits => exists_return_of_admits events admits⟩
  obtain ⟨grow, le⟩ := pairwise_milestones x.upload.items
  obtain ⟨perChunk, perInterval⟩ := length_milestones_le x.upload.items
  rw [h.whole.bytes] at le perInterval
  refine ⟨?_, grow, le, perChunk, ?_⟩
  · rw [← reports_of_return h]
    obtain ⟨returns, -, whole, refused, sound, going⟩ := h
    have ended := ended_of_return returns
    rw [going, sound] at ended
    generalize x.result = result at ended
    cases ended with
    | canceled h => cases h
    | refused h => rw [refused] at h; cases h
    | fault h => exact absurd h (whole.clean _)
    | unwritten h | unread h => cases h
    | failed h told =>
      obtain ⟨counts, taken⟩ := told.taken
      rw [← List.append_nil (preamble ..)] at taken
      exact exists_rest taken fun f (hf : f ∈ []) => by cases hf
    | done h told =>
      obtain ⟨counts, taken⟩ := told.taken
      exact exists_rest taken fun f hf => (essential_of_mem_stepFrames h f hf).1
  · rw [List.length_append]
    exact Nat.add_le_add_right perInterval 1

end Runs

/-- A chunk of a whole interval, an empty one, one that reaches three intervals at once, and
one that reaches none. -/
theorem upload_reported_in_leaps :
    let octets (n : Nat) : ByteArray := ⟨Array.replicate n 0⟩
    let u : Upload := ⟨[.chunk (octets 1048576), .chunk .empty, .chunk (octets 3145733),
      .chunk (octets 100)], true⟩
    let writer : Writer Recorder := ⟨{}, none⟩
    ∃ n x rest, (Reception.watchBuild [.request .newest] 0 {} u writer n).Returns 0 {}
        (Upload.bytes u.items) x ∧
      x.notes.taken = [1048576, 4194309, 4194409].map report ++ rest ∧
      ∀ f ∈ rest, isReport f = false := by
  intro octets u writer
  have size (n : Nat) : (octets n).size = n := Array.size_replicate
  have whole : u.Whole (Upload.bytes u.items) := ⟨rfl, by simp [u], rfl⟩
  have total : (Upload.bytes u.items).size = 4194409 := by
    simp [u, Upload.bytes, size]
  have totals : milestones u.items = [1048576, 4194309] := by
    simp [milestones, u, Upload.arrivals, Upload.Item.size, size, reportInterval]
  have admits : (Reception.watch [.request .newest]).Admits 0 {} u (Upload.bytes u.items)
      writer := ⟨⟨_, rfl, rfl⟩, by rintro id ⟨⟩, whole, .recorder rfl, rfl⟩
  obtain ⟨n, x, returns, hu⟩ :=
    (upload_reported [.request .newest] {} (Upload.bytes u.items)).2 0 u writer admits
  obtain ⟨⟨rest, taken, others⟩, -⟩ := (upload_reported _ _ _).1 _ x returns
  rw [hu, totals, total] at taken
  exact ⟨n, x, rest, returns, taken, others⟩

end ContextEngine
end ImageBuild
