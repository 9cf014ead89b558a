import ImageBuild.Proofs.Upload

/-!
# What is read of an upload

A reader hands out the chunks that its source finds in pieces. It stands at a
place in what has arrived, between two items or within a chunk (`Stands`), and a
read goes on from there (`Stands.comes`). So its reads return the octets of the
chunks between the same faults, each once (`delivered_once`).
-/

namespace ImageBuild

open Upload (Event Item Taker bytes solid stream)

namespace Source
namespace Reader

def Read.item? : Read → Option Item
  | .octets data => some (.chunk data)
  | .fault reason => some (.fault reason)
  | .pending => none

instance : Taker Reader Nat (Nat × Read) where
  upload r := r.source.upload
  withUpload r u := { r with source := { r.source with upload := u } }
  ask r n := ((n, (r.read n).1), (r.read n).2)
  upload_withUpload _ _ := rfl
  withUpload_withUpload _ _ _ := rfl
  withUpload_upload _ := rfl

/-- What reads have handed out, the sizes asked for aside. -/
def handed (log : List (Nat × Read)) : List Item := log.filterMap (·.2.item?)

/-- Where a reader stands that has `current` in its hand and `left` before it, having handed out
`past` of what has arrived: between two items, or behind the `front` of a chunk. -/
inductive Stands (arrived : List Item) (past : List (UInt8 ⊕ String)) (left : List Item)
    (current : ByteArray) : Prop where
  | between (taken : List Item) (items : arrived = taken ++ left) (past_eq : past = stream taken)
      (none : current = .empty)
  | within (before : List Item) (front : ByteArray)
      (items : arrived = before ++ .chunk (front ++ current) :: left)
      (past_eq : past = stream (before ++ [.chunk front]))

namespace Stands

variable {arrived left : List Item} {past : List (UInt8 ⊕ String)} {current : ByteArray}

theorem order (h : Stands arrived past left current) :
    past ++ stream (.chunk current :: left) = stream arrived := by
  cases h with
  | between taken items past_eq none =>
    rw [items, past_eq, none, Upload.stream_append]
    rfl
  | within before front items past_eq =>
    rw [items, past_eq]
    simp [Upload.stream_append, stream]

theorem arrive (h : Stands arrived past left current) (more : List Item) :
    Stands (arrived ++ more) past (left ++ more) current := by
  cases h with
  | between taken items past_eq none =>
    exact .between taken (by rw [items, List.append_assoc]) past_eq none
  | within before front items past_eq =>
    exact .within before front (by rw [items, List.append_assoc, List.cons_append]) past_eq

theorem exists_taken (h : Stands arrived past left .empty) :
    ∃ taken, arrived = taken ++ left ∧ past = stream taken := by
  cases h with
  | between taken items past_eq => exact ⟨taken, items, past_eq⟩
  | within before front items past_eq =>
    refine ⟨before ++ [.chunk front], ?_, past_eq⟩
    rw [items, ByteArray.append_empty, List.append_assoc, List.singleton_append]

end Stands

/-- What a read comes to that asks for `n` octets, and not for none. -/
inductive Comes (arrived : List Item) (past : List (UInt8 ⊕ String)) (r : Reader) (n : Nat) :
    Read × Reader → Prop where
  /-- a piece of a chunk -/
  | piece (s : Source) (c : ByteArray) (before : List Item) (front : ByteArray) (full : c ≠ .empty)
      (items : arrived = before ++ .chunk (front ++ c) :: s.upload.items)
      (past_eq : past = stream (before ++ [.chunk front]))
      (isClosed : s.upload.isClosed = r.source.upload.isClosed)
      (unfinished : s.isFinished = false) :
      Comes arrived past r n (take ⟨s, c⟩ n)
  | fault (s : Source) (reason : String) (taken : List Item)
      (items : arrived = taken ++ s.upload.items) (past_eq : past ++ [.inr reason] = stream taken)
      (isClosed : s.upload.isClosed = r.source.upload.isClosed)
      (unfinished : s.isFinished = false) :
      Comes arrived past r n (.fault reason, ⟨s, .empty⟩)
  | pause (s : Source) (taken : List Item)
      (first : (solid r.source.upload.items).head? = some .pause)
      (items : arrived = taken ++ s.upload.items) (past_eq : past = stream taken)
      (isClosed : s.upload.isClosed = r.source.upload.isClosed)
      (unfinished : s.isFinished = false) :
      Comes arrived past r n (.pending, ⟨s, .empty⟩)
  /-- nothing, for ever if the upload is complete -/
  | nothing (s : Source) (none : solid r.source.upload.items = []) (items : s.upload.items = [])
      (past_eq : past = stream arrived)
      (isClosed : s.upload.isClosed = r.source.upload.isClosed)
      (finished : s.isFinished = r.source.upload.isClosed) :
      Comes arrived past r n
        (if r.source.upload.isClosed then .octets .empty else .pending, ⟨s, .empty⟩)

theorem read_zero (r : Reader) : r.read 0 = (.octets .empty, r) := rfl

/-- **A read** of something from a reader whose source has not come to its end. -/
theorem Stands.comes {arrived : List Item} {past : List (UInt8 ⊕ String)} {r : Reader} {n : Nat}
    (h : Stands arrived past r.source.upload.items r.current)
    (unfinished : r.source.isFinished = false) (pos : 0 < n) :
    Comes arrived past r n (r.read n) := by
  rw [read, if_neg (Nat.ne_of_gt pos)]
  by_cases none : r.current.isEmpty
  · rw [if_pos none]
    rw [show r.current = .empty from Upload.isBlank_chunk.1 none] at h
    obtain ⟨taken, items, past_eq⟩ := h.exists_taken
    obtain ⟨passed, x, rest, left, blank, full, look⟩ | ⟨blank, look⟩ := looks_next unfinished
    · have passes : stream (taken ++ passed) = stream taken := by
        rw [Upload.stream_append, Upload.stream_eq_nil blank, List.append_nil]
      rw [look]
      rw [left] at items
      cases x with
      | chunk data =>
        refine .piece _ data (taken ++ passed) .empty ?_ ?_ ?_ rfl rfl
        · intro empty
          rw [Upload.isBlank_chunk.2 empty] at full
          cases full
        · rw [items, List.append_assoc, ByteArray.empty_append]
        · rw [past_eq, Upload.stream_append, passes]
          simp [stream]
      | fault reason =>
        refine .fault _ reason (taken ++ passed ++ [.fault reason]) ?_ ?_ rfl rfl
        · simp [items]
        · rw [Upload.stream_append, passes, past_eq]
          rfl
      | pause =>
        refine .pause _ (taken ++ passed ++ [.pause]) ?_ ?_ ?_ rfl rfl
        · rw [left, Upload.solid_append, Upload.solid_eq_nil blank, Upload.solid_cons full]
          rfl
        · simp [items]
        · rw [Upload.stream_append, passes, past_eq]
          exact (List.append_nil _).symm
    · have all : past = stream arrived := by
        rw [items, Upload.stream_append, Upload.stream_eq_nil blank, List.append_nil, past_eq]
      rw [look]
      have comes : Comes arrived past r n _ :=
        .nothing ⟨⟨[], r.source.upload.isClosed⟩, r.source.bytesRead, r.source.upload.isClosed⟩
          (Upload.solid_eq_nil blank) rfl all rfl rfl
      cases closed : r.source.upload.isClosed <;> simpa [closed] using comes
  · rw [if_neg none]
    cases h with
    | between _ _ _ empty => exact absurd (Upload.isBlank_chunk.2 empty) none
    | within before front items past_eq =>
      exact .piece r.source r.current before front
        (fun empty => none (Upload.isBlank_chunk.2 empty)) items past_eq rfl unfinished

theorem extract_append_rest (c : ByteArray) (n : Nat) :
    c.extract 0 n ++ c.extract n c.size = c := by
  rw [ByteArray.extract_append_extract, Nat.zero_min, ByteArray.extract_zero_max_size]

namespace Comes

variable {arrived : List Item} {past : List (UInt8 ⊕ String)} {r : Reader} {n : Nat}
  {result : Read × Reader}

theorem isClosed (h : Comes arrived past r n result) :
    result.2.source.upload.isClosed = r.source.upload.isClosed := by
  cases h <;> assumption

theorem stands (h : Comes arrived past r n result) :
    Stands arrived (past ++ stream result.1.item?.toList) result.2.source.upload.items
      result.2.current := by
  cases h with
  | piece s c before front full items past_eq =>
    refine .within before (front ++ c.extract 0 n) ?_ ?_
    · rw [items, ByteArray.append_assoc]
      exact congrArg (fun c => before ++ .chunk (front ++ c) :: _) (extract_append_rest c n).symm
    · simp [past_eq, Upload.stream_append, take, Read.item?, stream]
  | fault s reason taken items past_eq => exact .between taken items past_eq rfl
  | pause s taken first items past_eq =>
    exact .between taken items ((List.append_nil _).trans past_eq) rfl
  | nothing s none items past_eq =>
    refine .between arrived (by rw [items, List.append_nil]) ?_ rfl
    rw [past_eq]
    split <;> exact List.append_nil _

theorem finished (h : Comes arrived past r n result) (hf : result.2.source.isFinished) :
    r.source.upload.isClosed ∧ past = stream arrived ∧ result.1 = .octets .empty ∧
      result.2.current = .empty := by
  cases h with
  | piece _ _ _ _ _ _ _ _ unfinished | fault _ _ _ _ _ _ unfinished
  | pause _ _ _ _ _ _ unfinished => exact absurd hf (Bool.eq_false_iff.1 unfinished)
  | nothing s none items past_eq _ finished =>
    have closed : r.source.upload.isClosed := finished ▸ hf
    exact ⟨closed, past_eq, if_pos closed, rfl⟩

theorem isFinished (h : Comes arrived past r n result) (pos : 0 < n)
    (none : result.1 = .octets .empty) : result.2.source.isFinished := by
  cases h with
  | piece s c _ _ full =>
    have size : (c.extract 0 n).size = 0 :=
      ByteArray.size_eq_zero_iff.2 (Read.octets.inj none)
    rw [ByteArray.size_extract] at size
    have : c.size ≠ 0 := fun h => full (ByteArray.size_eq_zero_iff.1 h)
    omega
  | fault | pause => cases none
  | nothing s _ _ _ _ finished =>
    rw [finished]
    split at none
    · assumption
    · cases none

end Comes

theorem read_of_isFinished {r : Reader} (h : r.source.isFinished) (none : r.current = .empty)
    (n : Nat) : r.read n = (.octets .empty, r) := by
  obtain ⟨s, current⟩ := r
  subst none
  cases n with
  | zero => exact read_zero _
  | succ n =>
    rw [read, if_neg n.succ_ne_zero, if_pos (show ByteArray.empty.isEmpty from rfl),
      next_of_isFinished h]

/-- How a reader stands that was made from the source `s`. -/
structure Accounts (s : Source) (past : List (Event Nat)) (log : List (Nat × Read))
    (r : Reader) : Prop where
  stands : Stands (s.upload.receive past).items (stream (handed log)) r.source.upload.items
    r.current
  isClosed : r.source.upload.isClosed = (s.upload.receive past).isClosed
  idle : r.source.isFinished → r.current = .empty
  /-- only the end of the source makes a read of something find nothing -/
  ends : ∀ n, 0 < n → (n, .octets .empty) ∈ log → r.source.isFinished
  /-- and it comes after everything else -/
  ended : r.source.isFinished →
    s.isFinished ∨ s.upload.WasAll past fun items => stream (handed log) = stream items

namespace Accounts

variable {s : Source} {past : List (Event Nat)} {log : List (Nat × Read)} {r : Reader}

theorem start (s : Source) : Accounts s [] [] ⟨s, .empty⟩ :=
  ⟨.between [] rfl rfl rfl, rfl, fun _ => rfl, by simp, .inl⟩

theorem handed_snoc (log : List (Nat × Read)) (n : Nat) (x : Read) :
    handed (log ++ [(n, x)]) = handed log ++ x.item?.toList := by
  cases h : x.item? <;> simp [handed, h]

theorem stream_handed_snoc (log : List (Nat × Read)) (n : Nat) (x : Read) :
    stream (handed (log ++ [(n, x)])) = stream (handed log) ++ stream x.item?.toList := by
  rw [handed_snoc, Upload.stream_append]

theorem stream_handed_nothing (log : List (Nat × Read)) (n : Nat) :
    stream (handed (log ++ [(n, .octets .empty)])) = stream (handed log) :=
  (stream_handed_snoc _ _ _).trans (List.append_nil _)

/-- A read that does not look at the source. -/
theorem nothing (h : Accounts s past log r) {n : Nat} (ends : 0 < n → r.source.isFinished) :
    Accounts s (past ++ [.ask n]) (log ++ [(n, .octets .empty)]) r := by
  refine ⟨?_, ?_, h.idle, fun m pos mem => ?_, fun finished => ?_⟩
  · rw [Upload.receive_ask, stream_handed_nothing]
    exact h.stands
  · rw [Upload.receive_ask, h.isClosed]
  · rw [List.mem_append, List.mem_singleton] at mem
    rcases mem with mem | now
    · exact h.ends m pos mem
    · exact ends ((Prod.mk.inj now).1 ▸ pos)
  · rw [stream_handed_nothing]
    exact (h.ended finished).imp_right (·.snoc _)

theorem ask (h : Accounts s past log r) (n : Nat) :
    Accounts s (past ++ [.ask n]) (log ++ [(n, (r.read n).1)]) (r.read n).2 := by
  by_cases finished : r.source.isFinished
  · rw [read_of_isFinished finished (h.idle finished)]
    exact h.nothing fun _ => finished
  rcases n.eq_zero_or_pos with rfl | pos
  · rw [read_zero]
    exact h.nothing fun pos => absurd pos (Nat.lt_irrefl 0)
  · have comes := h.stands.comes (Bool.eq_false_iff.2 finished) pos
    refine ⟨?_, ?_, fun hf => (comes.finished hf).2.2.2, fun m pos mem => ?_, fun hf => .inr ?_⟩
    · rw [Upload.receive_ask, stream_handed_snoc]
      exact comes.stands
    · rw [Upload.receive_ask, comes.isClosed, h.isClosed]
    · rw [List.mem_append, List.mem_singleton] at mem
      rcases mem with mem | now
      · exact absurd (h.ends m pos mem) finished
      · obtain ⟨rfl, now⟩ := Prod.mk.inj now
        exact comes.isFinished pos now.symm
    · obtain ⟨closed, all, empty, -⟩ := comes.finished hf
      rw [empty, stream_handed_nothing]
      exact (Upload.WasAll.now (h.isClosed ▸ closed) all).snoc _

theorem step (h : Accounts s past log r) (e : Event Nat) :
    Accounts s (past ++ [e]) (log ++ (Taker.step r e).1) (Taker.step r e).2 := by
  have later (hf : r.source.isFinished) := (h.ended hf).imp_right fun all => all.snoc e
  cases e with
  | ask n => exact h.ask n
  | arrive items =>
    rw [Taker.step, List.append_nil]
    refine ⟨?_, ?_, h.idle, h.ends, later⟩
    · rw [Upload.receive_snoc]
      exact h.stands.arrive items
    · rw [Upload.receive_snoc]
      exact h.isClosed
  | complete =>
    rw [Taker.step, List.append_nil]
    refine ⟨?_, ?_, h.idle, h.ends, later⟩
    · rw [Upload.receive_snoc]
      exact h.stands
    · rw [Upload.receive_snoc]
      rfl

end Accounts

/-- What the reads of a reader say of the upload of the source it was made from, after any
events. -/
structure Delivers (s : Source) (past : List (Event Nat)) (log : List (Nat × Read))
    (r : Reader) : Prop extends Accounts s past log r where
  size_le : ∀ n data, (n, .octets data) ∈ log → data.size ≤ n
  /-- what a read returns is a piece of one chunk, at the place that was reached -/
  piece : ∀ before n data after, log = before ++ (n, .octets data) :: after → data ≠ .empty →
    ∃ earlier front rest later,
      (s.upload.receive past).items = earlier ++ .chunk (front ++ (data ++ rest)) :: later ∧
      stream (handed before) = stream (earlier ++ [.chunk front])
  /-- what is returned between two faults are the octets of the chunks between them -/
  between : ∀ before n reason middle n' reason' after,
    log = before ++ (n, .fault reason) :: (middle ++ (n', .fault reason') :: after) →
    (∀ other, .fault other ∉ handed middle) →
    ∃ earlier chunks later,
      (s.upload.receive past).items =
        earlier ++ .fault reason :: (chunks ++ .fault reason' :: later) ∧
      stream (handed before) = stream earlier ∧
      (∀ other, .fault other ∉ chunks) ∧ bytes (handed middle) = bytes chunks
  /-- the next read is put off only by a pause, or when there is nothing yet -/
  waits : ∀ n, (r.read n).1 = .pending →
    (solid r.source.upload.items).head? = some .pause ∨
    solid r.source.upload.items = [] ∧ r.source.upload.isClosed = false
  /-- after the end reads find nothing, and nothing is taken any more -/
  still : r.source.isFinished → ∀ later : List (Event Nat),
    (∀ x ∈ (Taker.run r later).1, x.2 = .octets .empty) ∧
    (Taker.run r later).2 = { r with source.upload := r.source.upload.receive later }

theorem Accounts.run (s : Source) (past : List (Event Nat)) :
    Accounts s past (Taker.run (⟨s, .empty⟩ : Reader) past).1
      (Taker.run (⟨s, .empty⟩ : Reader) past).2 := by
  have keeps {past log} {r : Reader} (e : Event Nat) (h : Accounts s past log r) := h.step e
  simpa using Taker.run_keeps keeps past (Accounts.start s)

theorem Accounts.exists_read {s : Source} {past : List (Event Nat)} {before after}
    {n : Nat} {x : Read}
    (h : (Taker.run (⟨s, .empty⟩ : Reader) past).1 = before ++ (n, x) :: after) :
    ∃ pre post r, past = pre ++ post ∧ Accounts s pre before r ∧ (r.read n).1 = x := by
  obtain ⟨pre, request, post, rfl, rfl, answer⟩ := Taker.exists_ask past h
  obtain ⟨rfl, found⟩ := Prod.mk.inj answer
  exact ⟨pre, _, _, rfl, Accounts.run s pre, found⟩

theorem size_read_le (r : Reader) (n : Nat) (data : ByteArray)
    (h : (r.read n).1 = .octets data) : data.size ≤ n := by
  have size (r : Reader) (h : (r.take n).1 = .octets data) : data.size ≤ n := by
    have : (r.current.extract 0 n).size ≤ n := by
      rw [ByteArray.size_extract]
      omega
    exact Read.octets.inj h ▸ this
  unfold read at h
  split at h
  · cases h
    exact Nat.zero_le _
  split at h
  · split at h
    · exact size _ h
    · cases h
    · cases h
      exact Nat.zero_le _
    · cases h
    · cases h
  · exact size _ h

namespace Accounts

variable {s : Source} {past : List (Event Nat)} {log : List (Nat × Read)} {r : Reader}

theorem comes (h : Accounts s past log r) {n : Nat} (full : (r.read n).1 ≠ .octets .empty) :
    Comes (s.upload.receive past).items (stream (handed log)) r n (r.read n) := by
  refine h.stands.comes (Bool.eq_false_iff.2 fun finished => full ?_)
    (Nat.pos_of_ne_zero fun zero => full ?_)
  · rw [read_of_isFinished finished (h.idle finished)]
  · rw [zero, read_zero]

theorem piece (h : Accounts s past log r) {n : Nat} {data : ByteArray}
    (answer : (r.read n).1 = .octets data) (full : data ≠ .empty) :
    ∃ earlier front rest later,
      (s.upload.receive past).items = earlier ++ .chunk (front ++ (data ++ rest)) :: later ∧
      stream (handed log) = stream (earlier ++ [.chunk front]) := by
  have comes := h.comes fun empty => full (Read.octets.inj (answer.symm.trans empty))
  generalize r.read n = result at comes answer
  cases comes with
  | piece t c earlier front _ items past_eq =>
    have here : c.extract 0 n = data := Read.octets.inj answer
    refine ⟨earlier, front, c.extract n c.size, t.upload.items, ?_, past_eq⟩
    rw [← here, extract_append_rest, items]
  | fault | pause => cases answer
  | nothing =>
    split at answer
    · exact absurd (Read.octets.inj answer).symm full
    · cases answer

theorem between (h : Accounts s past log r) {before middle after : List (Nat × Read)} {n n' : Nat}
    {reason reason' : String}
    (hlog : log = before ++ (n, .fault reason) :: (middle ++ (n', .fault reason') :: after))
    (none : ∀ other, .fault other ∉ handed middle) :
    ∃ earlier chunks later,
      (s.upload.receive past).items =
        earlier ++ .fault reason :: (chunks ++ .fault reason' :: later) ∧
      stream (handed before) = stream earlier ∧
      (∀ other, .fault other ∉ chunks) ∧ bytes (handed middle) = bytes chunks := by
  have order := h.stands.order
  have split : stream (handed log) = stream (handed before) ++ .inr reason ::
      (stream (handed middle) ++ .inr reason' :: stream (handed after)) := by
    rw [hlog]
    simp [handed, Upload.stream_append, Read.item?, stream]
  rw [split, List.append_assoc, List.cons_append, List.append_assoc, List.cons_append] at order
  obtain ⟨earlier, rest, items, before_eq, rest_eq⟩ := Upload.exists_of_stream_eq order.symm
  obtain ⟨chunks, later, rfl, middle_eq, -⟩ := Upload.exists_of_stream_eq rest_eq
  refine ⟨earlier, chunks, later, items, before_eq.symm, fun other mem => none other ?_, ?_⟩
  · rw [← Upload.inr_mem_stream] at mem ⊢
    exact middle_eq ▸ mem
  · exact Upload.bytes_eq_of_stream_eq middle_eq.symm

theorem waits (h : Accounts s past log r) {n : Nat} (pending : (r.read n).1 = .pending) :
    (solid r.source.upload.items).head? = some .pause ∨
    solid r.source.upload.items = [] ∧ r.source.upload.isClosed = false := by
  have full : (r.read n).1 ≠ .octets .empty := by simp [pending]
  have comes := h.comes full
  generalize r.read n = result at comes pending
  cases comes with
  | piece | fault => cases pending
  | pause _ _ first => exact .inl first
  | nothing _ none =>
    refine .inr ⟨none, Bool.eq_false_iff.2 fun closed => ?_⟩
    rw [if_pos closed] at pending
    cases pending

theorem still (h : Accounts s past log r) (finished : r.source.isFinished)
    (later : List (Event Nat)) :
    (∀ x ∈ (Taker.run r later).1, x.2 = .octets .empty) ∧
    (Taker.run r later).2 = { r with source.upload := r.source.upload.receive later } := by
  have ask {r : Reader} (n : Nat) (h : r.source.isFinished ∧ r.current = .empty) :
      Taker.ask r n = ((n, .octets .empty), r) := by
    change ((n, (r.read n).1), (r.read n).2) = _
    rw [read_of_isFinished h.1 h.2]
  obtain ⟨answers, last⟩ := Taker.run_still ask (fun _ h => h) later ⟨finished, h.idle finished⟩
  refine ⟨fun x hx => ?_, last⟩
  obtain ⟨n, rfl⟩ := answers x hx
  rfl

end Accounts

theorem delivers (s : Source) (past : List (Event Nat)) :
    Delivers s past (Taker.run (⟨s, .empty⟩ : Reader) past).1
      (Taker.run (⟨s, .empty⟩ : Reader) past).2 where
  toAccounts := Accounts.run s past
  size_le := by
    intro n data mem
    obtain ⟨before, after, h⟩ := List.append_of_mem mem
    obtain ⟨pre, post, r, -, -, answer⟩ := Accounts.exists_read h
    exact size_read_le r n data answer
  piece := by
    intro before n data after h full
    obtain ⟨pre, post, r, rfl, accounts, answer⟩ := Accounts.exists_read h
    obtain ⟨earlier, front, rest, later, items, place⟩ := accounts.piece answer full
    obtain ⟨more, arrived⟩ := Upload.exists_arrived post
    refine ⟨earlier, front, rest, later ++ more, ?_, place⟩
    rw [Upload.receive_append, arrived, items, List.append_assoc, List.cons_append]
  between := fun _ _ _ _ _ _ _ h none => (Accounts.run s past).between h none
  waits := fun _ pending => (Accounts.run s past).waits pending
  still := (Accounts.run s past).still

end Reader
end Source

/-- **An upload is delivered once.** Whatever arrives of it and whenever it is asked, a source
hands out the items that are no empty chunks, in their order, and counts their octets; and a reader
that is made from it hands out the octets of what the source has left, each once and in its place
among the faults. -/
theorem Upload.delivered_once (u : Upload) (polls : List (Event Unit)) (reads : List (Event Nat)) :
    let (answers, s) := Taker.run (⟨u, 0, false⟩ : Source) polls
    let (log, r) := Taker.run (⟨s, .empty⟩ : Source.Reader) reads
    s.Delivers u polls answers ∧ Source.Reader.Delivers s reads log r ∧
      stream (Source.found answers) ++ stream (Source.Reader.handed log) ++
          stream (.chunk r.current :: r.source.upload.items) =
        stream ((u.receive polls).receive reads).items := by
  have source := Source.Accounts.run u polls
  generalize Taker.run (⟨u, 0, false⟩ : Source) polls = polled at source ⊢
  obtain ⟨answers, s⟩ := polled
  have reader := Source.Reader.delivers s reads
  refine ⟨source.delivers, reader, ?_⟩
  obtain ⟨more, arrived⟩ := exists_arrived reads
  calc
    _ = stream (Source.found answers) ++ stream (s.upload.receive reads).items := by
      rw [List.append_assoc]
      exact congrArg _ reader.stands.order
    _ = stream (Source.found answers ++ solid s.upload.items) ++ stream more := by
      rw [arrived, stream_append, stream_append, stream_solid, List.append_assoc]
    _ = stream ((u.receive polls).receive reads).items := by
      rw [source.order, stream_solid, arrived, stream_append]

/-- A read of nothing, two pieces of a chunk, the fault after it, nothing yet, a pause, a chunk and
the end; what arrives later is not looked at. -/
example :
    (Taker.run (⟨⟨⟨[.chunk ⟨#[1, 2, 3]⟩, .fault "reset", .chunk .empty], false⟩, 0, false⟩,
        .empty⟩ : Source.Reader)
      [.ask 0, .ask 2, .ask 2, .ask 2, .ask 2, .arrive [.pause, .chunk ⟨#[4]⟩], .complete, .ask 9,
        .ask 9, .ask 9, .arrive [.chunk ⟨#[5]⟩], .ask 9]).1 =
      [(0, .octets .empty), (2, .octets ⟨#[1, 2]⟩), (2, .octets ⟨#[3]⟩), (2, .fault "reset"),
        (2, .pending), (9, .pending), (9, .octets ⟨#[4]⟩), (9, .octets .empty),
        (9, .octets .empty)] := by
  decide

end ImageBuild
