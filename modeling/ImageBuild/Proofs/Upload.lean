import ImageBuild.Upload

/-!
# What is polled of an upload

Whoever takes from an upload is asked again and again while more of the upload
arrives (`Taker.run`). The answers of a source are the items in the order in which
they arrived, all but the empty chunks: what was found and what is still there is
at all times what has arrived (`Source.Accounts`).
-/

namespace ImageBuild

namespace Upload

/-! ## Items and their octets -/

/-- The octets of the chunks among items, in order. -/
def bytes : List Item → ByteArray
  | [] => .empty
  | .chunk data :: rest => data ++ bytes rest
  | _ :: rest => bytes rest

theorem bytes_append (xs ys : List Item) : bytes (xs ++ ys) = bytes xs ++ bytes ys := by
  induction xs with
  | nil => exact ByteArray.empty_append.symm
  | cons x xs ih => cases x <;> simp [bytes, ih, ByteArray.append_assoc]

/-- The items that a source hands out: all but the empty chunks. -/
def solid (items : List Item) : List Item := items.filter (!·.isBlank)

/-- The octets of items one by one, and the faults between them. -/
def stream : List Item → List (UInt8 ⊕ String)
  | [] => []
  | .chunk data :: rest => data.data.toList.map .inl ++ stream rest
  | .fault reason :: rest => .inr reason :: stream rest
  | .pause :: rest => stream rest

theorem isBlank_chunk {data : ByteArray} : (Item.chunk data).isBlank ↔ data = .empty := by
  rw [← ByteArray.size_eq_zero_iff]
  exact beq_iff_eq

theorem solid_append (xs ys : List Item) : solid (xs ++ ys) = solid xs ++ solid ys :=
  List.filter_append ..

theorem solid_cons {x : Item} (h : x.isBlank = false) (xs : List Item) :
    solid (x :: xs) = x :: solid xs :=
  List.filter_cons_of_pos (by rw [h]; rfl)

theorem solid_eq_nil {xs : List Item} (h : ∀ x ∈ xs, x.isBlank) : solid xs = [] :=
  List.filter_eq_nil_iff.2 fun x hx => by simp [h x hx]

theorem stream_append (xs ys : List Item) : stream (xs ++ ys) = stream xs ++ stream ys := by
  induction xs with
  | nil => rfl
  | cons x xs ih => cases x <;> simp [stream, ih]

theorem stream_solid (xs : List Item) : stream (solid xs) = stream xs := by
  induction xs with
  | nil => rfl
  | cons x xs ih =>
    by_cases blank : x.isBlank
    · cases x with
      | chunk data =>
        have none : data = .empty := isBlank_chunk.1 blank
        have : solid (.chunk data :: xs) = solid xs := List.filter_cons_of_neg (by simp [blank])
        rw [this, ih, none]
        rfl
      | fault | pause => cases blank
    · rw [solid_cons (Bool.eq_false_iff.2 blank)]
      cases x <;> simp [stream, ih]

theorem stream_eq_nil {xs : List Item} (h : ∀ x ∈ xs, x.isBlank) : stream xs = [] := by
  rw [← stream_solid, solid_eq_nil h]
  rfl

theorem inr_mem_stream {reason : String} {xs : List Item} :
    .inr reason ∈ stream xs ↔ .fault reason ∈ xs := by
  induction xs with
  | nil => simp [stream]
  | cons x xs ih => cases x <;> simp [stream, ih]

theorem toList_bytes (xs : List Item) :
    (bytes xs).data.toList = (stream xs).filterMap Sum.getLeft? := by
  induction xs with
  | nil => rfl
  | cons x xs ih =>
    cases x with
    | chunk data =>
      have octets : (data.data.toList.map Sum.inl : List (UInt8 ⊕ String)).filterMap
          Sum.getLeft? = data.data.toList := by
        simp [List.filterMap_map, Function.comp_def]
      rw [bytes, stream, List.filterMap_append, octets, ← ih, ByteArray.data_append,
        Array.toList_append]
    | fault | pause => exact ih

theorem bytes_eq_of_stream_eq {xs ys : List Item} (h : stream xs = stream ys) :
    bytes xs = bytes ys := by
  apply ByteArray.ext
  apply Array.toList_inj.1
  rw [toList_bytes, toList_bytes, h]

theorem bytes_eq_empty {xs : List Item} (h : ∀ x ∈ xs, x.isBlank) : bytes xs = .empty :=
  bytes_eq_of_stream_eq (show stream xs = stream [] from stream_eq_nil h)

/-- **A fault in a stream** is that of an item, and what is before and after it comes from the
items before and after. -/
theorem exists_of_stream_eq {reason : String} {after : List (UInt8 ⊕ String)} {xs : List Item} :
    ∀ {before}, stream xs = before ++ .inr reason :: after →
      ∃ as bs, xs = as ++ .fault reason :: bs ∧ stream as = before ∧ stream bs = after := by
  induction xs with
  | nil =>
    intro before h
    simp [stream] at h
  | cons x xs ih =>
    intro before h
    cases x with
    | chunk data =>
      obtain ⟨more, rfl, rest⟩ | ⟨more, octets, rest⟩ := List.append_eq_append_iff.1 h
      · obtain ⟨as, bs, rfl, rfl, hb⟩ := ih rest
        exact ⟨.chunk data :: as, bs, rfl, rfl, hb⟩
      · cases more with
        | nil =>
          obtain ⟨as, bs, rfl, ha, hb⟩ := ih (show stream xs = [] ++ _ from rest.symm)
          refine ⟨.chunk data :: as, bs, rfl, ?_, hb⟩
          rw [stream, ha, octets, List.append_nil, List.append_nil]
        | cons y more =>
          -- an octet is no fault
          have : .inr reason ∈ data.data.toList.map (Sum.inl : UInt8 → UInt8 ⊕ String) := by
            cases rest
            simp [octets]
          simp at this
    | fault other =>
      cases before with
      | nil =>
        cases h
        exact ⟨[], xs, rfl, rfl, rfl⟩
      | cons y before =>
        obtain ⟨rfl, rest⟩ := List.cons.inj h
        obtain ⟨as, bs, rfl, rfl, hb⟩ := ih rest
        exact ⟨.fault other :: as, bs, rfl, rfl, hb⟩
    | pause =>
      obtain ⟨as, bs, rfl, ha, hb⟩ := ih h
      exact ⟨.pause :: as, bs, rfl, ha, hb⟩

/-! ## Whoever takes from an upload -/

/-- What happens around whoever takes from an upload. One that never ends is one that never becomes
complete; and things may arrive after it is complete, which nobody is to look at any more. -/
inductive Event (α : Type) where
  | ask (request : α)
  | arrive (items : List Item)
  | complete

section Receive

variable {α : Type}

/-- What an event makes of an upload from which nothing is taken. -/
def hear (u : Upload) : Event α → Upload
  | .ask _ => u
  | .arrive items => u.feed items
  | .complete => u.close

/-- What has arrived of an upload after some events. -/
def receive (u : Upload) (events : List (Event α)) : Upload := events.foldl hear u

theorem receive_snoc (u : Upload) (events : List (Event α)) (e : Event α) :
    u.receive (events ++ [e]) = (u.receive events).hear e :=
  List.foldl_append ..

theorem receive_ask (u : Upload) (events : List (Event α)) (request : α) :
    u.receive (events ++ [.ask request]) = u.receive events :=
  receive_snoc ..

theorem receive_append (u : Upload) (xs ys : List (Event α)) :
    u.receive (xs ++ ys) = (u.receive xs).receive ys :=
  List.foldl_append ..

theorem exists_arrived (events : List (Event α)) :
    ∃ more, ∀ u : Upload, (u.receive events).items = u.items ++ more := by
  induction events with
  | nil => exact ⟨[], fun u => (List.append_nil _).symm⟩
  | cons e events ih =>
    obtain ⟨more, ih⟩ := ih
    cases e with
    | ask | complete => exact ⟨more, fun u => ih _⟩
    | arrive items =>
      refine ⟨items ++ more, fun u => (ih _).trans ?_⟩
      simp [hear, feed]

end Receive

/-- Whoever takes from an upload, and only when it is asked. -/
class Taker (σ : Type) (α β : outParam Type) where
  upload : σ → Upload
  withUpload : σ → Upload → σ
  ask : σ → α → β × σ
  upload_withUpload : ∀ s u, upload (withUpload s u) = u
  withUpload_withUpload : ∀ s u v, withUpload (withUpload s u) v = withUpload s v
  withUpload_upload : ∀ s, withUpload s (upload s) = s

namespace Taker

variable {σ α β : Type} [Taker σ α β]

/-- What an event makes of a taker, and its answer if it is asked. -/
def step (s : σ) : Event α → List β × σ
  | .ask request => ([(ask s request).1], (ask s request).2)
  | .arrive items => ([], withUpload s ((upload s).feed items))
  | .complete => ([], withUpload s (upload s).close)

/-- The answers to what is asked among events, and what is left in the end. -/
def run (s : σ) : List (Event α) → List β × σ
  | [] => ([], s)
  | e :: rest => ((step s e).1 ++ (run (step s e).2 rest).1, (run (step s e).2 rest).2)

/-- **A run keeps** what each of its steps keeps. -/
theorem run_keeps {I : List (Event α) → List β → σ → Prop}
    (keeps : ∀ {past log s} e, I past log s → I (past ++ [e]) (log ++ (step s e).1) (step s e).2)
    (events : List (Event α)) : ∀ {past log s}, I past log s →
      I (past ++ events) (log ++ (run s events).1) (run s events).2 := by
  induction events with
  | nil =>
    intro past log s h
    simpa [run] using h
  | cons e rest ih =>
    intro past log s h
    simpa [run] using ih (keeps e h)

theorem exists_ask {b : β} {after : List β} (events : List (Event α)) :
    ∀ {s : σ} {before : List β}, (run s events).1 = before ++ b :: after →
      ∃ pre request post, events = pre ++ .ask request :: post ∧ (run s pre).1 = before ∧
        (ask (run s pre).2 request).1 = b := by
  induction events with
  | nil =>
    intro s before h
    simp [run] at h
  | cons e rest ih =>
    have later {s : σ} {before : List β} (h : (run (step s e).2 rest).1 = before ++ b :: after) :
        ∃ pre request post, e :: rest = pre ++ .ask request :: post ∧
          (run s pre).1 = (step s e).1 ++ before ∧ (ask (run s pre).2 request).1 = b := by
      obtain ⟨pre, request, post, rfl, hb, ha⟩ := ih h
      exact ⟨e :: pre, request, post, rfl, by rw [run, hb], ha⟩
    intro s before h
    cases e with
    | ask request =>
      cases before with
      | nil => exact ⟨[], request, rest, rfl, rfl, (List.cons.inj h).1⟩
      | cons c before =>
        obtain ⟨rfl, h'⟩ := List.cons.inj h
        exact later h'
    | arrive | complete => exact later h

/-- **A taker at its end** gives the same answers for ever, and nothing is taken any more. -/
theorem run_still {P : σ → Prop} {answer : α → β}
    (still : ∀ {s} request, P s → ask s request = (answer request, s))
    (told : ∀ {s} u, P s → P (withUpload s u)) (events : List (Event α)) : ∀ {s : σ}, P s →
      (∀ b ∈ (run s events).1, ∃ request, b = answer request) ∧
      (run s events).2 = withUpload s ((upload s).receive events) := by
  induction events with
  | nil =>
    intro s _
    exact ⟨by simp [run], (withUpload_upload s).symm⟩
  | cons e rest ih =>
    intro s h
    have hears (h' : step s e = ([], withUpload s ((upload s).hear e))) :
        (∀ b ∈ (run s (e :: rest)).1, ∃ request, b = answer request) ∧
        (run s (e :: rest)).2 = withUpload s ((upload s).receive (e :: rest)) := by
      simp only [run, h', List.nil_append]
      obtain ⟨answers, last⟩ := ih (told ((upload s).hear e) h)
      rw [upload_withUpload, withUpload_withUpload] at last
      exact ⟨answers, last⟩
    cases e with
    | ask request =>
      obtain ⟨answers, last⟩ := ih h
      simp only [run, step, still request h, List.singleton_append, List.forall_mem_cons]
      exact ⟨⟨⟨request, rfl⟩, answers⟩, last⟩
    | arrive | complete => exact hears rfl

end Taker

/-- `P` holds of all that had arrived at some moment at which the upload was complete. -/
def WasAll {α : Type} (u : Upload) (past : List (Event α)) (P : List Item → Prop) : Prop :=
  ∃ pre post, past = pre ++ post ∧ (u.receive pre).isClosed ∧ P (u.receive pre).items

section WasAll

variable {α : Type} {u : Upload} {past : List (Event α)} {P : List Item → Prop}

theorem WasAll.snoc (h : u.WasAll past P) (e : Event α) : u.WasAll (past ++ [e]) P := by
  obtain ⟨pre, post, rfl, closed, all⟩ := h
  exact ⟨pre, post ++ [e], List.append_assoc .., closed, all⟩

theorem WasAll.now (closed : (u.receive past).isClosed) (h : P (u.receive past).items) :
    u.WasAll past P :=
  ⟨past, [], (List.append_nil _).symm, closed, h⟩

end WasAll
end Upload

open Upload (Event Item Taker bytes solid stream)

/-! ## Polls of a source -/

def Polled.item? : Polled → Option Item
  | .chunk data => some (.chunk data)
  | .fault reason => some (.fault reason)
  | .paused => some .pause
  | .starved | .ended => none

@[simp] theorem Polled.item?_polled (x : Item) : x.polled.item? = some x := by
  cases x <;> rfl

namespace Source

instance : Taker Source Unit Polled where
  upload s := s.upload
  withUpload s u := { s with upload := u }
  ask s _ := s.next
  upload_withUpload _ _ := rfl
  withUpload_withUpload _ _ _ := rfl
  withUpload_upload _ := rfl

def found (answers : List Polled) : List Item := answers.filterMap Polled.item?

/-- What a source has handed out of an upload, and what it has counted. -/
structure Accounts (u : Upload) (past : List (Event Unit)) (answers : List Polled)
    (s : Source) : Prop where
  /-- what was found and what is still there is what has arrived, but for the empty chunks -/
  order : found answers ++ solid s.upload.items = solid (u.receive past).items
  isClosed : s.upload.isClosed = (u.receive past).isClosed
  count : s.bytesRead = (bytes (found answers)).size
  isFinished : s.isFinished ↔ .ended ∈ answers
  /-- the end comes after everything else -/
  ended : .ended ∈ answers → u.WasAll past fun items => found answers = solid items

namespace Accounts

variable {u : Upload} {past : List (Event Unit)} {answers : List Polled} {s : Source}

theorem start (u : Upload) : Accounts u [] [] ⟨u, 0, false⟩ :=
  ⟨rfl, rfl, rfl, by simp, by simp⟩

theorem found_snoc (answers : List Polled) (p : Polled) :
    found (answers ++ [p]) = found answers ++ p.item?.toList := by
  cases h : p.item? <;> simp [found, h]

theorem unfinished (h : Accounts u past answers s) (going : .ended ∉ answers) :
    s.isFinished = false :=
  Bool.eq_false_iff.2 fun finished => going (h.isFinished.1 finished)

theorem again (h : Accounts u past answers s) (ended : .ended ∈ answers) :
    Accounts u (past ++ [.ask ()]) (answers ++ [.ended]) s := by
  have none : found (answers ++ [.ended]) = found answers :=
    (found_snoc ..).trans (List.append_nil _)
  refine ⟨?_, ?_, ?_, ?_, fun _ => ?_⟩
  · rw [none, Upload.receive_ask, h.order]
  · rw [Upload.receive_ask, h.isClosed]
  · rw [none, h.count]
  · simp [h.isFinished, ended]
  · rw [none]
    exact (h.ended ended).snoc _

theorem take (h : Accounts u past answers s) (going : .ended ∉ answers) {passed rest : List Item}
    {x : Item} (items : s.upload.items = passed ++ x :: rest) (blank : ∀ y ∈ passed, y.isBlank)
    (full : x.isBlank = false) :
    Accounts u (past ++ [.ask ()]) (answers ++ [x.polled])
      ⟨⟨rest, s.upload.isClosed⟩, s.bytesRead + x.size, false⟩ := by
  have took : found (answers ++ [x.polled]) = found answers ++ [x] := by
    rw [found_snoc, Polled.item?_polled]
    rfl
  have size : (bytes [x]).size = x.size := by
    cases x <;> simp [bytes, Item.size]
  have going' : .ended ∉ answers ++ [x.polled] := by
    cases x <;> simp [going, Item.polled]
  refine ⟨?_, ?_, ?_, by simp [going'], fun he => absurd he going'⟩
  · rw [took, Upload.receive_ask, ← h.order, items, Upload.solid_append,
      Upload.solid_eq_nil blank, Upload.solid_cons full, List.append_assoc]
    rfl
  · rw [Upload.receive_ask, ← h.isClosed]
  · rw [took, Upload.bytes_append, ByteArray.size_append, size, ← h.count]

/-- Nothing is left but empty chunks. -/
theorem nothing (h : Accounts u past answers s) (going : .ended ∉ answers)
    (blank : ∀ y ∈ s.upload.items, y.isBlank) :
    Accounts u (past ++ [.ask ()])
      (answers ++ [if s.upload.isClosed then .ended else .starved])
      ⟨⟨[], s.upload.isClosed⟩, s.bytesRead, s.upload.isClosed⟩ := by
  have all : found answers = solid (u.receive past).items := by
    rw [← h.order, Upload.solid_eq_nil blank, List.append_nil]
  have none : found (answers ++ [if s.upload.isClosed then .ended else .starved]) =
      found answers := by
    rw [found_snoc]
    split <;> exact List.append_nil _
  have ends : s.upload.isClosed ↔
      .ended ∈ answers ++ [if s.upload.isClosed then .ended else .starved] := by
    cases s.upload.isClosed <;> simp [going]
  refine ⟨?_, ?_, ?_, ends, fun he => ?_⟩
  · rw [none, Upload.receive_ask, ← all]
    exact List.append_nil _
  · rw [Upload.receive_ask, ← h.isClosed]
  · rw [none, h.count]
  · rw [none]
    exact (Upload.WasAll.now (h.isClosed ▸ ends.2 he) all).snoc _

theorem ask (h : Accounts u past answers s) :
    Accounts u (past ++ [.ask ()]) (answers ++ [s.next.1]) s.next.2 := by
  by_cases ended : .ended ∈ answers
  · rw [next_of_isFinished (h.isFinished.2 ended)]
    exact h.again ended
  · obtain ⟨passed, x, rest, items, blank, full, look⟩ | ⟨blank, look⟩ :=
      looks_next (h.unfinished ended)
    · rw [look]
      exact h.take ended items blank full
    · rw [look]
      exact h.nothing ended blank

theorem step (h : Accounts u past answers s) (e : Event Unit) :
    Accounts u (past ++ [e]) (answers ++ (Taker.step s e).1) (Taker.step s e).2 := by
  cases e with
  | ask => exact h.ask
  | arrive items =>
    rw [Taker.step, List.append_nil]
    refine ⟨?_, ?_, h.count, h.isFinished, fun he => (h.ended he).snoc _⟩
    · rw [Upload.receive_snoc]
      change _ ++ solid (s.upload.items ++ items) = solid (_ ++ items)
      rw [Upload.solid_append, Upload.solid_append, ← List.append_assoc, h.order]
    · rw [Upload.receive_snoc]
      exact h.isClosed
  | complete =>
    rw [Taker.step, List.append_nil]
    refine ⟨?_, ?_, h.count, h.isFinished, fun he => (h.ended he).snoc _⟩
    · rw [Upload.receive_snoc]
      exact h.order
    · rw [Upload.receive_snoc]
      rfl

end Accounts

/-- What the answers of a source say of an upload, after any events. -/
structure Delivers (u : Upload) (past : List (Event Unit)) (answers : List Polled)
    (s : Source) : Prop extends Accounts u past answers s where
  full : ∀ data, .chunk data ∈ answers → data ≠ .empty
  /-- the next look finds the first item that is there -/
  finds : .ended ∉ answers → ∀ x rest, solid s.upload.items = x :: rest → s.next.1 = x.polled
  /-- or that there is none -/
  ends : .ended ∉ answers → solid s.upload.items = [] →
    s.next.1 = if s.upload.isClosed then .ended else .starved
  /-- once the end was found it is found every time, and nothing is taken any more -/
  still : .ended ∈ answers → ∀ later : List (Event Unit),
    (∀ p ∈ (Taker.run s later).1, p = .ended) ∧
    (Taker.run s later).2 = { s with upload := s.upload.receive later }

theorem Accounts.run (u : Upload) (past : List (Event Unit)) :
    Accounts u past (Taker.run (⟨u, 0, false⟩ : Source) past).1
      (Taker.run (⟨u, 0, false⟩ : Source) past).2 := by
  have keeps {past answers} {s : Source} (e : Event Unit) (h : Accounts u past answers s) :=
    h.step e
  simpa using Taker.run_keeps keeps past (Accounts.start u)

theorem Accounts.delivers {u : Upload} {past : List (Event Unit)} {answers : List Polled}
    {s : Source} (h : Accounts u past answers s) : Delivers u past answers s where
  toAccounts := h
  full := by
    intro data hd none
    have mem : .chunk data ∈ found answers := List.mem_filterMap.2 ⟨_, hd, rfl⟩
    have solid : .chunk data ∈ solid (u.receive past).items := h.order ▸ List.mem_append_left _ mem
    have := (List.mem_filter.1 solid).2
    rw [Upload.isBlank_chunk.2 none] at this
    cases this
  finds := by
    intro going x rest hx
    obtain ⟨passed, y, after, items, blank, full, look⟩ | ⟨blank, -⟩ :=
      looks_next (h.unfinished going)
    · rw [items, Upload.solid_append, Upload.solid_eq_nil blank, Upload.solid_cons full] at hx
      rw [look, (List.cons.inj hx).1]
    · rw [Upload.solid_eq_nil blank] at hx
      cases hx
  ends := by
    intro going none
    obtain ⟨passed, y, after, items, -, full, -⟩ | ⟨-, look⟩ := looks_next (h.unfinished going)
    · rw [items, Upload.solid_append, Upload.solid_cons full] at none
      simp at none
    · rw [look]
  still := by
    intro ended later
    have ask {s : Source} (_ : Unit) (hs : s.isFinished) :
        Taker.ask s () = (Polled.ended, s) := next_of_isFinished hs
    obtain ⟨answers, last⟩ := Taker.run_still ask (fun _ hs => hs) later (h.isFinished.2 ended)
    refine ⟨fun p hp => ?_, last⟩
    obtain ⟨-, rfl⟩ := answers p hp
    rfl

end Source
end ImageBuild
