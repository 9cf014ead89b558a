import ImageBuild.Proofs.Reception
import ImageBuild.Proofs.Upload

/-!
# What a build has in its file

While a build receives, its file holds what it has taken from the upload so far,
octet by octet, and from the end of the upload on it holds all of it
(`Phase.Copies`). A move keeps that (`Phase.Copies.move`).
-/

namespace ImageBuild

namespace Upload

/-- An upload that has arrived to its end without a fault. -/
structure Whole (u : Upload) (content : ByteArray) : Prop where
  isClosed : u.isClosed = true
  clean : ∀ reason, .fault reason ∉ u.items
  bytes : bytes u.items = content

/-- What has been taken from an upload, and what its source has still to give. -/
structure Takes (u : Upload) (s : Source) (content : ByteArray) : Prop where
  items : ∃ taken, u.items = taken ++ s.upload.items ∧ (∀ reason, .fault reason ∉ taken) ∧
    Upload.bytes taken = content
  isClosed : s.upload.isClosed = u.isClosed
  count : s.bytesRead = content.size
  unfinished : s.isFinished = false

namespace Takes

variable {u : Upload} {s : Source} {content : ByteArray}

theorem start (u : Upload) : u.Takes ⟨u, 0, false⟩ .empty :=
  ⟨⟨[], rfl, by simp, rfl⟩, rfl, rfl, rfl⟩

theorem feed (h : u.Takes s content) (items : List Item) :
    (u.feed items).Takes (s.feed items) content := by
  obtain ⟨taken, hu, clean, bytes⟩ := h.items
  refine ⟨⟨taken, ?_, clean, bytes⟩, h.isClosed, h.count, h.unfinished⟩
  simp only [Upload.feed, Source.feed, hu, List.append_assoc]

theorem close (h : u.Takes s content) : u.close.Takes s.close content :=
  ⟨h.items, rfl, h.count, h.unfinished⟩

/-- What a look at the source finds, and what is taken then. -/
def Finds (u : Upload) (content : ByteArray) : Polled × Source → Prop
  | (.chunk data, s) => u.Takes s (content ++ data)
  | (.paused, s) => u.Takes s content
  | (.ended, s) => u.Whole content ∧ s.bytesRead = content.size
  | (.fault _, _) | (.starved, _) => True

theorem pass {items passed rest : List Item} {taken : List Item}
    (hu : items = taken ++ (passed ++ rest)) (clean : ∀ reason, .fault reason ∉ taken)
    (blank : ∀ x ∈ passed, x.isBlank) :
    items = (taken ++ passed) ++ rest ∧ (∀ reason, .fault reason ∉ taken ++ passed) ∧
      Upload.bytes (taken ++ passed) = Upload.bytes taken := by
  refine ⟨by rw [hu, List.append_assoc], fun reason mem => ?_, ?_⟩
  · rcases List.mem_append.1 mem with mem | mem
    · exact clean reason mem
    · cases blank _ mem
  · rw [bytes_append, bytes_eq_empty blank, ByteArray.append_empty]

theorem next (h : u.Takes s content) : Finds u content s.next := by
  obtain ⟨taken, hu, clean, bytes⟩ := h.items
  obtain ⟨passed, x, rest, items, blank, -, look⟩ | ⟨blank, look⟩ :=
    Source.looks_next h.unfinished
  · rw [items] at hu
    obtain ⟨hu, clean, same⟩ := pass hu clean blank
    rw [look]
    -- the item is taken with those before it, unless it is a fault
    have hu' : u.items = (taken ++ passed ++ [x]) ++ rest := hu.trans (List.append_cons ..)
    cases x with
    | chunk data =>
      refine ⟨⟨_, hu', by simpa using clean, ?_⟩, h.isClosed, ?_, rfl⟩
      · rw [bytes_append, same, bytes]
        simp [Upload.bytes, ByteArray.append_empty]
      · simp only [ByteArray.size_append, h.count, Item.size]
    | fault reason => trivial
    | pause =>
      refine ⟨⟨_, hu', by simpa using clean, ?_⟩, h.isClosed, h.count, rfl⟩
      rw [bytes_append, same, bytes]
      simp [Upload.bytes, ByteArray.append_empty]
  · rw [← List.append_nil s.upload.items] at hu
    obtain ⟨hu, clean, same⟩ := pass hu clean blank
    rw [List.append_nil] at hu
    rw [look]
    cases closed : s.upload.isClosed with
    | true => exact ⟨⟨h.isClosed ▸ closed, hu ▸ clean, hu ▸ same.trans bytes⟩, h.count⟩
    | false => trivial

end Takes

namespace Whole

variable {u : Upload} {content : ByteArray}

theorem close (h : u.Whole content) : u.close.Whole content := ⟨rfl, h.clean, h.bytes⟩

end Whole
end Upload

namespace ContextEngine

variable {τ : Type}

/-- A file that holds the upload `u`, with the name and the size of its content. -/
structure IsCopy (u : Upload) (s : Store) (file : Nat) (digest : String) (size : Nat) : Prop where
  whole : u.Whole (s.content file)
  digest : digest = Digest.name (s.content file)
  size : size = (s.content file).size

theorem IsCopy.congr {u : Upload} {s s' : Store} {file size : Nat} {digest : String}
    (h : IsCopy u s file digest size) (same : s'.content file = s.content file) :
    IsCopy u s' file digest size :=
  ⟨same ▸ h.whole, same ▸ h.digest, same ▸ h.size⟩

/-- What the file of a build has of the upload `u`. -/
def Phase.Copies (u : Upload) (s : Store) (source : Option Source) : Phase → Prop
  | .opening => ∃ x, source = some x ∧ u.Takes x .empty
  | .receiving file _ | .reporting file _ => ∃ x, source = some x ∧ u.Takes x (s.content file)
  | .writing file _ data => ∃ x, source = some x ∧ u.Takes x (s.content file ++ data)
  | .flushing file | .totalling file | .looking file =>
    u.Whole (s.content file) ∧ ∃ x, source = some x ∧ x.bytesRead = (s.content file).size
  | .noting c | .inspecting c _ | .telling c _ _ _ | .concluding c _ _ =>
    IsCopy u s c.file c.digest c.size
  | .discarding .. | .leaving _ => True

/-- What a build has of the upload that it came with. -/
def Seat.Copies (seat : Seat τ) (s : Store) (v : Visit) : Prop :=
  match seat.job with
  | .arriving .. => seat.source = v.source
  | .running _ _ p => ∃ u, v.upload = some u ∧ p.Copies u s seat.source

namespace Phase.Copies

variable {u : Upload} {s s' : Store} {source : Option Source} {p : Phase}

theorem congr (h : p.Copies u s source)
    (same : ∀ n, p.file? = some n → s'.content n = s.content n) : p.Copies u s' source := by
  cases p with
  | opening => exact h
  | receiving file _ | writing file _ _ | reporting file _ | flushing file | totalling file
  | looking file =>
    simp only [Phase.Copies] at h ⊢
    rwa [same file rfl]
  | noting c | inspecting c _ | telling c _ _ _ | concluding c _ _ =>
    exact IsCopy.congr h (same c.file rfl)
  | discarding | leaving => trivial

theorem feed (h : p.Copies u s source) (isOpen : u.isClosed = false) (items : List Upload.Item) :
    p.Copies (u.feed items) s (source.map (·.feed items)) := by
  have whole {content : ByteArray} (w : u.Whole content) : False := by
    rw [w.isClosed] at isOpen
    cases isOpen
  cases p with
  | opening | receiving | writing | reporting =>
    obtain ⟨x, rfl, takes⟩ := h
    exact ⟨x.feed items, rfl, takes.feed items⟩
  | flushing | totalling | looking => exact (whole h.1).elim
  | noting | inspecting | telling | concluding => exact (whole h.whole).elim
  | discarding | leaving => trivial

theorem close (h : p.Copies u s source) : p.Copies u.close s (source.map (·.close)) := by
  cases p with
  | opening | receiving | writing | reporting =>
    obtain ⟨x, rfl, takes⟩ := h
    exact ⟨x.close, rfl, takes.close⟩
  | flushing | totalling | looking =>
    obtain ⟨whole, x, rfl, count⟩ := h
    exact ⟨whole.close, x.close, rfl, count⟩
  | noting | inspecting | telling | concluding => exact ⟨h.whole.close, h.digest, h.size⟩
  | discarding | leaving => trivial

end Phase.Copies

/-- What a build in a phase has of the upload `u` after a move. -/
def Phase.Goes (p : Phase) (u : Upload) :
    Move Phase (Except BuildError String) × Desk Store τ → Prop
  | (.go q, d) => q.Copies u d.store d.source
  | (.wait, d) => p.Copies u d.store d.source
  | (.stop _, _) => True

section Moves

variable [Sink τ] {u : Upload}

theorem goes_offer {p next : Phase} {failed : SinkError → Phase} (d : Desk Store τ) (f : Frame)
    (h : p.Copies u d.store d.source) (hn : next.Copies u d.store d.source)
    (hf : ∀ e, (failed e).Copies u d.store d.source) :
    p.Goes u (d.offer f next fun e => .go (failed e)) := by
  rcases d.offer_cases f next (fun e => (.go (failed e) : Move Phase (Except BuildError String)))
    with ⟨-, ho⟩ | ⟨-, ho⟩ | ⟨e, -, ho⟩ <;> rw [ho]
  · exact hn
  · exact h
  · exact hf e

omit [Sink τ] in
theorem goes_spool {α : Type} {p : Phase} (d : Desk Store τ) {a : α}
    {next : Except String α → Phase × Store}
    (done : (next (.ok a)).1.Copies u (next (.ok a)).2 d.source)
    (failed : ∀ reason, (next (.error reason)).1.Copies u (next (.error reason)).2 d.source) :
    p.Goes u (spool d a next) := by
  rcases spool_cases d a next with ⟨-, h⟩ | ⟨reason, -, h⟩ <;> rw [h]
  · exact done
  · exact failed reason

theorem goes_receive (token : Token) (file threshold : Nat) (d : Desk Store τ)
    (h : (Phase.receiving file threshold).Copies u d.store d.source) :
    (Phase.receiving file threshold).Goes u (receive token file threshold d) := by
  obtain ⟨x, hx, takes⟩ := h
  rcases receive_cases token file threshold d with
    ⟨-, hr⟩ | ⟨-, hr⟩ | ⟨s, hs, ⟨-, hr⟩ | ⟨found, hr⟩⟩ <;> rw [hr]
  · trivial
  · trivial
  · exact ⟨x, hx, takes⟩
  · cases hx.symm.trans hs
    have store : (d.take x).2.store = d.store := congrArg (·.store) (d.take_toWorkshop x)
    have finds := takes.next
    rw [Phase.Goes, store, d.take_source]
    generalize x.next = looked at finds found ⊢
    obtain ⟨polled, x'⟩ := looked
    cases polled with
    | chunk | paused => exact ⟨x', rfl, finds⟩
    | fault reason => trivial
    | ended => exact ⟨finds.1, x', rfl, finds.2⟩
    | starved => exact absurd rfl found

omit [Sink τ] in
theorem received_of_bytesRead {d : Desk Store τ} {n : Nat}
    (h : ∃ x, d.source = some x ∧ x.bytesRead = n) : received d = n := by
  obtain ⟨x, hx, count⟩ := h
  simp only [received, hx, count]

/-- **A move** of a build keeps what it has of its upload. -/
theorem Phase.Copies.move {p : Phase} {d : Desk Store τ} (h : p.Copies u d.store d.source)
    (token : Token) (o : BuildOptions) (past : ∀ n ∈ d.store.fileNumbers, n < d.store.clock)
    (mem : ∀ n, p.file? = some n → n ∈ d.store.fileNumbers) :
    p.Goes u (p.move token o d) := by
  cases p with
  | opening =>
    obtain ⟨x, hx, takes⟩ := h
    unfold Phase.move
    refine goes_spool d ⟨x, hx, ?_⟩ fun _ => trivial
    show u.Takes x (d.store.createFile.2.content d.store.clock)
    rwa [content_createFile_self past]
  | receiving file threshold => exact goes_receive token file threshold d h
  | writing file threshold data =>
    obtain ⟨x, hx, takes⟩ := h
    have content : (d.store.append file data).content file = d.store.content file ++ data := by
      rw [content_append d.store file file data (mem file rfl), if_pos rfl]
    unfold Phase.move
    refine goes_spool d ?_ fun _ => trivial
    show (Phase.written file threshold (received d)).Copies u (d.store.append file data) d.source
    unfold Phase.written
    split <;> exact ⟨x, hx, content ▸ takes⟩
  | reporting file threshold => exact goes_offer d _ h h fun _ => trivial
  | flushing file =>
    unfold Phase.move
    exact goes_spool d h fun _ => trivial
  | totalling file => exact goes_offer d _ h h fun _ => trivial
  | looking file =>
    obtain ⟨whole, counted⟩ := h
    have copy : IsCopy u d.store file (Digest.name (d.store.content file)) (received d) :=
      ⟨whole, rfl, received_of_bytesRead counted⟩
    have touched := copy.congr
      (content_of_files (Store.touch_files d.store (Digest.name (d.store.content file))) file)
    rcases looking_cases token o file d with ⟨-, hl⟩ | ⟨-, -, hl⟩ | ⟨-, -, hl⟩ <;> rw [hl]
    · have store : d.dropSource.store = d.store := congrArg (·.store) d.dropSource_toWorkshop
      exact store.symm ▸ copy
    · exact touched
    · exact touched
  | noting c => exact goes_offer d _ h h fun _ => trivial
  | inspecting c isKnown =>
    show Phase.Copies u d.store d.source (inspect token o c isKnown d)
    rcases inspect_fails_or_tells token o c isKnown d with ⟨e, hi⟩ | ⟨steps, id, hi⟩ <;> rw [hi] <;>
      exact h
  | telling c isKnown steps id =>
    cases steps with
    | nil => exact h
    | cons step rest =>
      cases step with
      | check =>
        show Phase.Copies u d.store d.source (if _ then _ else _)
        split <;> exact h
      | line text => exact goes_offer d _ h h fun _ => h
  | concluding c isKnown result =>
    show Phase.Copies u _ d.source (conclude o c isKnown result d.store).1
    rcases conclude_cases o c isKnown result d.store with
      ⟨-, hc⟩ | ⟨id, -, -, -, -, hc⟩ | ⟨id, -, -, -, -, hc⟩ <;> rw [hc] <;> trivial
  | discarding file result => trivial
  | leaving result => trivial

end Moves

end ContextEngine
end ImageBuild
