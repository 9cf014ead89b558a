import ImageBuild.Text.Decimal
import ImageBuild.Text.Octets

/-!
# Uploads

An upload is what has arrived of a request body and not been taken yet:
chunks, faults of the connection after which it goes on, and pauses. It is
open as long as more can arrive. A `Source` takes the chunks of an upload one
by one, leaves out empty ones and counts octets; a `Source.Reader` hands the
same octets out in pieces of a requested size.
-/

namespace ImageBuild

namespace Upload

/-- Something that has arrived of a request body. -/
inductive Item where
  | chunk (data : ByteArray)
  | fault (reason : String)
  /-- nothing for once; the next item is there already -/
  | pause
  deriving DecidableEq

end Upload

/-- What has arrived of a request body, and whether it is complete. -/
structure Upload where
  items : List Upload.Item
  isClosed : Bool
  deriving DecidableEq

/-- What a look at a stream of chunks finds. -/
inductive Polled where
  | chunk (data : ByteArray)
  | fault (reason : String)
  /-- a pause; looking again finds the next item -/
  | paused
  /-- nothing until more arrives -/
  | starved
  | ended
  deriving DecidableEq

namespace Upload

namespace Item

/-- An empty chunk, which a source passes over. -/
def isBlank : Item → Bool
  | .chunk data => data.isEmpty
  | .fault _ | .pause => false

def polled : Item → Polled
  | .chunk data => .chunk data
  | .fault reason => .fault reason
  | .pause => .paused

def size : Item → Nat
  | .chunk data => data.size
  | .fault _ | .pause => 0

end Item

def next (u : Upload) : Polled × Upload :=
  match u.items with
  | .chunk data :: rest => (.chunk data, { u with items := rest })
  | .fault reason :: rest => (.fault reason, { u with items := rest })
  | .pause :: rest => (.paused, { u with items := rest })
  | [] => (if u.isClosed then .ended else .starved, u)

def feed (u : Upload) (items : List Item) : Upload :=
  { u with items := u.items ++ items }

def close (u : Upload) : Upload := { u with isClosed := true }

end Upload

/-- Takes the chunks of an upload in order, once. -/
structure Source where
  upload : Upload
  bytesRead : Nat := 0
  isFinished : Bool := false
  deriving DecidableEq

namespace Source

/-- The source of a body that is held in memory. -/
def ofBytes (data : ByteArray) : Source :=
  ⟨⟨if data.isEmpty then [] else [.chunk data], true⟩, 0, false⟩

/-- Takes the next chunk that is not empty. Once the end was found it is found
every time. -/
def next (s : Source) : Polled × Source :=
  if s.isFinished then (.ended, s) else go s s.upload.items
where
  /-- Looks through the items that have arrived. -/
  go (s : Source) : List Upload.Item → Polled × Source
    | .chunk data :: rest =>
      if data.isEmpty then go s rest
      else
        (.chunk data, { s with
          upload := { s.upload with items := rest }
          bytesRead := s.bytesRead + data.size })
    | .fault reason :: rest => (.fault reason, { s with upload := { s.upload with items := rest } })
    | .pause :: rest => (.paused, { s with upload := { s.upload with items := rest } })
    | [] =>
      if s.upload.isClosed then
        (.ended, { s with upload := { s.upload with items := [] }, isFinished := true })
      else (.starved, { s with upload := { s.upload with items := [] } })

def describe (s : Source) : String :=
  "BuildSource \x7b bytes_read: " ++ Text.Decimal.text s.bytesRead ++ ", finished: " ++
    (if s.isFinished then "true" else "false") ++ " \x7d"

def feed (s : Source) (items : List Upload.Item) : Source :=
  { s with upload := s.upload.feed items }

def close (s : Source) : Source := { s with upload := s.upload.close }

theorem next_of_isFinished {s : Source} (h : s.isFinished) : s.next = (.ended, s) := by
  simp [next, h]

/-- What a look among items comes to: it passes the empty chunks and takes the first item after
them. Where there is none it finds the end of a complete upload, and nothing yet in an open one. -/
def Looks (s : Source) (items : List Upload.Item) (found : Polled × Source) : Prop :=
  (∃ passed x rest, items = passed ++ x :: rest ∧ (∀ y ∈ passed, y.isBlank) ∧ x.isBlank = false ∧
    found = (x.polled, ⟨⟨rest, s.upload.isClosed⟩, s.bytesRead + x.size, false⟩)) ∨
  ((∀ y ∈ items, y.isBlank) ∧
    found = (if s.upload.isClosed then .ended else .starved,
      ⟨⟨[], s.upload.isClosed⟩, s.bytesRead, s.upload.isClosed⟩))

theorem Looks.pass {s : Source} {x : Upload.Item} {items : List Upload.Item}
    {found : Polled × Source} (blank : x.isBlank) (h : s.Looks items found) :
    s.Looks (x :: items) found := by
  obtain ⟨passed, y, rest, rfl, all, h⟩ | ⟨all, h⟩ := h
  · exact .inl ⟨x :: passed, y, rest, rfl, List.forall_mem_cons.2 ⟨blank, all⟩, h⟩
  · exact .inr ⟨List.forall_mem_cons.2 ⟨blank, all⟩, h⟩

/-- **A look** at a source that has not come to its end. -/
theorem looks_next {s : Source} (h : s.isFinished = false) : s.Looks s.upload.items s.next := by
  have go (items : List Upload.Item) : s.Looks items (next.go s items) := by
    induction items with
    | nil =>
      refine .inr ⟨by simp, ?_⟩
      cases closed : s.upload.isClosed <;> simp [next.go, closed, h]
    | cons x rest ih =>
      cases blank : x.isBlank with
      | true =>
        have passes : next.go s (x :: rest) = next.go s rest := by
          cases x with
          | chunk data => exact if_pos blank
          | fault | pause => cases blank
        exact passes ▸ ih.pass blank
      | false =>
        refine .inl ⟨[], x, rest, rfl, by simp, blank, ?_⟩
        cases x with
        | chunk data =>
          have full : ¬ data.isEmpty := Bool.eq_false_iff.1 blank
          rw [next.go, if_neg full, h]
          rfl
        | fault | pause => simp [next.go, h, Upload.Item.polled, Upload.Item.size]
  unfold next
  rw [h]
  exact go s.upload.items

theorem length_items_next_le (s : Source) :
    s.next.2.upload.items.length ≤ s.upload.items.length := by
  by_cases finished : s.isFinished
  · have same : s.next.2 = s := congrArg Prod.snd (next_of_isFinished finished)
    exact Nat.le_of_eq (by rw [same])
  · obtain ⟨passed, x, rest, items, -, -, found⟩ | ⟨-, found⟩ :=
      looks_next (Bool.eq_false_iff.2 finished)
    · simp only [found, items, List.length_append, List.length_cons]
      omega
    · rw [found]
      exact Nat.zero_le _

theorem length_items_next {s : Source} (h : s.next.1 ≠ .ended) (h' : s.next.1 ≠ .starved) :
    s.next.2.upload.items.length < s.upload.items.length := by
  by_cases finished : s.isFinished
  · rw [next_of_isFinished finished] at h
    exact absurd rfl h
  · obtain ⟨passed, x, rest, items, -, -, found⟩ | ⟨-, found⟩ :=
      looks_next (Bool.eq_false_iff.2 finished)
    · simp only [found, items, List.length_append, List.length_cons]
      omega
    · rw [found] at h h'
      split at h
      · exact absurd rfl h
      · next isOpen => exact absurd (if_neg isOpen) h'

/-- Hands out the octets of a source in pieces. -/
structure Reader where
  source : Source
  /-- what is left of the chunk that was taken last -/
  current : ByteArray := .empty
  deriving DecidableEq

namespace Reader

/-- What a read finds: octets, none at the end or if none were asked for. -/
inductive Read where
  | octets (data : ByteArray)
  | fault (reason : String)
  | pending
  deriving DecidableEq

/-- Hands out at most `n` octets of the current chunk. -/
def take (r : Reader) (n : Nat) : Read × Reader :=
  (.octets (r.current.extract 0 n), { r with current := r.current.extract n r.current.size })

/-- Reads at most `n` octets of one chunk. A new chunk is taken when nothing
is left of the current one; a read of no octets does not look at the source. -/
def read (r : Reader) (n : Nat) : Read × Reader :=
  if n = 0 then (.octets .empty, r)
  else if r.current.isEmpty then
    match r.source.next with
    | (.chunk data, s) => take ⟨s, data⟩ n
    | (.fault reason, s) => (.fault reason, ⟨s, .empty⟩)
    | (.ended, s) => (.octets .empty, ⟨s, .empty⟩)
    | (.paused, s) => (.pending, ⟨s, .empty⟩)
    | (.starved, s) => (.pending, ⟨s, .empty⟩)
  else r.take n

end Reader
end Source
end ImageBuild
