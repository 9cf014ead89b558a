import ImageBuild.Archive.Extensions
import ImageBuild.Archive.Sparse

/-!
# Listing archives

An archive is listed from its beginning to its end or to the first fault.
Some members are no entries of their own but describe the next member: its
path, the target of its link, or its extended attributes. The end of an
archive is the end of the data or a block of zeros.
-/

namespace ImageBuild.Archive

/-- A member as its header describes it. -/
structure Member where
  header : Header
  size : Nat
  /-- the position behind the header -/
  start : Nat

namespace Member

/-- The number of octets that a content of `size` octets takes up. -/
def padded (size : Nat) : Nat := (size + (blockSize - 1)) / blockSize * blockSize

/-- The position behind the content. -/
def stop (m : Member) : Nat := m.start + padded m.size

/-- The size of a member whose header tells `size`. An attribute overrides it,
but attributes are not meant for a member that describes another one. -/
def sizeOf (header : Header) (size : Nat) (extensions : Option Octets) : Nat :=
  if header.isAuxiliary then size else (extensions.bind Extension.size?).getD size

/-- The member at `pos` with a header and a size. Its end has to be a position
of 64 bits. -/
def place (header : Header) (size pos : Nat) : Except Fault (Option Member) :=
  let m : Member := ⟨header, size, pos + blockSize⟩
  if Text.Integer.maxU64 < size + (blockSize - 1) ∨ Text.Integer.maxU64 < m.stop then
    .error .sizeOverflow
  else .ok (some m)

/-- The member whose header is at `pos`, unless the archive ends there. -/
def ofHeader (header : Header) (pos : Nat) (extensions : Option Octets) :
    Except Fault (Option Member) :=
  if header.isZero then .ok none
  else
    match header.checkSum with
    | .error e => .error e
    | .ok () =>
      match header.size with
      | .error e => .error e
      | .ok size => place header (sizeOf header size extensions) pos

/-- The member at a position, if the archive does not end there. It is
described by these attributes. -/
def at? (data : ByteArray) (pos : Nat) (extensions : Option Octets) :
    Except Fault (Option Member) :=
  if data.size < pos then .error .partialContent
  else
    match blockAt data pos with
    | .error e => .error e
    | .ok none => .ok none
    | .ok (some block) => ofHeader ⟨block⟩ pos extensions

theorem start_of_place {header : Header} {size pos : Nat} {m : Member}
    (h : place header size pos = .ok (some m)) : m.start = pos + blockSize := by
  unfold place at h
  dsimp only at h
  split at h
  · cases h
  · simp only [Except.ok.injEq, Option.some.injEq] at h
    exact h ▸ rfl

theorem start_of_ofHeader {header : Header} {pos : Nat} {x : Option Octets} {m : Member}
    (h : ofHeader header pos x = .ok (some m)) : m.start = pos + blockSize := by
  unfold ofHeader at h
  split at h
  · cases h
  · split at h
    · cases h
    · split at h
      · cases h
      · exact start_of_place h

theorem start_of_at? {data : ByteArray} {pos : Nat} {x : Option Octets} {m : Member}
    (h : at? data pos x = .ok (some m)) : m.start = pos + blockSize ∧ m.start ≤ data.size := by
  unfold at? at h
  split at h
  · cases h
  · split at h
    · cases h
    · cases h
    · next hb =>
      have := start_of_ofHeader h
      exact ⟨this, this ▸ le_of_blockAt hb⟩

/-- The content, as far as the archive goes. -/
def content (data : ByteArray) (m : Member) : Octets :=
  (Layout.slice data m.start m.size).data.toList

/-- Whether the dialect of the header knows members that describe others. -/
def canDescribe (m : Member) : Bool := m.header.isGnu || m.header.isUstar

end Member

/-- What the members before a member tell about it. -/
structure Description where
  path : Option Octets := none
  link : Option Octets := none
  extensions : Option Octets := none
  deriving DecidableEq

namespace Description

/-- What a member adds to a description, unless it is an entry of its own. -/
def add? (data : ByteArray) (m : Member) (d : Description) : Option (Except Fault Description) :=
  if ¬ m.canDescribe then none
  else if m.header.type = Text.encode "L" then
    some (if d.path.isSome then .error .repeatedName
      else .ok { d with path := some (m.content data) })
  else if m.header.type = Text.encode "K" then
    some (if d.link.isSome then .error .repeatedName
      else .ok { d with link := some (m.content data) })
  else if m.header.type = Text.encode "x" then
    some (if d.extensions.isSome then .error .repeatedExtensions
      else .ok { d with extensions := some (m.content data) })
  else none

def withoutZero (path : Octets) : Octets :=
  if path.getLast? = some 0 then path.dropLast else path

/-- The path of a member: one that was described counts before one among the
attributes, and that before the one in the header. -/
def pathOf (d : Description) (h : Header) : Octets :=
  match d.path with
  | some path => withoutZero path
  | none => (d.extensions.bind Extension.path?).getD h.path

end Description

structure Entry where
  path : String
  layout : Layout
  deriving DecidableEq

/-- The layout of the content of a member, and the position behind it. -/
def Member.layout (data : ByteArray) (m : Member) : Except Fault (Layout × Nat) :=
  if m.header.type = Text.encode "S" then
    (Layout.ofMap data m.header m.size m.start).map fun l => (l, m.stop + (l.start - m.start))
  else .ok (⟨m.start, [.stored m.size]⟩, m.stop)

theorem Member.start_le_of_layout {data : ByteArray} {m : Member} {l : Layout} {next : Nat}
    (h : m.layout data = .ok (l, next)) : m.start ≤ next := by
  have hs : m.start ≤ m.stop := Nat.le_add_right ..
  unfold layout at h
  split at h
  · cases ho : Layout.ofMap data m.header m.size m.start with
    | error e => simp [ho, Except.map] at h
    | ok l' =>
      simp only [ho, Except.map, Except.ok.injEq, Prod.mk.injEq] at h
      omega
  · simp only [Except.ok.injEq, Prod.mk.injEq] at h
    omega

theorem Member.sub_lt_of_at? {data : ByteArray} {pos next : Nat} {x : Option Octets} {m : Member}
    (h : at? data pos x = .ok (some m)) (hn : m.start ≤ next) :
    data.size - next < data.size - pos := by
  obtain ⟨h1, h2⟩ := start_of_at? h
  have := blockSize_pos
  omega

structure Listing where
  entries : List Entry
  /-- what ended the list before the end of the archive -/
  fault : Option Fault
  deriving DecidableEq

/-- What is found at a position of an archive: the end of the list, a
description of the next member, or an entry. Behind the latter two less of the
archive is left. -/
inductive Found (data : ByteArray) (pos : Nat) where
  | nothing (fault : Option Fault)
  | description (d : Description) (next : Nat) (less : data.size - next < data.size - pos)
  | entry (e : Entry) (next : Nat) (less : data.size - next < data.size - pos)

namespace Found

def ofEntry {data : ByteArray} {pos : Nat} (m : Member) (d : Description)
    (less : ∀ next, m.start ≤ next → data.size - next < data.size - pos) : Found data pos :=
  match h : m.layout data with
  | .error e => .nothing (some e)
  | .ok (layout, next) =>
    .entry ⟨fieldText (d.pathOf m.header), layout⟩ next
      (less next (Member.start_le_of_layout h))

def ofMember {data : ByteArray} {pos : Nat} (m : Member) (d : Description)
    (less : ∀ next, m.start ≤ next → data.size - next < data.size - pos) : Found data pos :=
  match d.add? data m with
  | some (.error e) => .nothing (some e)
  | some (.ok d) => .description d m.stop (less m.stop (Nat.le_add_right ..))
  | none => ofEntry m d less

/-- Looks at the position `pos` of an archive. What is there is described by
`d`. -/
def lookAt (data : ByteArray) (pos : Nat) (d : Description) : Found data pos :=
  match h : Member.at? data pos d.extensions with
  | .error e => .nothing (some e)
  | .ok none => .nothing (if d = {} then none else some .nothingDescribed)
  | .ok (some m) => ofMember m d fun _ hn => Member.sub_lt_of_at? h hn

end Found

namespace Listing

/-- Lists the entries from `pos` on, the first of them described by `d`. -/
def startingAt (data : ByteArray) (pos : Nat) (d : Description) : Listing :=
  match Found.lookAt data pos d with
  | .nothing fault => ⟨[], fault⟩
  | .description d next _ => startingAt data next d
  | .entry e next _ =>
    let rest := startingAt data next {}
    { rest with entries := e :: rest.entries }
termination_by data.size - pos

/-- Lists an archive. -/
def ofArchive (data : ByteArray) : Listing := startingAt data 0 {}

end Listing
end ImageBuild.Archive
