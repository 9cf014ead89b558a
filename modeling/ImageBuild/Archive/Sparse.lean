import ImageBuild.Archive.Header

/-!
# Contents of archive members

The content of a member follows its header. A sparse file leaves out long
runs of zeros: a map in the header, continued in blocks of its own, tells
where in the file the parts of the content belong. `Layout.ofMap` checks such
a map and turns it into a sequence of holes and stored parts.
-/

namespace ImageBuild.Archive

/-- A part of the content of a member. -/
inductive Segment where
  /-- zeros that are not stored -/
  | hole (length : Nat)
  /-- octets that are stored behind the previous part -/
  | stored (length : Nat)
  deriving DecidableEq

/-- The content of a member: its parts, and the position of the first one
that is stored. -/
structure Layout where
  start : Nat
  segments : List Segment
  deriving DecidableEq

namespace Layout

/-- The octets of a part of an archive, as far as the archive goes. -/
def slice (data : ByteArray) (start length : Nat) : ByteArray :=
  data.extract start (min (start + length) data.size)

def readFrom (data : ByteArray) (start : Nat) : List Segment → ByteArray
  | [] => .empty
  | .hole n :: rest => ⟨Array.replicate n 0⟩ ++ readFrom data start rest
  | .stored n :: rest => slice data start n ++ readFrom data (start + n) rest

/-- The content of a member, as far as the archive goes. -/
def read (data : ByteArray) (l : Layout) : ByteArray := readFrom data l.start l.segments

end Layout

/-- What has been read of the map of a sparse file. -/
structure SparseMap where
  /-- the size of the stored content -/
  size : Nat
  /-- how much of the stored content is mapped -/
  mapped : Nat := 0
  /-- where in the file the mapped part ends -/
  reach : Nat := 0
  segments : List Segment := []

namespace SparseMap

/-- The number of octets of one entry of a map. -/
def entrySize : Nat := 24

def entries (count : Nat) (field : Octets) : List Octets :=
  (List.range count).map fun i => (field.drop (i * entrySize)).take entrySize

/-- Reads the place and the length of a part. An entry of which either
begins with a zero octet is unused. -/
def readEntry (entry : Octets) : Except Fault (Option (Nat × Nat)) :=
  let offset := entry.take 12
  let length := entry.drop 12
  if offset.headD 0 = 0 ∨ length.headD 0 = 0 then .ok none
  else
    match readLarge offset, readLarge length with
    | .error e, _ => .error (.numeral e .offset)
    | .ok _, .error e => .error (.numeral e .length)
    | .ok offset, .ok length => .ok (some (offset, length))

/-- Maps the next `length` octets of the content to `offset`. -/
def place (m : SparseMap) (offset length : Nat) : Except Fault SparseMap :=
  if length ≠ 0 ∧ m.mapped % blockSize ≠ 0 then .error .sparseUnaligned
  else if offset < m.reach then .error .sparseOverlap
  else if Text.Integer.maxU64 < offset + length then .error .sparseOverflow
  else if m.size < m.mapped + length then .error .sparseExcess
  else
    let hole := if m.reach < offset then [.hole (offset - m.reach)] else []
    .ok { m with
      mapped := m.mapped + length
      reach := offset + length
      segments := m.segments ++ hole ++ [.stored length] }

def push (m : SparseMap) (entry : Octets) : Except Fault SparseMap :=
  match readEntry entry with
  | .error e => .error e
  | .ok none => .ok m
  | .ok (some (offset, length)) => m.place offset length

/-- Takes up the blocks of entries that begin at `pos`, until one says that
no other follows. The result comes with the position behind them. -/
def pushBlocks (data : ByteArray) (pos : Nat) (m : SparseMap) :
    Except Fault (SparseMap × Nat) :=
  match _h : blockAt data pos with
  | .error e => .error e
  | .ok none => .error .sparseMapMissing
  | .ok (some block) =>
    match (entries 21 block.data.toList).foldlM push m with
    | .error e => .error e
    | .ok m =>
      if block.data.toList.drop 504 |>.headD 0 |> (· = 1) then
        pushBlocks data (pos + blockSize) m
      else .ok (m, pos + blockSize)
termination_by data.size - pos
decreasing_by
  have := le_of_blockAt _h
  have := blockSize_pos
  omega

theorem le_of_pushBlocks {data : ByteArray} {pos next : Nat} {m n : SparseMap}
    (h : pushBlocks data pos m = .ok (n, next)) : pos ≤ next := by
  fun_induction pushBlocks data pos m with
  | case1 => cases h
  | case2 => cases h
  | case3 => cases h
  | case4 _ _ _ _ _ _ _ ih => exact Nat.le_trans (Nat.le_add_right ..) (ih h)
  | case5 =>
    simp only [Except.ok.injEq, Prod.mk.injEq] at h
    omega

end SparseMap

/-- The map of a sparse file with a header and a content of `size` octets,
with the position behind the map; the header ends at `pos`. -/
def readMap (data : ByteArray) (h : Header) (size pos : Nat) :
    Except Fault (SparseMap × Nat) :=
  match (SparseMap.entries 4 (h.field 386 96)).foldlM SparseMap.push { size } with
  | .error e => .error e
  | .ok m => if h.field 482 1 = [1] then m.pushBlocks data pos else .ok (m, pos)

theorem le_of_readMap {data : ByteArray} {h : Header} {size pos next : Nat} {m : SparseMap}
    (hm : readMap data h size pos = .ok (m, next)) : pos ≤ next := by
  unfold readMap at hm
  split at hm
  · cases hm
  · split at hm
    · exact SparseMap.le_of_pushBlocks hm
    · simp only [Except.ok.injEq, Prod.mk.injEq] at hm
      omega

/-- The layout of a sparse file. The map has to reach the end of the file and
to cover the whole content. -/
def Layout.ofMap (data : ByteArray) (h : Header) (size pos : Nat) : Except Fault Layout :=
  if ¬ h.isGnu then .error .sparseForeign
  else
    match readMap data h size pos with
    | .error e => .error e
    | .ok (m, start) =>
      match h.realSize with
      | .error e => .error e
      | .ok realSize =>
        if m.reach ≠ realSize then .error .sparseSizeMismatch
        else if m.mapped < m.size then .error .sparseRemainder
        else .ok ⟨start, m.segments⟩

theorem Layout.le_of_ofMap {data : ByteArray} {h : Header} {size pos : Nat} {l : Layout}
    (hl : ofMap data h size pos = .ok l) : pos ≤ l.start := by
  unfold ofMap at hl
  split at hl
  · cases hl
  · split at hl
    · cases hl
    · next hm =>
      split at hl
      · cases hl
      · split at hl
        · cases hl
        · split at hl <;> cases hl
          exact le_of_readMap hm

end ImageBuild.Archive
