import ImageBuild.Proofs.Archive
import Mathlib.Algebra.GroupWithZero.Nat

/-!
# Complete contents

Every entry of a listing has a member, whose header tells the size of the content
(`exists_member_of_mem`). The content is read as far as the archive goes. An archive that is listed
without a fault goes far enough for all of its entries, so all of their octets are read
(`size_read_of_mem`). For a sparse file this rests on the checks of its map: the parts that are
stored do not exceed the member, and together with the holes they make up the file.
-/

namespace ImageBuild.Archive

/-! ## Sizes -/

namespace Segment

def length : Segment → Nat
  | .hole n => n
  | .stored n => n

/-- The octets of a part that are in the archive. -/
def storedLength : Segment → Nat
  | .hole _ => 0
  | .stored n => n

end Segment

namespace Layout

/-- **The size of a content**, with its holes. -/
def size (l : Layout) : Nat := (l.segments.map Segment.length).sum

/-- The position behind the last part that is stored. -/
def stop (l : Layout) : Nat := l.start + (l.segments.map Segment.storedLength).sum

theorem size_slice {data : ByteArray} {start length : Nat} (h : start + length ≤ data.size) :
    (slice data start length).size = length := by
  rw [slice, ByteArray.size_extract]
  omega

theorem size_readFrom {data : ByteArray} {start : Nat} {segments : List Segment}
    (h : start + (segments.map Segment.storedLength).sum ≤ data.size) :
    (readFrom data start segments).size = (segments.map Segment.length).sum := by
  induction segments generalizing start with
  | nil => rfl
  | cons segment rest ih =>
    rw [List.map_cons, List.sum_cons] at h ⊢
    cases segment with
    | hole n =>
      rw [Segment.storedLength, Nat.zero_add] at h
      rw [readFrom, ByteArray.size_append, ih h]
      simp [Segment.length, ByteArray.size]
    | stored n =>
      rw [Segment.storedLength] at h
      have here : start + n ≤ data.size := by omega
      have later : start + n + (rest.map Segment.storedLength).sum ≤ data.size := by omega
      rw [readFrom, ByteArray.size_append, size_slice here, ih later]
      rfl

/-- **A content that the archive goes far enough for** is read to its end. -/
theorem size_read {data : ByteArray} {l : Layout} (h : l.stop ≤ data.size) :
    (l.read data).size = l.size := size_readFrom h

end Layout

/-! ## Maps of sparse files -/

namespace SparseMap

/-- **Whether a map is sound:** its stored parts are what it has mapped of the content, and all
its parts reach as far as it does. -/
structure IsSound (size : Nat) (m : SparseMap) : Prop where
  sized : m.size = size
  mapped : (m.segments.map Segment.storedLength).sum = m.mapped
  reach : (m.segments.map Segment.length).sum = m.reach
  fits : m.mapped ≤ size

variable {size : Nat} {m n : SparseMap}

theorem IsSound.start (size : Nat) : IsSound size { size } := ⟨rfl, rfl, rfl, Nat.zero_le _⟩

theorem sum_placed (f : Segment → Nat) (segments : List Segment) (gap : Prop) [Decidable gap]
    (hole stored : Segment) :
    ((segments ++ (if gap then [hole] else []) ++ [stored]).map f).sum =
      (segments.map f).sum + (if gap then f hole else 0) + f stored := by
  by_cases hgap : gap <;> simp [hgap, Nat.add_assoc]

theorem IsSound.place (sound : m.IsSound size) {offset length : Nat}
    (h : m.place offset length = .ok n) : n.IsSound size := by
  obtain ⟨hsize, mapped, reach, fits⟩ := sound
  unfold SparseMap.place at h
  split at h
  · cases h
  · split at h
    · cases h
    · next apart =>
      split at h
      · cases h
      · split at h
        · cases h
        · next within =>
          cases h
          refine ⟨hsize, ?_, ?_, ?_⟩
          · rw [sum_placed, mapped, Segment.storedLength, Segment.storedLength, ite_self,
              Nat.add_zero]
          · rw [sum_placed, reach, Segment.length, Segment.length]
            dsimp only
            split <;> omega
          · dsimp only
            omega

theorem IsSound.push (sound : m.IsSound size) {entry : Octets} (h : m.push entry = .ok n) :
    n.IsSound size := by
  unfold SparseMap.push at h
  split at h
  · cases h
  · cases h
    exact sound
  · exact sound.place h

theorem IsSound.foldlM (sound : m.IsSound size) {entries : List Octets}
    (h : entries.foldlM SparseMap.push m = .ok n) : n.IsSound size := by
  induction entries generalizing m with
  | nil =>
    cases h
    exact sound
  | cons entry entries ih =>
    cases hp : m.push entry with
    | error e =>
      rw [List.foldlM_cons, hp] at h
      cases h
    | ok m' =>
      rw [List.foldlM_cons, hp] at h
      exact ih (sound.push hp) h

theorem IsSound.pushBlocks (sound : m.IsSound size) {data : ByteArray} {pos next : Nat}
    (h : m.pushBlocks data pos = .ok (n, next)) : n.IsSound size := by
  fun_induction SparseMap.pushBlocks data pos m with
  | case1 => cases h
  | case2 => cases h
  | case3 => cases h
  | case4 pos m block hb m' pushed more ih => exact ih (sound.foldlM pushed) h
  | case5 pos m block hb m' pushed last =>
    cases h
    exact sound.foldlM pushed

end SparseMap

theorem isSound_readMap {data : ByteArray} {h : Header} {size pos next : Nat} {m : SparseMap}
    (hm : readMap data h size pos = .ok (m, next)) : m.IsSound size := by
  unfold readMap at hm
  split at hm
  · cases hm
  · next entries =>
    have sound := (SparseMap.IsSound.start size).foldlM entries
    split at hm
    · exact sound.pushBlocks hm
    · cases hm
      exact sound

theorem Layout.stop_of_ofMap {data : ByteArray} {h : Header} {size pos : Nat} {l : Layout}
    (hl : ofMap data h size pos = .ok l) : l.stop ≤ l.start + size := by
  unfold ofMap at hl
  split at hl
  · cases hl
  · split at hl
    · cases hl
    · next hm =>
      split at hl
      · cases hl
      · split at hl
        · cases hl
        · split at hl
          · cases hl
          · cases hl
            obtain ⟨-, mapped, -, fits⟩ := isSound_readMap hm
            rw [stop, mapped]
            exact Nat.add_le_add_left fits _

theorem Layout.size_of_ofMap {data : ByteArray} {h : Header} {size pos : Nat} {l : Layout}
    (hl : ofMap data h size pos = .ok l) : h.realSize = .ok l.size := by
  unfold ofMap at hl
  split at hl
  · cases hl
  · split at hl
    · cases hl
    · next hm =>
      split at hl
      · cases hl
      · next realSize real =>
        split at hl
        · cases hl
        · next whole =>
          split at hl
          · cases hl
          · cases hl
            rw [real, Layout.size, (isSound_readMap hm).reach, Decidable.not_not.1 whole]

section Members

variable {data : ByteArray} {m : Member} {l : Layout} {next : Nat}

theorem Member.layout_cases (h : m.layout data = .ok (l, next)) :
    (m.header.type = Text.encode "S" ∧ Layout.ofMap data m.header m.size m.start = .ok l ∧
      next = m.stop + (l.start - m.start)) ∨
    (m.header.type ≠ Text.encode "S" ∧ l = ⟨m.start, [.stored m.size]⟩ ∧ next = m.stop) := by
  unfold layout at h
  split at h
  · next sparse =>
    cases ho : Layout.ofMap data m.header m.size m.start with
    | error e =>
      rw [ho] at h
      cases h
    | ok l' =>
      rw [ho] at h
      cases h
      exact .inl ⟨sparse, rfl, rfl⟩
  · next plain =>
    cases h
    exact .inr ⟨plain, rfl, rfl⟩

/-- The size that a header tells for a content. For a sparse file this is not the size of the
member. -/
def Member.toldSize (m : Member) : Except Fault Nat :=
  if m.header.type = Text.encode "S" then m.header.realSize else .ok m.size

theorem Member.toldSize_of_layout (h : m.layout data = .ok (l, next)) :
    m.toldSize = .ok l.size := by
  unfold toldSize
  obtain ⟨sparse, mapped, -⟩ | ⟨plain, rfl, -⟩ := layout_cases h
  · rw [if_pos sparse]
    exact Layout.size_of_ofMap mapped
  · rw [if_neg plain]
    rfl

theorem Member.stop_of_layout (h : m.layout data = .ok (l, next)) : l.stop ≤ next := by
  have padded := PlainFile.le_padded m.size
  obtain ⟨-, mapped, rfl⟩ | ⟨-, rfl, rfl⟩ := layout_cases h
  · have behind := Layout.le_of_ofMap mapped
    have within := Layout.stop_of_ofMap mapped
    rw [Member.stop]
    omega
  · exact Nat.add_le_add_left padded m.start

end Members

/-! ## Entries and their members -/

/-- **Whether a member is listed as an entry:** its header is at a position of the archive, and the
entry has the path and the content that are described there. -/
structure Member.IsListedAs (data : ByteArray) (m : Member) (e : Entry) : Prop where
  placed : ∃ (pos : Nat) (d : Description), Member.at? data pos d.extensions = .ok (some m) ∧
    e.path = fieldText (d.pathOf m.header)
  laid : ∃ next, m.layout data = .ok (e.layout, next)

section Listed

variable {data : ByteArray} {pos next : Nat} {d : Description} {e : Entry}

theorem exists_member_of_lookAt {less : data.size - next < data.size - pos}
    (h : Found.lookAt data pos d = .entry e next less) :
    ∃ m, Member.at? data pos d.extensions = .ok (some m) ∧
      e.path = fieldText (d.pathOf m.header) ∧ m.layout data = .ok (e.layout, next) := by
  unfold Found.lookAt at h
  split at h
  · cases h
  · cases h
  · next m here =>
    unfold Found.ofMember at h
    split at h
    · cases h
    · cases h
    · unfold Found.ofEntry at h
      split at h
      · cases h
      · next laid =>
        cases h
        exact ⟨m, here, rfl, laid⟩

theorem exists_member_of_mem_startingAt (he : e ∈ (Listing.startingAt data pos d).entries) :
    ∃ m, Member.IsListedAs data m e := by
  revert he
  fun_induction Listing.startingAt data pos d with
  | case1 pos d fault look => exact nofun
  | case2 pos d d' next less look ih => exact ih
  | case3 pos d first next less look rest ih =>
    intro he
    rcases List.mem_cons.1 he with rfl | later
    · obtain ⟨m, here, path, laid⟩ := exists_member_of_lookAt look
      exact ⟨m, ⟨pos, d, here, path⟩, next, laid⟩
    · exact ih later

/-- **Every entry is listed for a member,** and its content has the size that is told there. -/
theorem exists_member_of_mem (he : e ∈ (Listing.ofArchive data).entries) :
    ∃ m, Member.IsListedAs data m e ∧ m.toldSize = .ok e.layout.size := by
  obtain ⟨m, listed⟩ := exists_member_of_mem_startingAt he
  obtain ⟨next, laid⟩ := listed.laid
  exact ⟨m, listed, Member.toldSize_of_layout laid⟩

end Listed

/-! ## Archives without a fault -/

section Faultless

variable {data : ByteArray} {pos next : Nat} {d : Description} {e : Entry}

theorem le_of_at? {x : Option Octets} {m : Option Member} (h : Member.at? data pos x = .ok m) :
    pos ≤ data.size := by
  unfold Member.at? at h
  split at h
  · cases h
  · next inside => exact Nat.not_lt.1 inside

theorem le_of_lookAt (data : ByteArray) (pos : Nat) (d : Description) :
    (∃ fault, Found.lookAt data pos d = .nothing (some fault)) ∨ pos ≤ data.size := by
  unfold Found.lookAt
  split
  · next fault _ => exact .inl ⟨fault, rfl⟩
  · next h => exact .inr (le_of_at? h)
  · next h => exact .inr (le_of_at? h)

theorem stop_of_lookAt {less : data.size - next < data.size - pos}
    (h : Found.lookAt data pos d = .entry e next less) : e.layout.stop ≤ next := by
  obtain ⟨m, -, -, laid⟩ := exists_member_of_lookAt h
  exact Member.stop_of_layout laid

/-- **An archive that is listed without a fault** goes on to the end of every content. -/
theorem stop_le_of_mem_startingAt (h : (Listing.startingAt data pos d).fault = none) :
    pos ≤ data.size ∧ ∀ e ∈ (Listing.startingAt data pos d).entries, e.layout.stop ≤ data.size := by
  fun_induction Listing.startingAt data pos d with
  | case1 pos d fault look =>
    cases h
    obtain ⟨fault, faulty⟩ | within := le_of_lookAt data pos d
    · rw [look] at faulty
      cases faulty
    · exact ⟨within, List.forall_mem_nil _⟩
  | case2 pos d d' next less look ih =>
    obtain ⟨fault, faulty⟩ | within := le_of_lookAt data pos d
    · rw [look] at faulty
      cases faulty
    · exact ⟨within, (ih h).2⟩
  | case3 pos d e next less look rest ih =>
    obtain ⟨fault, faulty⟩ | within := le_of_lookAt data pos d
    · rw [look] at faulty
      cases faulty
    · obtain ⟨behind, later⟩ := ih h
      refine ⟨within, List.forall_mem_cons.2 ⟨?_, later⟩⟩
      exact Nat.le_trans (stop_of_lookAt look) behind

/-- **The contents of an archive without a fault are complete.** -/
theorem size_read_of_mem (h : (Listing.ofArchive data).fault = none)
    (he : e ∈ (Listing.ofArchive data).entries) : (e.layout.read data).size = e.layout.size :=
  Layout.size_read ((stop_le_of_mem_startingAt h).2 e he)

end Faultless

end ImageBuild.Archive
