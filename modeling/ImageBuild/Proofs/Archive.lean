import ImageBuild.Archive.Lookup
import Mathlib.Data.List.Basic

/-!
# Archives of plain files

A plain file is a header block of neither dialect, with its checksum, and a content
that is filled up to whole blocks. An archive of plain files is listed file by file,
and the wanted file is the first one at its path, with the octets that were put in
(`Summary.ofArchive_archive`).
-/

namespace ImageBuild.Archive

/-! ## Octets in their places -/

section Places

variable {before middle after : Octets}

theorem extract_middle :
    (before ++ (middle ++ after)).toByteArray.extract before.length
      (before.length + middle.length) = middle.toByteArray := by
  apply ByteArray.ext
  apply Array.toList_inj.1
  simp [ByteArray.data_extract]

theorem blockAt_middle (h : middle.length = blockSize) :
    blockAt (before ++ (middle ++ after)).toByteArray before.length =
      .ok (some middle.toByteArray) := by
  have size : (before ++ (middle ++ after)).toByteArray.size =
      before.length + (blockSize + after.length) := by simp [h]
  have pos := blockSize_pos
  unfold blockAt
  rw [if_neg (by omega), if_neg (by omega), ← h, extract_middle]

theorem slice_middle :
    Layout.slice (before ++ (middle ++ after)).toByteArray before.length middle.length =
      middle.toByteArray := by
  have size : (before ++ (middle ++ after)).toByteArray.size =
      before.length + (middle.length + after.length) := by simp
  unfold Layout.slice
  rw [Nat.min_eq_left (by omega), extract_middle]

end Places

/-! ## Plain files -/

def part (block : Octets) (start length : Nat) : Octets := (block.drop start).take length

theorem field_part (block : Octets) (start length : Nat) :
    (Header.mk block.toByteArray).field start length = part block start length := by
  unfold Header.field part
  simp [ByteArray.data_extract, List.extract_eq_take_drop]

/-- A header block of a plain file with a content of `size` octets. -/
structure IsPlain (block : Octets) (size : Nat) : Prop where
  length : block.length = blockSize
  given : block.all (· == 0) = false
  summed : readOctal (part block 148 8) =
    .ok ((part block 0 148 ++ part block 156 356).foldl (fun n b => n + b.toNat) (8 * 0x20))
  sized : readLarge (part block 124 12) = .ok size
  notUstar : part block 257 8 ≠ Text.encode "ustar\x0000"
  notGnu : part block 257 8 ≠ Text.encode "ustar  \x00"
  notSparse : part block 156 1 ≠ Text.encode "S"

/-- A plain file in an archive. -/
structure PlainFile where
  block : Octets
  content : Octets
  isPlain : IsPlain block content.length

namespace PlainFile

def header (f : PlainFile) : Header := ⟨f.block.toByteArray⟩

def path (f : PlainFile) : String := fieldText (upToZero (part f.block 0 100))

def octets (f : PlainFile) : Octets :=
  f.block ++ (f.content ++
    List.replicate (Member.padded f.content.length - f.content.length) 0)

def member (f : PlainFile) (pos : Nat) : Member := ⟨f.header, f.content.length, pos + blockSize⟩

theorem le_padded (n : Nat) : n ≤ Member.padded n := by
  unfold Member.padded
  have := blockSize_pos
  have := Nat.div_add_mod (n + (blockSize - 1)) blockSize
  have := Nat.mod_lt (n + (blockSize - 1)) blockSize_pos
  have := Nat.mul_comm blockSize ((n + (blockSize - 1)) / blockSize)
  omega

theorem length_octets (f : PlainFile) :
    f.octets.length = blockSize + Member.padded f.content.length := by
  have := le_padded f.content.length
  simp only [octets, List.length_append, List.length_replicate, f.isPlain.length]
  omega

@[simp] theorem isZero_header (f : PlainFile) : f.header.isZero = false := by
  simpa [Header.isZero, header] using f.isPlain.given

@[simp] theorem checkSum_header (f : PlainFile) : f.header.checkSum = .ok () := by
  simp only [header, Header.checkSum, Header.sum, field_part, f.isPlain.summed, if_true]

@[simp] theorem size_header (f : PlainFile) : f.header.size = .ok f.content.length := by
  simp only [header, Header.size, field_part, f.isPlain.sized]

@[simp] theorem isUstar_header (f : PlainFile) : f.header.isUstar = false := by
  simpa only [header, Header.isUstar, field_part, beq_eq_false_iff_ne] using f.isPlain.notUstar

@[simp] theorem isGnu_header (f : PlainFile) : f.header.isGnu = false := by
  simpa only [header, Header.isGnu, field_part, beq_eq_false_iff_ne] using f.isPlain.notGnu

theorem type_header (f : PlainFile) : f.header.type ≠ Text.encode "S" := by
  simpa only [header, Header.type, field_part] using f.isPlain.notSparse

theorem path_header (f : PlainFile) : fieldText f.header.path = f.path := by
  simp only [Header.path, isUstar_header, Bool.false_eq_true, if_false, if_true, Header.name, path]
  simp only [header, field_part]

end PlainFile

def archive (files : List PlainFile) : Octets := files.flatMap PlainFile.octets

/-- The entry of a plain file that stands at a position. -/
def PlainFile.entry (f : PlainFile) (pos : Nat) : Entry :=
  ⟨f.path, ⟨pos + blockSize, [.stored f.content.length]⟩⟩

/-- The entries of an archive of plain files from a position on. -/
def entriesFrom (pos : Nat) : List PlainFile → List Entry
  | [] => []
  | f :: rest => f.entry pos :: entriesFrom (pos + f.octets.length) rest

theorem length_entriesFrom (pos : Nat) (files : List PlainFile) :
    (entriesFrom pos files).length = files.length := by
  induction files generalizing pos with
  | nil => rfl
  | cons f rest ih => rw [entriesFrom, List.length_cons, ih, List.length_cons]

/-! ## Listing -/

section Listing

variable {before after : Octets}

/-- **A plain file** is found where it is. -/
theorem at?_plain (f : PlainFile)
    (small : (before ++ (f.octets ++ after)).length ≤ Text.Integer.maxU64) :
    Member.at? (before ++ (f.octets ++ after)).toByteArray before.length none =
      .ok (some (f.member before.length)) := by
  have there : (before ++ (f.octets ++ after)).toByteArray =
      (before ++ (f.block ++ (f.content ++ List.replicate
        (Member.padded f.content.length - f.content.length) 0 ++ after))).toByteArray := by
    simp only [PlainFile.octets, List.append_assoc]
  have inside : ¬ (before ++ (f.octets ++ after)).toByteArray.size < before.length := by simp
  have same (n : Nat) : Member.sizeOf f.header n none = n := by
    unfold Member.sizeOf
    split <;> rfl
  have fits : ¬ (Text.Integer.maxU64 < f.content.length + (blockSize - 1) ∨
      Text.Integer.maxU64 < (f.member before.length).stop) := by
    have := PlainFile.le_padded f.content.length
    simp only [List.length_append, f.length_octets] at small
    simp only [Member.stop, PlainFile.member]
    generalize Text.Integer.maxU64 = m at small
    omega
  unfold Member.at?
  rw [if_neg inside, there, blockAt_middle f.isPlain.length]
  show Member.ofHeader f.header before.length none = _
  simp only [Member.ofHeader, PlainFile.isZero_header, PlainFile.checkSum_header,
    PlainFile.size_header, same, Bool.false_eq_true, if_false, Member.place]
  exact (if_neg fits).trans rfl

theorem lookAt_plain (f : PlainFile)
    (small : (before ++ (f.octets ++ after)).length ≤ Text.Integer.maxU64)
    (less : (before ++ (f.octets ++ after)).toByteArray.size - (before.length + f.octets.length) <
      (before ++ (f.octets ++ after)).toByteArray.size - before.length) :
    Found.lookAt (before ++ (f.octets ++ after)).toByteArray before.length {} =
      .entry (f.entry before.length) (before.length + f.octets.length) less := by
  have found := at?_plain f small
  have describes : Description.add? (before ++ (f.octets ++ after)).toByteArray
      (f.member before.length) {} = none := by
    simp [Description.add?, Member.canDescribe, PlainFile.member]
  have stored : (f.member before.length).layout (before ++ (f.octets ++ after)).toByteArray =
      .ok (⟨before.length + blockSize, [.stored f.content.length]⟩,
        before.length + f.octets.length) := by
    unfold Member.layout
    rw [if_neg (show (f.member before.length).header.type ≠ _ from f.type_header), f.length_octets,
      ← Nat.add_assoc]
    rfl
  unfold Found.lookAt
  split
  · next h => cases h.symm.trans found
  · next h => cases h.symm.trans found
  · next m h =>
    cases h.symm.trans found
    unfold Found.ofMember
    rw [describes]
    simp only [Found.ofEntry]
    split
    · next hl => cases hl.symm.trans stored
    · next layout next hl =>
      cases hl.symm.trans stored
      simp only [PlainFile.entry, ← f.path_header]
      rfl

end Listing

theorem startingAt_archive (files : List PlainFile) (before : Octets)
    (small : (before ++ archive files).length ≤ Text.Integer.maxU64) :
    Listing.startingAt (before ++ archive files).toByteArray before.length {} =
      ⟨entriesFrom before.length files, none⟩ := by
  induction files generalizing before with
  | nil =>
    have size : (before ++ archive []).toByteArray.size = before.length := by simp [archive]
    have ends : Member.at? (before ++ archive []).toByteArray before.length none = .ok none := by
      unfold Member.at? blockAt
      rw [if_neg (by omega), if_pos (by omega)]
    have nothing : Found.lookAt (before ++ archive []).toByteArray before.length {} =
        .nothing none := by
      unfold Found.lookAt
      split
      · next h => cases h.symm.trans ends
      · rfl
      · next h => cases h.symm.trans ends
    rw [Listing.startingAt, nothing]
    rfl
  | cons f rest ih =>
    have there : before ++ archive (f :: rest) = before ++ (f.octets ++ archive rest) := rfl
    have next : before ++ (f.octets ++ archive rest) = (before ++ f.octets) ++ archive rest :=
      (List.append_assoc ..).symm
    have length : (before ++ f.octets).length = before.length + f.octets.length :=
      List.length_append
    rw [there] at small ⊢
    have less : (before ++ (f.octets ++ archive rest)).toByteArray.size -
        (before.length + f.octets.length) <
          (before ++ (f.octets ++ archive rest)).toByteArray.size - before.length := by
      have := blockSize_pos
      simp only [List.size_toByteArray, List.length_append, f.length_octets]
      omega
    rw [Listing.startingAt, lookAt_plain f small less]
    dsimp only
    rw [← length, next, ih (before ++ f.octets) (next ▸ small), length]
    rfl

/-- **An archive of plain files** is listed file by file. -/
theorem ofArchive_archive (files : List PlainFile)
    (small : (archive files).length ≤ Text.Integer.maxU64) :
    Listing.ofArchive (archive files).toByteArray = ⟨entriesFrom 0 files, none⟩ :=
  startingAt_archive files [] small

/-! ## Reading -/

theorem read_entry (f : PlainFile) (before after : Octets) :
    (f.entry before.length).layout.read (before ++ (f.octets ++ after)).toByteArray =
      f.content.toByteArray := by
  have there : before ++ (f.octets ++ after) =
      (before ++ f.block) ++ (f.content ++ (List.replicate
        (Member.padded f.content.length - f.content.length) 0 ++ after)) := by
    simp only [PlainFile.octets, List.append_assoc]
  have start : before.length + blockSize = (before ++ f.block).length := by
    rw [List.length_append, f.isPlain.length]
  show Layout.slice _ (before.length + blockSize) f.content.length ++ .empty = _
  rw [there, start, slice_middle, ByteArray.append_empty]

theorem find?_entriesFrom (wanted : String) (files : List PlainFile) (before : Octets) :
    (Summary.find? wanted (entriesFrom before.length files)).map
        (·.layout.read (before ++ archive files).toByteArray) =
      (files.find? fun f => normalPath f.path == normalPath wanted).map
        (·.content.toByteArray) := by
  induction files generalizing before with
  | nil => rfl
  | cons f rest ih =>
    have there : before ++ archive (f :: rest) = before ++ (f.octets ++ archive rest) := rfl
    have next : before ++ (f.octets ++ archive rest) = (before ++ f.octets) ++ archive rest :=
      (List.append_assoc ..).symm
    have length : before.length + f.octets.length = (before ++ f.octets).length :=
      List.length_append.symm
    have path : (f.entry before.length).path = f.path := rfl
    rw [there]
    by_cases here : (normalPath f.path == normalPath wanted) = true
    · simp only [Summary.find?, entriesFrom, List.find?_cons, path, here, Option.map_some,
        read_entry]
    · have here := Bool.eq_false_iff.2 here
      have later := ih (before ++ f.octets)
      simp only [Summary.find?] at later
      simp only [Summary.find?, entriesFrom, List.find?_cons, path, here, next, length]
      exact later

/-- **The wanted file** of an archive of plain files is the first one at its path,
with the octets that were put in. -/
theorem Summary.ofArchive_archive (wanted : String) (files : List PlainFile)
    (small : (archive files).length ≤ Text.Integer.maxU64) :
    Summary.ofArchive wanted (archive files).toByteArray =
      match files.find? fun f => normalPath f.path == normalPath wanted with
      | none => .ok ⟨files.length, none⟩
      | some f =>
        match String.fromUTF8? f.content.toByteArray with
        | none => .error .notText
        | some text => .ok ⟨files.length, some text⟩ := by
  have found := find?_entriesFrom wanted files []
  unfold Summary.ofArchive
  simp only [Archive.ofArchive_archive files small, length_entriesFrom]
  rcases hf : files.find? fun f => normalPath f.path == normalPath wanted with _ | f <;>
    rw [hf] at found
  · have none := Option.map_eq_none_iff.1 found
    simp only [List.length_nil] at none
    simp only [none, hf]
  · obtain ⟨e, he, read⟩ := Option.map_eq_some_iff.1 found
    simp only [List.length_nil, List.nil_append] at he read
    cases text : String.fromUTF8? f.content.toByteArray with
    | none => simp only [he, read, hf, text]
    | some text' => simp only [he, read, hf, text]

/-! ## A context with two Dockerfiles -/

/-- A header block with a name, a size and a checksum. -/
def headerBlock (name size sum : String) : Octets :=
  let put (text : String) (length : Nat) : Octets :=
    Text.encode text ++ List.replicate (length - (Text.encode text).length) 0
  put name 124 ++ put size 24 ++ put sum 364

/-- A context with a Dockerfile in its usual place and another one beside it. -/
def forked : List PlainFile :=
  [⟨headerBlock "Dockerfile" "7" "2457", Text.encode "FROM a\n", by constructor <;> decide +kernel⟩,
    ⟨headerBlock "Other" "7" "1471", Text.encode "FROM b\n", by constructor <;> decide +kernel⟩]

theorem forked_small : (archive forked).length ≤ Text.Integer.maxU64 := by decide +kernel

theorem Summary.ofArchive_forked :
    Summary.ofArchive "Dockerfile" (archive forked).toByteArray = .ok ⟨2, some "FROM a\n"⟩ ∧
      Summary.ofArchive "Other" (archive forked).toByteArray = .ok ⟨2, some "FROM b\n"⟩ := by
  rw [ofArchive_archive "Dockerfile" forked forked_small,
    ofArchive_archive "Other" forked forked_small]
  exact ⟨by decide +kernel, by decide +kernel⟩

end ImageBuild.Archive
