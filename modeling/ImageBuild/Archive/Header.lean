import ImageBuild.Archive.Fault
import ImageBuild.Text.Blank
import ImageBuild.Text.Integer

/-!
# Headers of archive members

An archive is a sequence of blocks of 512 octets. The header of a member is
one block with fields at fixed places: a path, numbers in octal digits, a
checksum over the block, the type of the member and a mark that tells the
dialect. The dialect decides which further fields there are.
-/

namespace ImageBuild.Archive

def blockSize : Nat := 512

theorem blockSize_pos : 0 < blockSize := by decide

def upToZero (field : Octets) : Octets := field.takeWhile (· != 0)

def readOctal (field : Octets) : Except NumeralFault Nat :=
  let field := upToZero field
  match Text.decode? field with
  | none => .error (.notText field)
  | some text =>
    match Text.Integer.readUnsigned 8 Text.Integer.maxU64 (Text.trim text.toList) with
    | .ok n => .ok n
    | .error _ => .error (.notNumber text)

/-- The number whose octets these are, most significant first. -/
def bigEndian (field : Octets) : Nat := field.foldl (fun n b => n * 256 + b.toNat) 0

/-- Reads a number that may be too large for octal digits: when the first bit
is set, it is in the eight octets at the end of the field. -/
def readLarge (field : Octets) : Except NumeralFault Nat :=
  if 0x80 ≤ field.headD 0 then .ok (bigEndian (field.drop (field.length - 8)))
  else readOctal field

/-- Text in a field, which need not be well formed. -/
def fieldText (field : Octets) : String := String.ofList (Text.Utf8.lossy field)

structure Header where
  block : ByteArray

namespace Header

@[irreducible] def field (h : Header) (start length : Nat) : Octets :=
  (h.block.extract start (start + length)).data.toList

def type (h : Header) : Octets := h.field 156 1

/-- Whether the member is of a type that tells something about other members:
a long name, a long link, or attributes of one member or of all. -/
def isAuxiliary (h : Header) : Bool :=
  [Text.encode "L", Text.encode "K", Text.encode "x", Text.encode "g"].contains h.type

/-- Whether the header has the fields of the standard. -/
def isUstar (h : Header) : Bool := h.field 257 8 == Text.encode "ustar\x0000"

/-- Whether the header has the fields of the GNU dialect. -/
def isGnu (h : Header) : Bool := h.field 257 8 == Text.encode "ustar  \x00"

/-- Whether the header is all zeros, as at the end of an archive. -/
def isZero (h : Header) : Bool := h.block.data.all (· == 0)

def name (h : Header) : Octets := upToZero (h.field 0 100)

/-- The path of the member. The standard has a field for the first part of a
long path. -/
def path (h : Header) : Octets :=
  let first := if h.isUstar then upToZero (h.field 345 155) else []
  if first = [] then h.name else first ++ 0x2F :: h.name

/-- The sum over the octets of the header, with spaces for the checksum. -/
def sum (h : Header) : Nat :=
  ((h.field 0 148) ++ (h.field 156 356)).foldl (fun n b => n + b.toNat) (8 * 0x20)

def checkSum (h : Header) : Except Fault Unit :=
  match readOctal (h.field 148 8) with
  | .error e => .error (.numeral e (.checksum (fieldText h.path)))
  | .ok n => if n = h.sum then .ok () else .error .checksumMismatch

/-- The size of the content as the header tells it. -/
def size (h : Header) : Except Fault Nat :=
  match readLarge (h.field 124 12) with
  | .error e => .error (.numeral e (.size (fieldText h.path)))
  | .ok n => .ok n

/-- The group and the user that own the member. -/
def owner (h : Header) : String :=
  fieldText (upToZero (h.field 297 32)) ++ ":" ++ fieldText (upToZero (h.field 265 32))

/-- The size of a sparse file, holes included. -/
def realSize (h : Header) : Except Fault Nat :=
  match readLarge (h.field 483 12) with
  | .error e => .error (.numeral e (.realSize h.owner))
  | .ok n => .ok n

end Header

/-- The block at a position, if the archive does not end there. -/
def blockAt (data : ByteArray) (pos : Nat) : Except Fault (Option ByteArray) :=
  if data.size ≤ pos then .ok none
  else if data.size < pos + blockSize then .error .partialBlock
  else .ok (some (data.extract pos (pos + blockSize)))

theorem le_of_blockAt {data block : ByteArray} {pos : Nat}
    (h : blockAt data pos = .ok (some block)) : pos + blockSize ≤ data.size := by
  unfold blockAt at h
  split at h
  · cases h
  · split at h
    · cases h
    · omega

end ImageBuild.Archive
