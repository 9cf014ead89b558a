/-!
# SHA-256

The digest of a message is computed over blocks of 64 octets. The message is
padded with a one bit, zeros, and its length in bits. Every block is expanded
into a schedule of 64 words, which are mixed into the state one by one.
-/

namespace ImageBuild.Sha256

def constants : Array UInt32 := #[
  0x428a2f98, 0x71374491, 0xb5c0fbcf, 0xe9b5dba5, 0x3956c25b, 0x59f111f1, 0x923f82a4, 0xab1c5ed5,
  0xd807aa98, 0x12835b01, 0x243185be, 0x550c7dc3, 0x72be5d74, 0x80deb1fe, 0x9bdc06a7, 0xc19bf174,
  0xe49b69c1, 0xefbe4786, 0x0fc19dc6, 0x240ca1cc, 0x2de92c6f, 0x4a7484aa, 0x5cb0a9dc, 0x76f988da,
  0x983e5152, 0xa831c66d, 0xb00327c8, 0xbf597fc7, 0xc6e00bf3, 0xd5a79147, 0x06ca6351, 0x14292967,
  0x27b70a85, 0x2e1b2138, 0x4d2c6dfc, 0x53380d13, 0x650a7354, 0x766a0abb, 0x81c2c92e, 0x92722c85,
  0xa2bfe8a1, 0xa81a664b, 0xc24b8b70, 0xc76c51a3, 0xd192e819, 0xd6990624, 0xf40e3585, 0x106aa070,
  0x19a4c116, 0x1e376c08, 0x2748774c, 0x34b0bcb5, 0x391c0cb3, 0x4ed8aa4a, 0x5b9cca4f, 0x682e6ff3,
  0x748f82ee, 0x78a5636f, 0x84c87814, 0x8cc70208, 0x90befffa, 0xa4506ceb, 0xbef9a3f7, 0xc67178f2]

/-- The eight words that a block is mixed into. -/
structure State where
  a : UInt32
  b : UInt32
  c : UInt32
  d : UInt32
  e : UInt32
  f : UInt32
  g : UInt32
  h : UInt32
  deriving DecidableEq

def initial : State :=
  ⟨0x6a09e667, 0xbb67ae85, 0x3c6ef372, 0xa54ff53a,
    0x510e527f, 0x9b05688c, 0x1f83d9ab, 0x5be0cd19⟩

/-- A word with its bits moved to the right, the last ones to the front. -/
def rotate (x : UInt32) (n : UInt32) : UInt32 := (x >>> n) ||| (x <<< (32 - n))

/-- The number of octets that are added to a message of `n` octets, less the
eight of its length. -/
def paddingLength (n : Nat) : Nat := 1 + (119 - n % 64) % 64

/-- The octets of a number, most significant first. -/
def bigEndian (count n : Nat) : List UInt8 :=
  (List.range count).map fun i => UInt8.ofNat (n >>> (8 * (count - 1 - i)))

def pad (message : ByteArray) : ByteArray :=
  message ++ ((0x80 :: List.replicate (paddingLength message.size - 1) 0) ++
    bigEndian 8 (message.size * 8)).toByteArray

/-- The octet at a position, zero past the end. -/
def octetAt (m : ByteArray) (i : Nat) : UInt32 :=
  if h : i < m.size then (m[i]).toUInt32 else 0

def wordAt (m : ByteArray) (i : Nat) : UInt32 :=
  (octetAt m i <<< 24) ||| (octetAt m (i + 1) <<< 16) ||| (octetAt m (i + 2) <<< 8) |||
    octetAt m (i + 3)

def word (w : Array UInt32) (i : Nat) : UInt32 := w.getD i 0

/-- The next word of a schedule that has at least sixteen. -/
def nextWord (w : Array UInt32) : UInt32 :=
  let i := w.size
  let x := word w (i - 15)
  let y := word w (i - 2)
  let s0 := rotate x 7 ^^^ rotate x 18 ^^^ (x >>> 3)
  let s1 := rotate y 17 ^^^ rotate y 19 ^^^ (y >>> 10)
  word w (i - 16) + s0 + word w (i - 7) + s1

def extend : Nat → Array UInt32 → Array UInt32
  | 0, w => w
  | n + 1, w => extend n (w.push (nextWord w))

def load (m : ByteArray) : Nat → Nat → Array UInt32 → Array UInt32
  | 0, _, w => w
  | n + 1, i, w => load m n (i + 4) (w.push (wordAt m i))

def schedule (m : ByteArray) (start : Nat) : Array UInt32 :=
  extend 48 (load m 16 start (Array.mkEmpty 64))

def round (s : State) (k w : UInt32) : State :=
  let s1 := rotate s.e 6 ^^^ rotate s.e 11 ^^^ rotate s.e 25
  let choice := (s.e &&& s.f) ^^^ ((~~~ s.e) &&& s.g)
  let t1 := s.h + s1 + choice + k + w
  let s0 := rotate s.a 2 ^^^ rotate s.a 13 ^^^ rotate s.a 22
  let majority := (s.a &&& s.b) ^^^ (s.a &&& s.c) ^^^ (s.b &&& s.c)
  ⟨t1 + (s0 + majority), s.a, s.b, s.c, s.d + t1, s.e, s.f, s.g⟩

/-- Mixes the words of a schedule from number `i` on into the state. -/
def rounds (w : Array UInt32) : Nat → Nat → State → State
  | 0, _, s => s
  | n + 1, i, s => rounds w n (i + 1) (round s (word constants i) (word w i))

def compress (m : ByteArray) (start : Nat) (s : State) : State :=
  let t := rounds (schedule m start) 64 0 s
  ⟨s.a + t.a, s.b + t.b, s.c + t.c, s.d + t.d, s.e + t.e, s.f + t.f, s.g + t.g, s.h + t.h⟩

/-- Mixes blocks from a position on into the state. -/
def blocks (m : ByteArray) : Nat → Nat → State → State
  | 0, _, s => s
  | n + 1, start, s => blocks m n (start + 64) (compress m start s)

def State.words (s : State) : List UInt32 := [s.a, s.b, s.c, s.d, s.e, s.f, s.g, s.h]

def hash (message : ByteArray) : List UInt8 :=
  let m := pad message
  (blocks m (m.size / 64) 0 initial).words.flatMap fun w => bigEndian 4 w.toNat

theorem length_hash (message : ByteArray) : (hash message).length = 32 := by
  simp [hash, State.words, bigEndian]

end ImageBuild.Sha256
