/-!
# Octets and text

Requests, progress frames and configuration files are sequences of octets
whose text is UTF-8. `encode` writes a string as octets and `decode?` reads
octets that are well formed; the two are inverse (`decode?_encode`,
`encode_of_decode?`).
-/

namespace ImageBuild

/-- A sequence of octets, taken one at a time from the front. -/
abbrev Octets := List UInt8

/-- Stored octets are compared in one way, whatever else is imported. -/
instance (priority := 2000) decEqByteArray : DecidableEq ByteArray := ByteArray.instDecidableEq

namespace Text

def encode (s : String) : Octets :=
  s.toByteArray.data.toList

/-- The string with these UTF-8 octets, if they are well formed. -/
def decode? (bs : Octets) : Option String :=
  String.fromUTF8? bs.toByteArray

theorem decode?_encode (s : String) : decode? (encode s) = some s := by
  have h : (encode s).toByteArray = s.toByteArray := by
    apply ByteArray.ext
    simp [encode]
  unfold decode? String.fromUTF8?
  rw [h]
  simp [s.isValidUTF8, String.fromUTF8]

theorem encode_of_decode? {bs : Octets} {s : String} (h : decode? bs = some s) :
    encode s = bs := by
  unfold decode? String.fromUTF8? at h
  split at h
  · cases h
    simp [encode, String.fromUTF8]
  · cases h

theorem encode_injective {s t : String} (h : encode s = encode t) : s = t := by
  have := congrArg decode? h
  rwa [decode?_encode, decode?_encode, Option.some.injEq] at this

@[simp] theorem encode_append (s t : String) : encode (s ++ t) = encode s ++ encode t := by
  simp [encode]

theorem encode_ofList (cs : List Char) :
    encode (String.ofList cs) = cs.flatMap String.utf8EncodeChar := by
  simp [encode, String.toByteArray_ofList, List.utf8Encode]

@[simp] theorem length_encode (s : String) : (encode s).length = s.utf8ByteSize := rfl

end Text
end ImageBuild
