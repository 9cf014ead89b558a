import ImageBuild.Sha256
import ImageBuild.Text.Decimal

/-!
# Digests as names

Uploaded contexts and images are named by SHA-256 digests in hexadecimal
after the mark `sha256:`. People may leave the mark out and shorten the rest.
-/

namespace ImageBuild.Digest

/-- The mark before a digest. -/
def mark : String := "sha256:"

def hex (bs : List UInt8) : List Char :=
  bs.flatMap fun b => [Text.Decimal.hexChar (b.toNat / 16), Text.Decimal.hexChar (b.toNat % 16)]

def name (content : ByteArray) : String :=
  mark ++ String.ofList (hex (Sha256.hash content))

/-- A name without its mark, if it has one. -/
def bare (id : String) : List Char :=
  let cs := id.toList
  if mark.toList.isPrefixOf cs then cs.drop mark.length else cs

/-- The first twelve characters of a name, its mark apart. -/
def short (id : String) : String := String.ofList ((bare id).take 12)

/-- Whether `wanted`, with or without a mark, is the beginning of a name. -/
def isNamed (id wanted : String) : Bool :=
  bare wanted ≠ [] && (bare wanted).isPrefixOf (bare id)

end ImageBuild.Digest
