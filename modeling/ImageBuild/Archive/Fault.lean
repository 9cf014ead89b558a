import ImageBuild.Text.Utf8

/-!
# Faults of archives

An archive that cannot be listed has one of these faults. Those in a numeric
field tell what the field was meant for.
-/

namespace ImageBuild.Archive

inductive NumeralFault where
  | notText (field : Octets)
  | notNumber (text : String)
  deriving DecidableEq

namespace NumeralFault

def message : NumeralFault → String
  | .notText field =>
    "numeric field did not have utf-8 text: " ++ String.ofList (Text.Utf8.lossy field)
  | .notNumber text => "numeric field was not a number: " ++ text

end NumeralFault

/-- What a numeric field is meant for. -/
inductive Quantity where
  | checksum (path : String)
  | size (path : String)
  /-- the size of a sparse file that belongs to `owner` -/
  | realSize (owner : String)
  | offset
  | length
  deriving DecidableEq

namespace Quantity

def text : Quantity → String
  | .checksum path => "cksum for " ++ path
  | .size path => "size for " ++ path
  | .realSize owner => "real_size for " ++ owner
  | .offset => "offset from sparse header"
  | .length => "length from sparse header"

end Quantity

/-- Why an archive cannot be listed. -/
inductive Fault where
  /-- the archive ends inside a block -/
  | partialBlock
  /-- the archive ends inside the content of a member -/
  | partialContent
  | checksumMismatch
  | numeral (fault : NumeralFault) (quantity : Quantity)
  | sizeOverflow
  /-- two descriptions of a long name, or of the target of a long link -/
  | repeatedName
  | repeatedExtensions
  /-- a description that no member follows -/
  | nothingDescribed
  | sparseForeign
  /-- the archive ends where more of the map of a sparse file should be -/
  | sparseMapMissing
  | sparseUnaligned
  | sparseOverlap
  | sparseOverflow
  /-- the map of a sparse file covers more than its content -/
  | sparseExcess
  /-- the map of a sparse file covers less than its content -/
  | sparseRemainder
  | sparseSizeMismatch
  deriving DecidableEq

namespace Fault

def message : Fault → String
  | .partialBlock => "failed to read entire block"
  | .partialContent => "unexpected EOF during skip"
  | .checksumMismatch => "archive header checksum mismatch"
  | .numeral fault quantity => fault.message ++ " when getting " ++ quantity.text
  | .sizeOverflow => "size overflow"
  | .repeatedName => "two long name entries describing the same member"
  | .repeatedExtensions => "two pax extensions entries describing the same member"
  | .nothingDescribed =>
    "members found describing a future member but no future member found"
  | .sparseForeign => "sparse entry type listed but not GNU header"
  | .sparseMapMissing => "failed to read extension"
  | .sparseUnaligned =>
    "previous block in sparse file was not aligned to 512-byte boundary"
  | .sparseOverlap => "out of order or overlapping sparse blocks"
  | .sparseOverflow => "more bytes listed in sparse file than u64 can hold"
  | .sparseExcess => "sparse file consumed more data than the header listed"
  | .sparseRemainder => "mismatch in sparse file chunks and entry size in header"
  | .sparseSizeMismatch => "mismatch in sparse file chunks and size in header"

end Fault
end ImageBuild.Archive
