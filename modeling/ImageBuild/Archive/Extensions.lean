import ImageBuild.Archive.Header

/-!
# Extended attributes of archive members

Attributes that do not fit a header stand before it as a text of lines. A
line is its own length, a space, a key, an equals sign, a value and a
newline. An empty line ends the text.
-/

namespace ImageBuild.Archive

structure Extension where
  key : Octets
  value : Octets
  deriving DecidableEq

namespace Extension

/-- The lines of a text up to the first empty one. -/
def lines (text : Octets) : List Octets :=
  (Text.pieces (· == 0x0A) text).takeWhile (· ≠ [])

def ofLine? (line : Octets) : Option Extension :=
  match line.dropWhile (· != 0x20), Text.decode? (line.takeWhile (· != 0x20)) with
  | _ :: entry, some count =>
    match Text.Integer.readUnsigned 10 Text.Integer.maxU64 count.toList with
    | .error _ => none
    | .ok n =>
      if n = line.length + 1 ∧ entry.contains 0x3D then
        some ⟨entry.takeWhile (· != 0x3D), (entry.dropWhile (· != 0x3D)).drop 1⟩
      else none
  | _, _ => none

/-- The attributes of a text; a line that is none counts as nothing. -/
def ofText (text : Octets) : List (Option Extension) := (lines text).map ofLine?

def path? (text : Octets) : Option Octets :=
  (((ofText text).filterMap id).find? (·.key == Text.encode "path")).map (·.value)

/-- The size that attributes give. Nothing behind a line that is no attribute
is looked at. -/
def size? (text : Octets) : Option Nat :=
  (((ofText text).takeWhile Option.isSome).filterMap id
    |>.find? (·.key == Text.encode "size")).bind fun e =>
      (Text.decode? e.value).bind fun s =>
        (Text.Integer.readUnsigned 10 Text.Integer.maxU64 s.toList).toOption

end Extension
end ImageBuild.Archive
