import ImageBuild.Text.Octets

/-!
# Request targets

A request target is a path with an optional query, an absolute address, or
the name of a host alone. Only its path and its query matter to the service.
A fragment is dropped, and a target with a character that has to be escaped
and is not is refused.
-/

namespace ImageBuild

/-- The path and the query of a request target. The path of a target without
one is empty. -/
structure Uri where
  path : Octets
  query : Option Octets
  deriving DecidableEq

namespace Uri

def maxLength : Nat := 65534

def isPathOctet (b : UInt8) : Bool :=
  b == 0x21 || (0x24 ≤ b && b ≤ 0x3B) || b == 0x3D || (0x40 ≤ b && b ≤ 0x5F) ||
    (0x61 ≤ b && b ≤ 0x7E) || 0x80 ≤ b || b == 0x22

def isQueryOctet (b : UInt8) : Bool :=
  b == 0x21 || (0x24 ≤ b && b ≤ 0x3B) || b == 0x3D || (0x3F ≤ b && b ≤ 0x7E) || 0x80 ≤ b

def beforeFragment (s : Octets) : Octets := s.takeWhile (· != 0x23)

def ofPath? (s : Octets) : Option Uri :=
  let path := s.takeWhile fun b => b != 0x3F && b != 0x23
  let query :=
    match s.dropWhile fun b => b != 0x3F && b != 0x23 with
    | 0x3F :: rest => some (beforeFragment rest)
    | _ => none
  if path.all isPathOctet && (query.getD []).all isQueryOctet &&
      (Text.decode? (beforeFragment s)).isSome then
    some ⟨if path = [] then [0x2F] else path, query⟩
  else none

def isHostOctet (b : UInt8) : Bool :=
  b == 0x21 || b == 0x24 || (0x26 ≤ b && b ≤ 0x2E) || (0x30 ≤ b && b ≤ 0x3B) || b == 0x3D ||
    b == 0x40 || (0x41 ≤ b && b ≤ 0x5B) || b == 0x5D || b == 0x5F || (0x61 ≤ b && b ≤ 0x7A) ||
    b == 0x7E

/-- What has been seen of the name of a host. -/
structure Host where
  colons : Nat := 0
  opened : Bool := false
  closed : Bool := false
  percent : Bool := false
  endsWithAt : Bool := false

/-- Takes up one more octet of the name of a host. A percent sign may stand
before an at sign or between brackets only, and so may more than one colon. -/
def Host.push? (h : Host) (b : UInt8) : Option Host :=
  let h := { h with endsWithAt := false }
  if b = 0x3A then if 8 ≤ h.colons then none else some { h with colons := h.colons + 1 }
  else if b = 0x5B then
    if h.percent ∨ h.opened then none else some { h with opened := true }
  else if b = 0x5D then
    if ¬ h.opened ∨ h.closed then none
    else some { h with closed := true, colons := 0, percent := false }
  else if b = 0x40 then some { h with colons := 0, percent := false, endsWithAt := true }
  else if b = 0x25 then some { h with percent := true }
  else if isHostOctet b then some h
  else none

def Host.isSound (h : Host) : Bool :=
  h.opened == h.closed && h.colons ≤ 1 && !h.endsWithAt && !h.percent

def endsHost (b : UInt8) : Bool := b == 0x2F || b == 0x3F || b == 0x23

/-- Whether octets are the name of a host, with user and port. -/
def isHost (s : Octets) : Bool :=
  match s.foldlM Host.push? {} with
  | some h => h.isSound
  | none => false

/-- The octets that the scheme of an absolute address may hold. -/
def isSchemeOctet (b : UInt8) : Bool :=
  b == 0x2B || b == 0x2D || b == 0x2E || (0x30 ≤ b && b ≤ 0x39) || (0x41 ≤ b && b ≤ 0x5A) ||
    (0x61 ≤ b && b ≤ 0x7A) || b == 0x7E

/-- The octets after the scheme of an absolute address, and the length of the
scheme. -/
def afterScheme? (s : Octets) : Option (Nat × Octets) :=
  match s.dropWhile isSchemeOctet with
  | 0x3A :: 0x2F :: 0x2F :: rest => some ((s.takeWhile isSchemeOctet).length, rest)
  | _ => none

def parse? (s : Octets) : Option Uri :=
  match s with
  | [] => none
  | [0x2A] => some ⟨[0x2A], none⟩
  | 0x2F :: _ => if s.length ≤ maxLength then ofPath? s else none
  | _ =>
    if maxLength < s.length then none
    else
      match afterScheme? s with
      | some (length, rest) =>
        let host := rest.takeWhile (!endsHost ·)
        if length ≤ 64 ∧ host ≠ [] ∧ isHost host then ofPath? (rest.dropWhile (!endsHost ·))
        else none
      | none => if s.all (!endsHost ·) ∧ isHost s then some ⟨[], none⟩ else none

end Uri
end ImageBuild
