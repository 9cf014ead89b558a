import ImageBuild.Text.Decimal

/-!
# Socket addresses

A socket address is an IPv4 or IPv6 address with a port, written
`127.0.0.1:80` or `[::1]:80`. The written form of an IPv6 address leaves out
its longest run of zero groups, the first of the longest ones, if it has more
than one group.
-/

namespace ImageBuild.Net

structure Ipv4 where
  a : UInt8
  b : UInt8
  c : UInt8
  d : UInt8
  deriving DecidableEq

/-- An IPv6 address: eight groups of 16 bits. -/
structure Ipv6 where
  groups : List UInt16
  length_eq : groups.length = 8
  deriving DecidableEq

/-- An address and a port. The scope of an IPv6 address is zero when it is
not given. -/
inductive SocketAddress where
  | v4 (ip : Ipv4) (port : UInt16)
  | v6 (ip : Ipv6) (scope : UInt32) (port : UInt16)
  deriving DecidableEq

/-! ### Writing -/

def Ipv4.chars (ip : Ipv4) : List Char :=
  Text.Decimal.chars ip.a.toNat ++ '.' :: Text.Decimal.chars ip.b.toNat ++
    '.' :: Text.Decimal.chars ip.c.toNat ++ '.' :: Text.Decimal.chars ip.d.toNat

def joinGroups : List UInt16 → List Char
  | [] => []
  | [g] => Text.Decimal.hexChars g.toNat
  | g :: gs => Text.Decimal.hexChars g.toNat ++ ':' :: joinGroups gs

structure Run where
  start : Nat := 0
  length : Nat := 0

/-- The longest run of zeros from position `i` on, given the run that ends
before `i` and the longest one so far. -/
def longestRun (i : Nat) (current longest : Run) : List UInt16 → Run
  | [] => longest
  | g :: gs =>
    if g = 0 then
      let current : Run := if current.length = 0 then ⟨i, 1⟩ else ⟨current.start, current.length + 1⟩
      longestRun (i + 1) current (if longest.length < current.length then current else longest) gs
    else longestRun (i + 1) {} longest gs

def Ipv6.chars (ip : Ipv6) : List Char :=
  match ip.groups with
  | [0, 0, 0, 0, 0, 0xFFFF, x, y] =>
    "::ffff:".toList ++
      (Ipv4.chars ⟨(x >>> 8).toUInt8, x.toUInt8, (y >>> 8).toUInt8, y.toUInt8⟩)
  | groups =>
    let run := longestRun 0 {} {} groups
    if 1 < run.length then
      joinGroups (groups.take run.start) ++ ':' :: ':' ::
        joinGroups (groups.drop (run.start + run.length))
    else joinGroups groups

def SocketAddress.text : SocketAddress → String
  | .v4 ip port => String.ofList (ip.chars ++ ':' :: Text.Decimal.chars port.toNat)
  | .v6 ip scope port =>
    let scope := if scope = 0 then [] else '%' :: Text.Decimal.chars scope.toNat
    String.ofList ('[' :: ip.chars ++ scope ++ ']' :: ':' :: Text.Decimal.chars port.toNat)

/-! ### Reading -/

def digit? (radix : Nat) (c : Char) : Option Nat :=
  let d? :=
    if '0' ≤ c ∧ c ≤ '9' then some (c.toNat - 48)
    else if 'a' ≤ c ∧ c ≤ 'f' then some (c.toNat - 87)
    else if 'A' ≤ c ∧ c ≤ 'F' then some (c.toNat - 55)
    else none
  d?.filter (· < radix)

def takeDigits (radix : Nat) : List Char → List Nat × List Char
  | [] => ([], [])
  | c :: cs =>
    match digit? radix c with
    | some d =>
      let (ds, rest) := takeDigits radix cs
      (d :: ds, rest)
    | none => ([], c :: cs)

/-- Reads a number up to `bound`, of at most `width` digits. -/
def readNumber (radix : Nat) (width : Option Nat) (zeros : Bool) (bound : Nat) (s : List Char) :
    Option (Nat × List Char) :=
  let (ds, rest) := takeDigits radix s
  let n := ds.foldl (fun n d => n * radix + d) 0
  if ds = [] ∨ bound < n then none
  else if width.any (· < ds.length) then none
  else if ¬ zeros ∧ ds.head? = some 0 ∧ 1 < ds.length then none
  else some (n, rest)

def readChar (c : Char) : List Char → Option (List Char)
  | [] => none
  | d :: rest => if c = d then some rest else none

/-- Reads one of the four numbers of an IPv4 address. -/
def readByte (s : List Char) : Option (UInt8 × List Char) :=
  (readNumber 10 (some 3) false 255 s).map fun (n, rest) => (UInt8.ofNat n, rest)

def Ipv4.read (s : List Char) : Option (Ipv4 × List Char) := do
  let (a, s) ← readByte s
  let (b, s) ← readByte (← readChar '.' s)
  let (c, s) ← readByte (← readChar '.' s)
  let (d, s) ← readByte (← readChar '.' s)
  return (⟨a, b, c, d⟩, s)

/-- The two groups that hold an IPv4 address. -/
def Ipv4.groups (ip : Ipv4) : List UInt16 :=
  [ip.a.toUInt16 <<< 8 ||| ip.b.toUInt16, ip.c.toUInt16 <<< 8 ||| ip.d.toUInt16]

/-- Reads up to `limit` groups, all but the first after a colon. The last two
may be given as an IPv4 address, which the result tells. -/
def readGroups : Nat → Bool → List Char → List UInt16 × Bool × List Char
  | 0, _, s => ([], false, s)
  | limit + 1, first, s =>
    match if first then some s else readChar ':' s with
    | none => ([], false, s)
    | some t =>
      match if 1 ≤ limit then Ipv4.read t else none with
      | some (ip, rest) => (ip.groups, true, rest)
      | none =>
        match readNumber 16 (some 4) true 0xFFFF t with
        | none => ([], false, s)
        | some (g, rest) =>
          let (gs, embedded, rest) := readGroups limit false rest
          (UInt16.ofNat g :: gs, embedded, rest)

def Ipv6.ofGroups? (groups : List UInt16) : Option Ipv6 :=
  if h : groups.length = 8 then some ⟨groups, h⟩ else none

/-- Reads an IPv6 address. A double colon stands for at least one group, and
an IPv4 address cannot stand before it. -/
def Ipv6.read (s : List Char) : Option (Ipv6 × List Char) := do
  let (front, embedded, s) := readGroups 8 true s
  if front.length = 8 then
    let ip ← ofGroups? front
    return (ip, s)
  else if embedded then none
  else
    let s ← readChar ':' s
    let s ← readChar ':' s
    let (back, _, s) := readGroups (7 - front.length) true s
    let ip ← ofGroups? (front ++ List.replicate (8 - front.length - back.length) 0 ++ back)
    return (ip, s)

/-- Reads a colon and a port up to the end of the text. -/
def readPort (s : List Char) : Option UInt16 := do
  let s ← readChar ':' s
  let (n, rest) ← readNumber 10 none true 0xFFFF s
  if rest = [] then return UInt16.ofNat n else none

/-- Reads the scope of an IPv6 address, zero if there is none. -/
def readScope (s : List Char) : Option (UInt32 × List Char) :=
  match s with
  | '%' :: rest =>
    (readNumber 10 none true 0xFFFFFFFF rest).map fun (n, rest) => (UInt32.ofNat n, rest)
  | s => some (0, s)

def readV4 (s : List Char) : Option SocketAddress := do
  let (ip, s) ← Ipv4.read s
  let port ← readPort s
  return .v4 ip port

def readV6 (s : List Char) : Option SocketAddress := do
  let s ← readChar '[' s
  let (ip, s) ← Ipv6.read s
  let (scope, s) ← readScope s
  let s ← readChar ']' s
  let port ← readPort s
  return .v6 ip scope port

def SocketAddress.parse? (text : String) : Option SocketAddress :=
  readV4 text.toList <|> readV6 text.toList

def SocketAddress.port : SocketAddress → UInt16
  | .v4 _ port => port
  | .v6 _ _ port => port

def SocketAddress.isV6 : SocketAddress → Bool
  | .v4 .. => false
  | .v6 .. => true

end ImageBuild.Net
