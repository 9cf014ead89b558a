import ImageBuild.Json.Reader
import ImageBuild.Text.Blank
import ImageBuild.Text.Utf8
import ImageBuild.Uri

/-!
# Queries

A query is a sequence of parameters, each a name and a value. The first value
of a name counts, and an empty value counts as none, except that
`Query.values` has all values of a name.
-/

namespace ImageBuild

namespace Percent

def unplus (b : UInt8) : UInt8 := if b = 0x2B then 0x20 else b

/-- The octet that two hexadecimal digits at the front spell. -/
def hexPair? : Octets → Option UInt8
  | x :: y :: _ =>
    match Json.Quoted.hexValue? x, Json.Quoted.hexValue? y with
    | some x, some y => some (UInt8.ofNat (x * 16 + y))
    | _, _ => none
  | _ => none

/-- The octets of a text in which a percent sign and two hexadecimal digits
stand for an octet. A percent sign that is not followed by two digits stands
for itself. -/
def decode : Octets → Octets
  | [] => []
  | b :: s =>
    if b = 0x25 then
      match hexPair? s with
      | some o => o :: decode (s.drop 2)
      | none => b :: decode s
    else b :: decode s
termination_by s => s.length
decreasing_by
  · rw [List.length_drop, List.length_cons]
    omega
  · exact Nat.lt_succ_self _
  · exact Nat.lt_succ_self _

def text (s : Octets) : String :=
  String.ofList (Text.Utf8.lossy (decode (s.map unplus)))

end Percent

/-- The parameters of a query in their order. -/
structure Query where
  pairs : List (String × String)
  deriving DecidableEq

namespace Query

def pair (piece : Octets) : String × String :=
  (Percent.text (piece.takeWhile (· != 0x3D)), Percent.text ((piece.dropWhile (· != 0x3D)).drop 1))

/-- Reads a query. Empty pieces count for nothing. -/
def ofOctets (s : Octets) : Query :=
  ⟨((Text.pieces (· == 0x26) s).filter (· ≠ [])).map pair⟩

/-- The query of a request target, empty if it has none. -/
def ofUri (u : Uri) : Query :=
  match u.query with
  | none => ⟨[]⟩
  | some s => ofOctets s

def get? (q : Query) (name : String) : Option String :=
  (q.pairs.find? (·.1 == name)).map (·.2)

def values (q : Query) (name : String) : List String :=
  (q.pairs.filter (·.1 == name)).map (·.2)

def text? (q : Query) (name : String) : Option String :=
  (q.get? name).filter (· ≠ "")

/-- Whether a value stands for true: it does unless it is empty, `0`, `no`,
`false` or `none`, up to case and surrounding white space. -/
def isTrue (value : String) : Bool :=
  let v := String.ofList ((Text.trim value.toList).map Text.lower)
  !(["", "0", "no", "false", "none"].contains v)

/-- The truth value of a name, false if it is absent. -/
def flag (q : Query) (name : String) : Bool :=
  match q.get? name with
  | none => false
  | some v => isTrue v

end Query
end ImageBuild
