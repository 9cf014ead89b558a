import ImageBuild.Query
import ImageBuild.Text.Pieces

/-!
# Routes

The service answers at four paths, and at each of them behind a segment that
holds a version. The segment may be any text, also an empty one; whether it is
a version is found out later. Segments are compared as they are written,
without decoding.
-/

namespace ImageBuild

/-- What a client can ask the service for. -/
inductive Route where
  | ping
  | build
  | cancel
  | prune
  deriving DecidableEq

namespace Route

/-- The methods that a route accepts, as they are listed for a client that
used another one. -/
def allow : Route → String
  | .ping => "GET,HEAD"
  | _ => "POST"

def accepts (r : Route) (method : String) : Bool :=
  match r with
  | .ping => method == "GET" || method == "HEAD"
  | _ => method == "POST"

def segments : Route → List Octets
  | .ping => [Text.encode "_ping"]
  | .build => [Text.encode "build"]
  | .cancel => [Text.encode "build", Text.encode "cancel"]
  | .prune => [Text.encode "build", Text.encode "prune"]

def all : List Route := [.ping, .build, .cancel, .prune]

def ofSegments? (segments : List Octets) : Option Route :=
  all.find? fun r => r.segments == segments

/-- The route at a path, with the version segment before it if there is one.
A path that is a route as it stands has no version segment. -/
def ofPath? (path : Octets) : Option (Route × Option Octets) :=
  match Text.pieces (· == 0x2F) path with
  | [] :: first :: rest =>
    match ofSegments? (first :: rest) with
    | some r => some (r, none)
    | none => (ofSegments? rest).map fun r => (r, some first)
  | _ => none

end Route

/-- The text of a version segment, if it is well formed. -/
def decodeSegment? (segment : Octets) : Option String := Text.decode? (Percent.decode segment)

end ImageBuild
