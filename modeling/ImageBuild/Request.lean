import ImageBuild.Options
import ImageBuild.Query

/-!
# Decoding requests

A request to build an image carries its options in its target: a version may
stand in the path, everything else is in the query. `Policy.decode` turns
them into build options without touching the body. It looks at the version,
at the media type of a body, and at the parameters, in this order, and the
first fault decides the answer.
-/

namespace ImageBuild

/-- Why a request is rejected before anything is built. -/
inductive RequestError where
  | unsupportedMediaType (shown : String)
  | invalidVersion (segment : String)
  | versionTooOld (requested minimum : Version)
  | versionTooNew (requested maximum : Version)
  | malformedQuery (reason : String)
  | invalidParameter (name reason : String)
  | missingParameter (name : String)
  deriving DecidableEq

namespace RequestError

def message : RequestError → String
  | .unsupportedMediaType shown =>
    "unsupported media type " ++ Text.quote shown ++ ", expected application/x-tar"
  | .invalidVersion segment => Version.invalidMessage segment
  | .versionTooOld requested minimum =>
    "client version " ++ requested.text ++ " is too old. Minimum supported API version is " ++
      minimum.text
  | .versionTooNew requested maximum =>
    "client version " ++ requested.text ++ " is too new. Maximum supported API version is " ++
      maximum.text
  | .malformedQuery reason => "invalid query string: " ++ reason
  | .invalidParameter name reason => "invalid value for " ++ name ++ ": " ++ reason
  | .missingParameter name => "missing required parameter: " ++ name

def status : RequestError → Nat
  | .unsupportedMediaType _ => 415
  | _ => 400

end RequestError

namespace Query

open Json (Reader)

def u64? (q : Query) (name : String) : Except RequestError (Option UInt64) :=
  match q.text? name with
  | none => .ok none
  | some v =>
    match Text.Integer.readUnsigned 10 Text.Integer.maxU64 v.toList with
    | .ok n => .ok (some (UInt64.ofNat n))
    | .error e => .error (.invalidParameter name e.message)

def i64? (q : Query) (name : String) : Except RequestError (Option Int64) :=
  match q.text? name with
  | none => .ok none
  | some v =>
    match Text.Integer.readSigned Text.Integer.maxI64 v.toList with
    | .ok n => .ok (some (Int64.ofInt n))
    | .error e => .error (.invalidParameter name e.message)

def json? {α : Type} (q : Query) (name : String) (p : Reader α) :
    Except RequestError (Option α) :=
  match q.text? name with
  | none => .ok none
  | some v =>
    match p.parse (Text.encode v) with
    | .ok a => .ok (some a)
    | .error f => .error (.invalidParameter name (f.message (Text.encode v)))

/-- Whether intermediate containers are removed: yes, unless `rm` says
otherwise and `forcerm` does not insist. -/
def removesIntermediates (q : Query) : Bool :=
  q.flag "forcerm" ||
    match q.get? "rm" with
    | none => true
    | some "" => true
    | some v => isTrue v

def builder (q : Query) : Except RequestError BuilderKind :=
  match q.get? "version" with
  | none => .ok .classic
  | some v =>
    match BuilderKind.ofParam? v with
    | some b => .ok b
    | none =>
      .error (.invalidParameter "version" ("unsupported builder version " ++ Text.quote v))

/-- The version that introduced the parameter `platform`. -/
def platformSince : Version := ⟨1, 32⟩

/-- The version that introduced the parameter `outputs`. -/
def outputsSince : Version := ⟨1, 40⟩

/-- The exporters that a query asks for, none before they were introduced. -/
def outputs (q : Query) (v : Version) : Except RequestError (List Output) :=
  if outputsSince ≤ v then (q.json? "outputs" (.list Output.shape.reader)).map (·.getD [])
  else .ok []

/-- The options of a build, for a client that speaks version `v`. -/
def buildOptions (q : Query) (v : Version) : Except RequestError BuildOptions := do
  let shmSize ← q.u64? "shmsize"
  let memory ← q.i64? "memory"
  let cpuShares ← q.i64? "cpushares"
  let buildArgs ← q.json? "buildargs" (.dict (.option .string))
  let labels ← q.json? "labels" (.dict .string)
  let cacheFrom ← q.json? "cachefrom" (.list .string)
  let builder ← q.builder
  let outputs ← q.outputs v
  return {
    tags := (q.values "t").filter (· ≠ "")
    dockerfile := (q.text? "dockerfile").getD "Dockerfile"
    remoteContext := q.text? "remote"
    buildArgs := buildArgs.getD .empty
    labels := labels.getD .empty
    noCache := q.flag "nocache"
    remove := q.removesIntermediates
    forceRemove := q.flag "forcerm"
    pull := q.flag "pull"
    quiet := q.flag "q"
    target := q.text? "target"
    platform := if platformSince ≤ v then q.text? "platform" else none
    networkMode := q.text? "networkmode"
    cacheFrom := cacheFrom.getD []
    shmSize
    memory
    cpuShares
    buildId := q.text? "buildid"
    builder
    outputs }

def pruneOptions (q : Query) : Except RequestError PruneOptions := do
  let keepStorage ← q.u64? "keep-storage"
  let filters ← q.json? "filters" (.dict (.list .string))
  return {
    all := q.flag "all"
    keepStorage := keepStorage.getD 0
    filters := filters.getD .empty }

end Query

/-- What decoding looks at in a request to build an image. -/
structure BuildRequest where
  /-- the version segment of the path, if there is one -/
  segment : Option String := none
  uri : Uri
  /-- the values of the header that tells the media type -/
  mediaTypes : List Octets := []
  hasBody : Bool
  deriving DecidableEq

/-- The versions that are accepted: from `minimum` to the newest one. A
request without a version has the version `default`. -/
structure Policy where
  default : Version := Version.newest
  minimum : Version := Version.oldest
  deriving DecidableEq

/-- A request whose options are known. -/
structure DecodedBuild where
  version : Version
  options : BuildOptions
  deriving DecidableEq

namespace MediaType

def archives : List String := ["application/x-tar", "application/tar"]

def isText (b : UInt8) : Bool := b == 0x09 || (0x20 ≤ b && b ≤ 0x7E)

/-- A media type without its parameters, in small letters. -/
def essence (chars : List Char) : String :=
  String.ofList ((Text.trim (chars.takeWhile (· ≠ ';'))).map Text.lower)

def check (value : Octets) : Except RequestError Unit :=
  if value.all isText then
    let chars := value.map fun b => Char.ofNat b.toNat
    if archives.contains (essence chars) then .ok ()
    else .error (.unsupportedMediaType (String.ofList chars))
  else .error (.unsupportedMediaType "<non-ascii>")

end MediaType

namespace Policy

/-- The version of a request whose path has this version segment. -/
def resolve (p : Policy) : Option String → Except RequestError Version
  | none => .ok p.default
  | some segment =>
    match Version.parse? segment with
    | none => .error (.invalidVersion segment)
    | some v =>
      if v < p.minimum then .error (.versionTooOld v p.minimum)
      else if Version.newest < v then .error (.versionTooNew v .newest)
      else .ok v

/-- Decodes a request to build an image. The first media type counts, and
only when there is a body. -/
def decode (p : Policy) (r : BuildRequest) : Except RequestError DecodedBuild := do
  let version ← p.resolve r.segment
  if r.hasBody then
    match r.mediaTypes with
    | [] => pure ()
    | value :: _ => MediaType.check value
  let options ← (Query.ofUri r.uri).buildOptions version
  return ⟨version, options⟩

end Policy
end ImageBuild
