import ImageBuild.Json.Printer
import ImageBuild.Json.Record
import ImageBuild.Version

/-!
# Options of builds and of cache pruning

The options of a request are decoded from its query and handed to the build
engine as they are. All of them have a JSON form that is read back by the
readers of this module.
-/

namespace ImageBuild

open Json (Field Shape Reader Cause Fault)

/-- The builder that a client asks for. -/
inductive BuilderKind where
  /-- the classic builder, written `1` in a query -/
  | classic
  /-- the successor of the classic builder, written `2` in a query -/
  | buildKit
  deriving DecidableEq, Repr

namespace BuilderKind

def ofParam? : String → Option BuilderKind
  | "" => some .classic
  | "1" => some .classic
  | "2" => some .buildKit
  | _ => none

def param : BuilderKind → String
  | .classic => "1"
  | .buildKit => "2"

def name : BuilderKind → String
  | .classic => "V1"
  | .buildKit => "BuildKit"

def names : List String := [name .classic, name .buildKit]

def ofName? (s : String) : Option BuilderKind :=
  if s = name .classic then some .classic
  else if s = name .buildKit then some .buildKit
  else none

def print (b : BuilderKind) : Octets := Json.Print.string b.name

def readName (s : Octets) : Except Fault (BuilderKind × Octets) :=
  match Json.Quoted.read s with
  | .error f => .error f
  | .ok (n, r) =>
    match ofName? n with
    | some b => .ok (b, r)
    | none => .error (.here (.unknownVariant n names) r)

/-- Reads an object with the name of a builder as its only member, which is
null. -/
def readObject (s : Octets) : Except Fault (BuilderKind × Octets) :=
  match Json.skipBlank s with
  | [] => .error ⟨.endOfObject, 0⟩
  | b :: s =>
    if b = 0x7D then .error (.next .expectedValue (b :: s))
    else if b ≠ 0x22 then .error (.next .expectedKey (b :: s))
    else
      match readName s with
      | .error f => .error f
      | .ok (k, s) =>
        match Json.readColon s with
        | .error f => .error f
        | .ok s =>
          match Reader.null.run s with
          | .error f => .error f
          | .ok (_, s) =>
            match Json.skipBlank s with
            | [] => .error ⟨.endOfObject, 0⟩
            | b :: r => if b = 0x7D then .ok (k, r) else .error (.here .expectedValue (b :: r))

theorem length_readName {s r : Octets} {b : BuilderKind} (h : readName s = .ok (b, r)) :
    r.length < s.length := by
  unfold readName at h
  split at h
  · cases h
  · next hq =>
    split at h <;> cases h
    exact Json.Quoted.length_read hq

theorem length_readObject {s r : Octets} {b : BuilderKind} (h : readObject s = .ok (b, r)) :
    r.length ≤ s.length := by
  have hs := Json.length_skipBlank s
  unfold readObject at h
  split at h
  · cases h
  · next hb =>
    rw [hb] at hs
    refine Nat.le_trans ?_ (Nat.le_of_succ_le hs)
    split at h
    · cases h
    · split at h
      · cases h
      · split at h
        · cases h
        · next hn =>
          split at h
          · cases h
          · next hc =>
            split at h
            · cases h
            · next t hu =>
              have ht := Json.length_skipBlank t
              split at h
              · cases h
              · next he =>
                rw [he] at ht
                split at h <;> cases h
                exact Nat.le_of_lt (Nat.lt_of_lt_of_le ht (Nat.le_of_lt
                  (Nat.lt_trans (Reader.null.shorter hu)
                    (Nat.lt_trans (Json.length_readColon hc) (length_readName hn)))))

def reader : Reader BuilderKind :=
  .ofFirst (fun b s =>
      if b = 0x22 then readName s
      else if b = 0x7B then readObject s
      else .error (.next .expectedValue (b :: s))) <| by
    intro b s k r h
    split at h
    · exact Nat.le_of_lt (length_readName h)
    · split at h
      · exact length_readObject h
      · cases h

end BuilderKind

/-- An exporter for the result of a build. -/
structure Output where
  kind : String := ""
  attributes : Dict String := .empty
  deriving DecidableEq

/-- The options of one image build. -/
structure BuildOptions where
  tags : List String := []
  dockerfile : String := "Dockerfile"
  remoteContext : Option String := none
  /-- a build argument without a value takes it from the environment -/
  buildArgs : Dict (Option String) := .empty
  labels : Dict String := .empty
  noCache : Bool := false
  remove : Bool := true
  forceRemove : Bool := false
  pull : Bool := false
  quiet : Bool := false
  target : Option String := none
  platform : Option String := none
  networkMode : Option String := none
  cacheFrom : List String := []
  shmSize : Option UInt64 := none
  memory : Option Int64 := none
  cpuShares : Option Int64 := none
  buildId : Option String := none
  builder : BuilderKind := .classic
  outputs : List Output := []
  deriving DecidableEq

/-- Which cache records to remove. -/
structure PruneOptions where
  /-- whether every selected record is removed -/
  all : Bool := false
  /-- the number of bytes that may stay, zero for none -/
  keepStorage : UInt64 := 0
  filters : Dict (List String) := .empty
  deriving DecidableEq

/-- Which cache records were removed. -/
structure PruneReport where
  deleted : List String := []
  reclaimed : UInt64 := 0
  deriving DecidableEq

namespace Json.Print

def strings (xs : List String) : Octets := array (xs.map string)

def dict {α : Type} (write : α → Octets) (d : Dict α) : Octets :=
  object (d.entries.map fun e => (e.1, write e.2))

def u64 (n : UInt64) : Octets := nat n.toNat

def i64 (n : Int64) : Octets := int n.toInt

end Json.Print

open Json

def Output.print (o : Output) : Octets :=
  Print.object [("Type", Print.string o.kind), ("Attrs", Print.dict Print.string o.attributes)]

def Output.shape : Shape Output where
  name := "BuildOutput"
  initial := {}
  fields :=
    [.of "Type" .never .string fun o s => { o with kind := s },
      .of "Attrs" .never (.dict .string) fun o d => { o with attributes := d }]

namespace BuildOptions

def print (o : BuildOptions) : Octets :=
  Print.object
    [("tags", Print.strings o.tags),
      ("dockerfile", Print.string o.dockerfile),
      ("remote_context", Print.option Print.string o.remoteContext),
      ("build_args", Print.dict (Print.option Print.string) o.buildArgs),
      ("labels", Print.dict Print.string o.labels),
      ("no_cache", Print.bool o.noCache),
      ("remove", Print.bool o.remove),
      ("force_remove", Print.bool o.forceRemove),
      ("pull", Print.bool o.pull),
      ("suppress_output", Print.bool o.quiet),
      ("target", Print.option Print.string o.target),
      ("platform", Print.option Print.string o.platform),
      ("network_mode", Print.option Print.string o.networkMode),
      ("cache_from", Print.strings o.cacheFrom),
      ("shm_size", Print.option Print.u64 o.shmSize),
      ("memory", Print.option Print.i64 o.memory),
      ("cpu_shares", Print.option Print.i64 o.cpuShares),
      ("build_id", Print.option Print.string o.buildId),
      ("builder_version", o.builder.print),
      ("outputs", Print.array (o.outputs.map Output.print))]

def shape : Shape BuildOptions where
  name := "BuildOptions"
  initial := {}
  fields :=
    [.of "tags" .always (.list .string) fun o x => { o with tags := x },
      .of "dockerfile" .always .string fun o x => { o with dockerfile := x },
      .of "remote_context" .inArray (.option .string) fun o x => { o with remoteContext := x },
      .of "build_args" .always (.dict (.option .string)) fun o x => { o with buildArgs := x },
      .of "labels" .always (.dict .string) fun o x => { o with labels := x },
      .of "no_cache" .always .bool fun o x => { o with noCache := x },
      .of "remove" .always .bool fun o x => { o with remove := x },
      .of "force_remove" .always .bool fun o x => { o with forceRemove := x },
      .of "pull" .always .bool fun o x => { o with pull := x },
      .of "suppress_output" .always .bool fun o x => { o with quiet := x },
      .of "target" .inArray (.option .string) fun o x => { o with target := x },
      .of "platform" .inArray (.option .string) fun o x => { o with platform := x },
      .of "network_mode" .inArray (.option .string) fun o x => { o with networkMode := x },
      .of "cache_from" .always (.list .string) fun o x => { o with cacheFrom := x },
      .of "shm_size" .inArray (.option .u64) fun o x => { o with shmSize := x },
      .of "memory" .inArray (.option .i64) fun o x => { o with memory := x },
      .of "cpu_shares" .inArray (.option .i64) fun o x => { o with cpuShares := x },
      .of "build_id" .inArray (.option .string) fun o x => { o with buildId := x },
      .of "builder_version" .always BuilderKind.reader fun o x => { o with builder := x },
      .of "outputs" .always (.list Output.shape.reader) fun o x => { o with outputs := x }]

end BuildOptions

namespace PruneOptions

def print (o : PruneOptions) : Octets :=
  Print.object
    [("all", Print.bool o.all), ("keep_storage", Print.u64 o.keepStorage),
      ("filters", Print.dict Print.strings o.filters)]

def shape : Shape PruneOptions where
  name := "CachePruneOptions"
  initial := {}
  fields :=
    [.of "all" .always .bool fun o x => { o with all := x },
      .of "keep_storage" .always .u64 fun o x => { o with keepStorage := x },
      .of "filters" .always (.dict (.list .string)) fun o x => { o with filters := x }]

end PruneOptions

namespace PruneReport

def print (r : PruneReport) : Octets :=
  Print.object
    [("CachesDeleted", Print.strings r.deleted), ("SpaceReclaimed", Print.u64 r.reclaimed)]

def shape : Shape PruneReport where
  name := "CachePruneReport"
  initial := {}
  fields :=
    [.of "CachesDeleted" .always (.list .string) fun r x => { r with deleted := x },
      .of "SpaceReclaimed" .always .u64 fun r x => { r with reclaimed := x }]

end PruneReport

namespace Version

def print (v : Version) : Octets := Print.string v.text

/-- Why a JSON text is no version. -/
inductive JsonError where
  /-- the text is not one JSON string -/
  | fault (f : Fault)
  | invalid (s : String)
  deriving DecidableEq

def ofJson (input : Octets) : Except JsonError Version :=
  match Reader.string.run input with
  | .error f => .error (.fault f)
  | .ok (s, _) =>
    match read s with
    | .error e => .error (.invalid e.text)
    | .ok v =>
      match Reader.string.parse input with
      | .error f => .error (.fault f)
      | .ok _ => .ok v

end Version
end ImageBuild
