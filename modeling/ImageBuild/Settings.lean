import ImageBuild.Net.Address
import ImageBuild.Options
import ImageBuild.Toml.Printer
import ImageBuild.Toml.Reader

/-!
# Settings

The settings of the service are read from a configuration file with four
sections. What the file leaves out has a default, names that are not known
are ignored, and settings that contradict each other are refused.
-/

namespace ImageBuild

structure Settings where
  /-- the address that requests are taken on -/
  listen : Net.SocketAddress := .v4 ⟨127, 0, 0, 1⟩ 2375
  /-- the version of a request that gives none -/
  defaultVersion : Version := Version.newest
  minVersion : Version := Version.oldest
  /-- whether progress may be sent before an upload is complete -/
  fullDuplex : Bool := true
  /-- how many frames wait for a client before a build does -/
  progressBuffer : Nat := 64
  /-- after how many seconds a build is cancelled -/
  timeoutSeconds : Option Nat := none
  /-- where the directory for uploads is made -/
  spoolDirectory : Option String := none
  deriving DecidableEq

/-- Why a file holds no settings. -/
inductive SettingsError where
  | unreadable (path reason : String)
  /-- the file is no table of settings of the right types -/
  | malformed
  | noProgressBuffer
  | defaultTooNew (given : Version)
  | minimumTooNew (given default : Version)
  | noTimeout
  deriving DecidableEq

namespace SettingsError

def message : SettingsError → String
  | .unreadable path reason => "failed to read config " ++ path ++ ": " ++ reason
  | .malformed => "failed to parse config"
  | .noProgressBuffer => "invalid config: build.progress_buffer must be at least 1"
  | .defaultTooNew given =>
    "invalid config: api.default_version " ++ given.text ++
      " is newer than the newest supported version " ++ Version.newest.text
  | .minimumTooNew given default =>
    "invalid config: api.min_version " ++ given.text ++ " is newer than api.default_version " ++
      default.text
  | .noTimeout => "invalid config: build.timeout_secs must be positive"

end SettingsError

namespace Settings

/-! ### Reading -/

/-- A field of a section: the default if it is missing, nothing if it is of
another type. -/
def field {α : Type} (default : α) (read : Toml.Value → Option α) :
    Option (Option Toml.Value) → Option α
  | some (some v) => read v
  | _ => some default

def version? (v : Toml.Value) : Option Version := v.string?.bind Version.parse?

def readServer (s : Settings) (v : Toml.Value) : Option Settings := do
  let fs ← v.fields? ["listen"]
  let listen ← field s.listen (fun v => v.string?.bind Net.SocketAddress.parse?) fs[0]?
  return { s with listen }

def readApi (s : Settings) (v : Toml.Value) : Option Settings := do
  let fs ← v.fields? ["default_version", "min_version"]
  let defaultVersion ← field s.defaultVersion version? fs[0]?
  let minVersion ← field s.minVersion version? fs[1]?
  return { s with defaultVersion, minVersion }

def readBuild (s : Settings) (v : Toml.Value) : Option Settings := do
  let fs ← v.fields? ["full_duplex", "progress_buffer", "timeout_secs"]
  let fullDuplex ← field s.fullDuplex (·.bool?) fs[0]?
  let progressBuffer ← field s.progressBuffer (·.natural?) fs[1]?
  let timeoutSeconds ← field s.timeoutSeconds (fun v => v.natural?.map some) fs[2]?
  return { s with fullDuplex, progressBuffer, timeoutSeconds }

def readBackend (s : Settings) (v : Toml.Value) : Option Settings := do
  let fs ← v.fields? ["spool_dir"]
  let spoolDirectory ← field s.spoolDirectory (fun v => v.string?.map some) fs[0]?
  return { s with spoolDirectory }

def readSection (file : List (String × Toml.Value)) (name : String)
    (read : Settings → Toml.Value → Option Settings) (s : Settings) : Option Settings :=
  match Toml.Value.lookup name file with
  | none => some s
  | some v => read s v

/-- The settings of a file, not yet checked. -/
def ofFile? (file : List (String × Toml.Value)) : Option Settings := do
  let s ← readSection file "server" readServer {}
  let s ← readSection file "api" readApi s
  let s ← readSection file "build" readBuild s
  readSection file "backend" readBackend s

def fault? (s : Settings) : Option SettingsError :=
  if s.progressBuffer = 0 then some .noProgressBuffer
  else if Version.newest < s.defaultVersion then some (.defaultTooNew s.defaultVersion)
  else if s.defaultVersion < s.minVersion then some (.minimumTooNew s.minVersion s.defaultVersion)
  else if s.timeoutSeconds = some 0 then some .noTimeout
  else none

def parse (text : String) : Except SettingsError Settings :=
  match (Toml.parse? text).bind ofFile? with
  | none => .error .malformed
  | some s =>
    match s.fault? with
    | some e => .error e
    | none => .ok s

/-- The settings of a file, given its path and what reading it has brought. -/
def load (path : String) (contents : Except String Octets) : Except SettingsError Settings :=
  match contents with
  | .error reason => .error (.unreadable path reason)
  | .ok contents =>
    match Text.decode? contents with
    | none => .error (.unreadable path "stream did not contain valid UTF-8")
    | some text => parse text

/-! ### Writing -/

def line (name : String) (value : List Char) : List Char :=
  name.toList ++ [' ', '=', ' '] ++ value ++ ['\n']

def optionLine {α : Type} (name : String) (write : α → List Char) : Option α → List Char
  | none => []
  | some a => line name (write a)

def boolChars : Bool → List Char
  | true => "true".toList
  | false => "false".toList

def chars (s : Settings) : List Char :=
  "[server]\n".toList ++ line "listen" (Toml.Print.string s.listen.text) ++
    "\n[api]\n".toList ++
    line "default_version" (Toml.Print.string s.defaultVersion.text) ++
    line "min_version" (Toml.Print.string s.minVersion.text) ++
    "\n[build]\n".toList ++
    line "full_duplex" (boolChars s.fullDuplex) ++
    line "progress_buffer" (Text.Decimal.chars s.progressBuffer) ++
    optionLine "timeout_secs" Text.Decimal.chars s.timeoutSeconds ++
    "\n[backend]\n".toList ++
    optionLine "spool_dir" Toml.Print.string s.spoolDirectory

def text (s : Settings) : String := String.ofList s.chars

/-- Whether a number can stand in a file, where integers are signed. -/
def isWritable (n : Nat) : Bool := n ≤ Text.Integer.maxI64

/-- The text of a file with these settings, if all numbers in it can be written. -/
def text? (s : Settings) : Option String :=
  if isWritable s.progressBuffer && s.timeoutSeconds.all isWritable then some s.text else none

def print (s : Settings) : Octets :=
  Json.Print.object
    [("server", Json.Print.object [("listen", Json.Print.string s.listen.text)]),
      ("api", Json.Print.object
        [("default_version", s.defaultVersion.print), ("min_version", s.minVersion.print)]),
      ("build", Json.Print.object
        [("full_duplex", Json.Print.bool s.fullDuplex),
          ("progress_buffer", Json.Print.nat s.progressBuffer),
          ("timeout_secs", Json.Print.option Json.Print.nat s.timeoutSeconds)]),
      ("backend", Json.Print.object
        [("spool_dir", Json.Print.option Json.Print.string s.spoolDirectory)])]

end Settings
end ImageBuild
