import ImageBuild.BuildError
import ImageBuild.Context
import ImageBuild.Digest
import ImageBuild.Options
import ImageBuild.Text.Quoted

/-!
# The store of contexts

Uploaded contexts are spooled to files. A file is dropped when its build
ends, unless the build succeeded and a cache record took the file over. The
store also knows which running builds were given an id. A clock that ticks at
every use numbers the files and tells which record was used last. Whoever
creates, writes or reads a file asks the file system, which may fail at any time.
-/

namespace ImageBuild

/-- A context in the spool directory. -/
structure SpoolFile where
  number : Nat
  content : ByteArray
  deriving DecidableEq

/-- A context that is kept for later builds. -/
structure CacheRecord where
  digest : String
  /-- the number of the file that holds it -/
  file : Nat
  size : Nat
  lastUsed : Nat
  deriving DecidableEq

/-- The spooled contexts and the running builds of an engine. -/
structure Store where
  clock : Nat := 0
  files : List SpoolFile := []
  records : List CacheRecord := []
  /-- the running builds that were given an id -/
  running : List (String × Token) := []
  /-- what the file system says to whoever works with a file, while it fails -/
  fault : Option String := none
  deriving DecidableEq

namespace Store

/-! ### Spool files -/

/-- What comes of work with a file that would bring `a`, unless the file system fails. -/
def attempt {α : Type} (s : Store) (a : α) : Except String α :=
  match s.fault with
  | none => .ok a
  | some reason => .error reason

theorem attempt_of_none {α : Type} {s : Store} (h : s.fault = none) (a : α) :
    s.attempt a = .ok a := by
  simp only [attempt, h]

theorem attempt_of_some {α : Type} {s : Store} {reason : String} (h : s.fault = some reason)
    (a : α) : s.attempt a = .error reason := by
  simp only [attempt, h]

def tick (s : Store) : Store := { s with clock := s.clock + 1 }

/-- Creates an empty file, numbered by the clock. -/
def createFile (s : Store) : Nat × Store :=
  (s.clock, { s with clock := s.clock + 1, files := s.files ++ [⟨s.clock, .empty⟩] })

def append (s : Store) (number : Nat) (data : ByteArray) : Store :=
  { s with files := s.files.map fun f =>
      if f.number = number then { f with content := f.content ++ data } else f }

/-- The content of a file, nothing if there is no such file. -/
def content (s : Store) (number : Nat) : ByteArray :=
  match s.files.find? (·.number = number) with
  | some f => f.content
  | none => .empty

/-- Removes a file. Nobody hears of a removal that fails, and here none does. -/
def discard (s : Store) (number : Nat) : Store :=
  { s with files := s.files.filter (·.number ≠ number) }

/-! ### Cache records -/

def holds (s : Store) (digest : String) : Bool := s.records.any (·.digest = digest)

/-- Notes that the record of a context is used, and tells whether there is
one. The clock ticks in any case. -/
def touch (s : Store) (digest : String) : Bool × Store :=
  (s.holds digest, { s with
    clock := s.clock + 1
    records := s.records.map fun r =>
      if r.digest = digest then { r with lastUsed := s.clock } else r })

/-- Turns a file into the record of a context, unless there is one already.
Tells whether the file was taken. -/
def adopt (s : Store) (digest : String) (file size : Nat) : Bool × Store :=
  let s' := { s with clock := s.clock + 1 }
  if s.holds digest then (false, s')
  else (true, { s' with records := s.records ++ [⟨digest, file, size, s.clock⟩] })

/-! ### Pruning -/

def isSelected (o : PruneOptions) (r : CacheRecord) : Bool :=
  match o.filters.get? "id" with
  | none => true
  | some ids => ids.any (Digest.isNamed r.digest)

/-- The records that a prune may remove, the one used longest ago first. -/
def candidates (s : Store) (o : PruneOptions) : List CacheRecord :=
  (s.records.filter (isSelected o)).mergeSort fun a b =>
    a.lastUsed < b.lastUsed || (a.lastUsed = b.lastUsed && a.digest ≤ b.digest)

def total (records : List CacheRecord) : Nat := records.foldr (fun r n => r.size + n) 0

/-- The first of these records whose removal brings a total size down to
`keep`. -/
def surplus (keep : Nat) : Nat → List CacheRecord → List CacheRecord
  | _, [] => []
  | total, r :: rest => if total ≤ keep then [] else r :: surplus keep (total - r.size) rest

/-- The records that a prune removes, in this order. -/
def evicted (s : Store) (o : PruneOptions) : List CacheRecord :=
  if o.all ∨ o.keepStorage = 0 then s.candidates o
  else surplus o.keepStorage.toNat (total s.records) (s.candidates o)

def knownFilter : String := "id"

def prune (s : Store) (o : PruneOptions) : Except BuildError PruneReport × Store :=
  match o.filters.keys.find? (· ≠ knownFilter) with
  | some key => (.error (.invalidArgument ("invalid filter " ++ Text.quote key)), s)
  | none =>
    let gone := s.evicted o
    (.ok ⟨gone.map (·.digest), UInt64.ofNat (total gone)⟩,
      { s with
        records := s.records.filter fun r => !gone.any (·.digest = r.digest)
        files := s.files.filter fun f => !gone.any (·.file = f.number) })

/-! ### Running builds -/

def token? (s : Store) (id : String) : Option Token := s.running.lookup id

/-- Enters a build under an id that no other running build has. -/
def register (s : Store) (id : Option String) (t : Token) : Except BuildError Store :=
  match id with
  | none => .ok s
  | some id =>
    match s.token? id with
    | some _ => .error (.invalidArgument ("build id " ++ Text.quote id ++ " is already in use"))
    | none => .ok { s with running := s.running ++ [(id, t)] }

def unregister (s : Store) (id : Option String) : Store :=
  match id with
  | none => s
  | some id => { s with running := s.running.filter (·.1 ≠ id) }

/-- Cancels the running build with an id, if there is one. -/
def cancel (s : Store) (id : String) (c : Cancellation) : Cancellation :=
  match s.token? id with
  | none => c
  | some t => c.cancel t

end Store
end ImageBuild
