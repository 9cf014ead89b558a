import ImageBuild.BuildError
import ImageBuild.Message

/-!
# Writing progress

A sink takes frames one at a time: it accepts a frame, asks the writer to wait,
or has failed. A build writes through a `Writer`, which either passes frames
on to the sink or, in a quiet build, keeps them. Empty frames are never
passed on.
-/

namespace ImageBuild

inductive Sent where
  | accepted
  /-- the sink is full; the frame may be offered again -/
  | blocked
  | failed (cause : SinkError)
  deriving DecidableEq

/-- Why a response may not begin before the request is complete. -/
inductive DuplexError where
  | notSupported
  | alreadyCommitted
  deriving DecidableEq

namespace DuplexError

def message : DuplexError → String
  | .notSupported => "full duplex is not supported by this transport"
  | .alreadyCommitted => "response already committed"

end DuplexError

/-- The response side of a request. -/
class Sink (τ : Type) where
  send : τ → Frame → Sent × τ
  /-- Asks for leave to respond before the request is complete. -/
  enableDuplex : τ → Except DuplexError Unit × τ
  /-- Tells that the upload has ended or will not be read any more. -/
  uploadDone : τ → τ

/-- The way of a build to its progress stream. -/
structure Writer (τ : Type) where
  sink : τ
  /-- the frames that a quiet build keeps -/
  kept : Option (Array Frame) := none

namespace Writer

variable {τ : Type} [Sink τ]

/-- Whether frames are kept. -/
def isQuiet (w : Writer τ) : Bool := w.kept.isSome

def write (w : Writer τ) (f : Frame) : Sent × Writer τ :=
  if f.isEmpty then (.accepted, w)
  else
    match w.kept with
    | some fs => (.accepted, { w with kept := some (fs.push f) })
    | none =>
      let (sent, sink) := Sink.send w.sink f
      (sent, { w with sink })

end Writer

/-- A sink that keeps what it accepts. It can be told to fail after a number
of frames. -/
structure Recorder where
  frames : Array Frame := #[]
  /-- how many more frames are accepted, if that is limited -/
  room : Option Nat := none
  /-- whether the response may begin before the request is complete -/
  allowsDuplex : Bool := true
  /-- how often leave to do so was asked for -/
  duplexCalls : Nat := 0
  deriving DecidableEq

namespace Recorder

def send (r : Recorder) (f : Frame) : Sent × Recorder :=
  match r.room with
  | some 0 => (.failed (.refused "sink is gone"), r)
  | some (n + 1) => (.accepted, { r with frames := r.frames.push f, room := some n })
  | none => (.accepted, { r with frames := r.frames.push f })

instance : Sink Recorder where
  send := send
  enableDuplex r :=
    (if r.allowsDuplex then .ok () else .error .notSupported,
      { r with duplexCalls := r.duplexCalls + 1 })
  uploadDone r := r

end Recorder
end ImageBuild
