/-!
# Failures of builds

A build, a cancellation or a prune fails with one of these causes. The reason
that some of them carry is the text of whoever found the fault: the archive,
the file system or the client.
-/

namespace ImageBuild

/-- Why a frame was not taken. -/
inductive SinkError where
  /-- nobody reads the response any more -/
  | disconnected
  | refused (reason : String)
  deriving DecidableEq

namespace SinkError

def message : SinkError → String
  | .disconnected => "client disconnected"
  | .refused reason => reason

end SinkError

/-- Why a build engine failed. -/
inductive BuildError where
  | canceled
  | missingContext
  | invalidContext (reason : String)
  | invalidArgument (reason : String)
  | notFound (what : String)
  /-- the upload could not be read, or not be written to its file -/
  | upload (reason : String)
  /-- progress could not be written -/
  | progress (cause : SinkError)
  | failed (reason : String)
  deriving DecidableEq

namespace BuildError

def message : BuildError → String
  | .canceled => "build canceled"
  | .missingContext => "no build context provided"
  | .invalidContext reason => "invalid build context: " ++ reason
  | .invalidArgument reason => "invalid argument: " ++ reason
  | .notFound what => "not found: " ++ what
  | .upload reason => "failed to read build context: " ++ reason
  | .progress cause => "failed to write progress: " ++ cause.message
  | .failed reason => reason

/-- Whether a build ended because it was cancelled. -/
def isCanceled : BuildError → Bool
  | .canceled => true
  | _ => false

/-- The status code of a response that reports the error. -/
def status : BuildError → Nat
  | .invalidArgument _ | .invalidContext _ | .missingContext => 400
  | .notFound _ => 404
  | _ => 500

end BuildError
end ImageBuild
