import ImageBuild.BuildError
import ImageBuild.Json.Printer
import ImageBuild.Options
import ImageBuild.Request
import ImageBuild.Route

/-!
# Responses

A response has a head and a body. The body of a response that is complete at
once is plain text, or a JSON object that tells whether the request
succeeded, with the result or the error.
-/

namespace ImageBuild

structure Head where
  status : Nat
  mediaType : Option String := none
  /-- the methods that would have been accepted -/
  allow : Option String := none
  deriving DecidableEq

/-- A response that is complete at once. -/
structure Response extends Head where
  body : Octets := []
  deriving DecidableEq

namespace Response

open Json

def jsonType : String := "application/json"

def textType : String := "text/plain; charset=utf-8"

def ofText (status : Nat) (text : String) : Response :=
  { status, mediaType := some textType, body := Text.encode text }

def errorBody (message : String) : Octets :=
  Print.object [("error", Print.string message), ("success", Print.bool false)]

def successBody (data : Octets) : Octets :=
  Print.object [("success", Print.bool true), ("data", data)]

def failure (status : Nat) (message : String) : Response :=
  { status, mediaType := some jsonType, body := errorBody message }

def rejection (e : RequestError) : Response := failure e.status e.message

def ofBuildError (e : BuildError) : Response := failure e.status e.message

def success (data : Octets) : Response :=
  { status := 200, mediaType := some jsonType, body := successBody data }

def notFound : Response := { status := 404 }

/-- The answer to a method that a route does not accept. -/
def wrongMethod (r : Route) : Response := { status := 405, allow := some r.allow }

/-- The head of the response to a build, which does not tell how it ends. -/
def buildHead : Head := { status := 200, mediaType := some jsonType }

def withoutBody (r : Response) : Response := { r with body := [] }

end Response
end ImageBuild
