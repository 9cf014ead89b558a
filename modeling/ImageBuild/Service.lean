import ImageBuild.Exchange
import ImageBuild.Response
import ImageBuild.Settings

/-!
# The service

The service answers requests. Most are answered at once; a request to build
an image opens an exchange that goes on while the upload arrives. All
exchanges share the workshop of one engine. Time passes only when the service
is told so.
-/

namespace ImageBuild

structure HttpRequest where
  method : String := "POST"
  uri : Uri
  /-- the values of the header that tells the media type -/
  mediaTypes : List Octets := []
  /-- what has arrived of the body, if there is one -/
  body : Option Upload := none

/-- What a client that only asks for the head gets of a response. -/
def HttpRequest.shown (r : HttpRequest) (x : Response) : Response :=
  if r.method = "HEAD" then x.withoutBody else x

/-- The service over an engine with builds `ι` and states `σ`. -/
structure Service (ι σ : Type) where
  settings : Settings := {}
  workshop : Workshop σ
  /-- the time in milliseconds -/
  now : Nat := 0
  /-- the number of the next exchange -/
  next : Nat := 0
  exchanges : List (Nat × Exchange ι) := []

inductive Reply where
  /-- at once -/
  | response (r : Response)
  /-- in the exchange with this number; there is none if the connection breaks off -/
  | exchange (number : Nat)

namespace Service

variable {ι σ : Type}

def policy (s : Service ι σ) : Policy := ⟨s.settings.defaultVersion, s.settings.minVersion⟩

/-- The time at which a build that begins now is cancelled. -/
def deadline (s : Service ι σ) : Option Nat :=
  s.settings.timeoutSeconds.map fun t => s.now + 1000 * t

/-- The response side of a new build. With a body, frames are held back until
it ends or leave is given to respond before that. -/
def openChannel (s : Service ι σ) (hasBody : Bool) : Channel :=
  let c := Channel.new s.settings.progressBuffer s.settings.fullDuplex
  if hasBody then c.hold else c

def exchange? (s : Service ι σ) (number : Nat) : Option (Exchange ι) := s.exchanges.lookup number

def change (s : Service ι σ) (number : Nat) (f : Exchange ι → Exchange ι) : Service ι σ :=
  { s with exchanges := s.exchanges.map fun x => if x.1 = number then (x.1, f x.2) else x }

variable [Engine ι σ]

/-- Whether there are channels as long as the settings want them. -/
def HasRoom (s : Service ι σ) : Prop := s.settings.progressBuffer ≤ Channel.maxCapacity

instance (s : Service ι σ) : Decidable s.HasRoom := inferInstanceAs (Decidable (_ ≤ _))

/-- Answers a request to build an image. A request that is rejected leaves
everything as it is. -/
def build (s : Service ι σ) (segment : Option String) (r : HttpRequest) : Reply × Service ι σ :=
  -- the channel is opened before anything else, and without one the connection breaks off
  if ¬ s.HasRoom then (.exchange s.next, { s with next := s.next + 1 })
  else
    let request : BuildRequest := ⟨segment, r.uri, r.mediaTypes, r.body.isSome⟩
    match s.policy.decode request with
    | .error e => (.response (.rejection e), s)
    | .ok b =>
      let (x, tokens) := Context.fresh s.workshop.tokens s.settings.defaultVersion
      let desk : Desk σ Channel :=
        { store := s.workshop.store, tokens, source := r.body.map fun u => ⟨u, 0, false⟩
          writer := ⟨s.openChannel r.body.isSome, none⟩ }
      let (session, desk) := Session.start x b desk
      let e : Exchange ι :=
        { session := some session, source := desk.source, writer := desk.writer
          token := x.token, deadline := s.deadline }
      (.exchange s.next, { s with
        workshop := desk.toWorkshop, next := s.next + 1
        exchanges := s.exchanges ++ [(s.next, e)] })

/-- Answers a request to cancel the build with an id. -/
def cancel (s : Service ι σ) (segment : Option String) (q : Query) : Response × Service ι σ :=
  if 1 < (q.values "id").length then
    (.ofText 400 "Failed to deserialize query string: duplicate field `id`", s)
  else
    match s.policy.resolve segment, q.text? "id" with
    | .error e, _ => (.rejection e, s)
    | .ok _, none => (.rejection (.missingParameter "id"), s)
    | .ok v, some id =>
      match Engine.cancel ι v id s.workshop with
      | (.ok (), workshop) => (.success (Json.Print.string "cancelled"), { s with workshop })
      | (.error e, workshop) => (.ofBuildError e, { s with workshop })

def prune (s : Service ι σ) (segment : Option String) (q : Query) : Response × Service ι σ :=
  match s.policy.resolve segment with
  | .error e => (.rejection e, s)
  | .ok v =>
    match q.pruneOptions with
    | .error e => (.rejection e, s)
    | .ok o =>
      let (result, store) := Engine.prune ι v o s.workshop.store
      let s := { s with workshop := { s.workshop with store } }
      match result with
      | .ok report => (.success report.print, s)
      | .error e => (.ofBuildError e, s)

/-- Answers a request whether the service is there. -/
def ping (s : Service ι σ) (segment : Option String) : Response :=
  match segment with
  | none => .ofText 200 "OK"
  | some _ =>
    match s.policy.resolve segment with
    | .ok _ => .ofText 200 "OK"
    | .error e => .rejection e

def dispatch (s : Service ι σ) (route : Route) (segment : Option String) (r : HttpRequest) :
    Reply × Service ι σ :=
  let atOnce (x : Response × Service ι σ) : Reply × Service ι σ := (.response x.1, x.2)
  match route with
  | .build => s.build segment r
  | .cancel => atOnce (s.cancel segment (Query.ofUri r.uri))
  | .prune => atOnce (s.prune segment (Query.ofUri r.uri))
  | .ping => atOnce (r.shown (s.ping segment), s)

/-- Answers a request. The method is looked at before the version segment is
decoded. -/
def accept (s : Service ι σ) (r : HttpRequest) : Reply × Service ι σ :=
  match Route.ofPath? r.uri.path with
  | none => (.response .notFound, s)
  | some (route, segment) =>
    if ¬ route.accepts r.method then (.response (.wrongMethod route), s)
    else
      match segment with
      | none => s.dispatch route none r
      | some segment =>
        match decodeSegment? segment with
        | some segment => s.dispatch route (some segment) r
        | none =>
          (.response (r.shown (.ofText 400 "Invalid URL: Invalid UTF-8 in `version`")), s)

/-- Lets every exchange go on as far as it can, those first that were opened
first. -/
def settle (s : Service ι σ) : Service ι σ :=
  let (workshop, exchanges) := s.exchanges.foldl (fun (w, done) (number, e) =>
    let (e, w) := e.expire s.now w
    let (e, w) := e.settle w
    (w, done ++ [(number, e)])) (s.workshop, [])
  { s with workshop, exchanges }

def advance (s : Service ι σ) (milliseconds : Nat) : Service ι σ :=
  { s with now := s.now + milliseconds }.settle

/-- Waits for an exchange. One that waits for more than its upload can bring
goes on when its time is over. -/
def await (s : Service ι σ) (number : Nat) : Service ι σ :=
  let s := s.settle
  match s.exchange? number with
  | none => s
  | some e =>
    match e.session, e.deadline with
    | some _, some t => { s with now := max s.now t }.settle
    | _, _ => s

def feed (s : Service ι σ) (number : Nat) (items : List Upload.Item) : Service ι σ :=
  (s.change number (·.feed items)).settle

def endUpload (s : Service ι σ) (number : Nat) (items : List Upload.Item) : Service ι σ :=
  (s.change number fun e => (e.feed items).endUpload).settle

def disconnect (s : Service ι σ) (number : Nat) : Service ι σ :=
  match s.exchange? number with
  | none => s
  | some e =>
    { s with
      workshop := e.disconnect s.workshop
      exchanges := s.exchanges.filter (·.1 ≠ number) }.settle

end Service
end ImageBuild
