import ImageBuild.Engine
import ImageBuild.Message
import ImageBuild.Request

/-!
# Sessions

A session serves one request to build an image: it lets the engine work until
the build has ended and then writes how it ended. What the build writes goes
to the client at once, unless the build is quiet. A quiet build that succeeds
tells its identifier only, and one that fails shows what it kept. The last
frame is always the identifier or the error.
-/

namespace ImageBuild

/-- Why a request was not served to its end. -/
inductive ServeError where
  /-- nothing was built or written -/
  | rejected (e : RequestError)
  /-- the client does not know how the build ended -/
  | unwritten (cause : SinkError)
  deriving DecidableEq

namespace ServeError

def message : ServeError → String
  | .rejected e => e.message
  | .unwritten cause => "failed to write build result: " ++ cause.message

end ServeError

/-- A request that is being served. -/
inductive Session (ι : Type) where
  | building (job : ι)
  /-- the build has ended and these frames are still to be written -/
  | closing (frames : List Frame)

namespace Session

variable {σ τ ι : Type} [Sink τ] [Engine ι σ]

/-- The frames that tell how a build ended. `kept` is what a quiet build has
kept. -/
def lastFrames (kept : Option (Array Frame)) : Except BuildError String → List Frame
  | .ok id =>
    (if kept.isSome then [(Message.line (id ++ "\n")).frame] else []) ++ [(Message.imageId id).frame]
  | .error e =>
    let output := (kept.getD #[]).toList.flatten
    (if output = [] then [] else [output]) ++ [(Message.failure e.message).frame]

/-- Begins to serve a request. With a body, leave is asked to respond before
it is complete; the build goes on without. -/
def start (x : Context) (b : DecodedBuild) (d : Desk σ τ) : Session ι × Desk σ τ :=
  let sink :=
    if d.source.isSome then (Sink.enableDuplex d.writer.sink).2 else d.writer.sink
  (.building (Engine.start (x.withVersion b.version) b.options),
    { d with writer := ⟨sink, if b.options.quiet then some #[] else none⟩ })

/-- Ends the build: the upload is put away, and what is written from now on
goes to the client. -/
def close (d : Desk σ τ) (result : Except BuildError String) : Session ι × Desk σ τ :=
  let d' := d.dropSource
  (.closing (lastFrames d.writer.kept result), { d' with writer := { d'.writer with kept := none } })

def move : Session ι → Desk σ τ → Move (Session ι) (Except SinkError Unit) × Desk σ τ
  | .building job, d =>
    match Engine.move job d with
    | (.go job, d) => (.go (.building job), d)
    | (.wait, d) => (.wait, d)
    | (.stop result, d) =>
      let (s, d) := close d result
      (.go s, d)
  | .closing [], d => (.stop (.ok ()), d)
  | .closing (f :: rest), d =>
    match d.write f with
    | (.accepted, d) => (.go (.closing rest), d)
    | (.blocked, d) => (.wait, d)
    | (.failed e, d) => (.stop (.error e), d)

def rank : Session ι → Nat
  | .building job => Engine.rank job + 1
  | .closing _ => 0

/-- How many moves are left to the next rank, at most. -/
def steps : Session ι → Nat
  | .building job => Engine.steps job
  | .closing frames => frames.length

def work (s : Session ι) (d : Desk σ τ) : Work := ⟨d.items, s.rank, s.steps⟩

theorem less_of_move {s s' : Session ι} {d d' : Desk σ τ} (h : s.move d = (.go s', d')) :
    Work.Less (s'.work d') (s.work d) := by
  cases s with
  | building job =>
    simp only [move] at h
    split at h
    · next hm =>
      simp only [Prod.mk.injEq, Move.go.injEq] at h
      obtain ⟨rfl, rfl⟩ := h
      exact Work.less_raise (Engine.less hm) 1
    · simp at h
    · simp only [close, Prod.mk.injEq, Move.go.injEq] at h
      obtain ⟨rfl, rfl⟩ := h
      refine Work.less_of_rank ?_ (Nat.succ_pos _)
      exact Nat.le_trans (Nat.le_of_eq (Desk.items_dropSource _)) (Nat.zero_le _)
  | closing frames =>
    cases frames with
    | nil => simp [move] at h
    | cons f rest =>
      have hi := Desk.items_write d f
      simp only [move] at h
      split at h
      · next hw =>
        simp only [Prod.mk.injEq, Move.go.injEq] at h
        obtain ⟨rfl, rfl⟩ := h
        rw [hw] at hi
        exact Work.less_of_steps (Nat.le_of_eq hi) rfl (Nat.lt_succ_self _)
      · simp at h
      · simp at h

/-- Where a session stands when it can go on no further. -/
inductive Rest (ι : Type) where
  | waiting (s : Session ι)
  /-- nothing is left to do; a frame may have been refused -/
  | done (result : Except SinkError Unit)

/-- Makes moves as long as possible. -/
def run (s : Session ι) (d : Desk σ τ) : Rest ι × Desk σ τ :=
  match _h : s.move d with
  | (.go s', d') => run s' d'
  | (.wait, d') => (.waiting s, d')
  | (.stop result, d') => (.done result, d')
termination_by s.work d
decreasing_by exact less_of_move _h

/-- Serves a request as far as possible. A request that is rejected leaves the
desk as it is. -/
def serve (p : Policy) (r : BuildRequest) (x : Context) (d : Desk σ τ) :
    (Session ι ⊕ Except ServeError Unit) × Desk σ τ :=
  match p.decode r with
  | .error e => (.inr (.error (.rejected e)), d)
  | .ok b =>
    let (s, d) := start x b d
    match run s d with
    | (.waiting s, d) => (.inl s, d)
    | (.done result, d) => (.inr (result.mapError .unwritten), d)

end Session
end ImageBuild
