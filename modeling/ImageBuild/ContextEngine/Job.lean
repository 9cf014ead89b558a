import ImageBuild.ContextEngine.Plan
import ImageBuild.Engine
import ImageBuild.Store

/-!
# Builds from an uploaded context

A build receives its context into a spool file, looks whether the context is
known, looks through it, and tells what it would do. Nothing is executed. The
file of a build that succeeds becomes a cache record, unless the context is
known already or the cache is not wanted; in all other cases it is removed.
A build with an id is entered in the store from its beginning to its end.

Between two moves anything else may happen, so a build that creates, writes,
flushes or reads its file may be cancelled while it waits for the file system.
It does not look at the cancellation before it has heard what comes of that.
-/

namespace ImageBuild.ContextEngine

/-- How far a build that has an upload has come. -/
inductive Phase where
  | opening
  /-- taking chunks; the next report is due at `threshold` bytes -/
  | receiving (file threshold : Nat)
  /-- writing a chunk that was taken -/
  | writing (file threshold : Nat) (data : ByteArray)
  | reporting (file threshold : Nat)
  /-- making sure, after the last chunk, that all of it is in the file -/
  | flushing (file : Nat)
  /-- telling the size of the context -/
  | totalling (file : Nat)
  /-- naming the context and looking whether it is known -/
  | looking (file : Nat)
  /-- telling that the context is known -/
  | noting (c : ReceivedContext)
  | inspecting (c : ReceivedContext) (isKnown : Bool)
  /-- following a plan for the image `id` -/
  | telling (c : ReceivedContext) (isKnown : Bool) (steps : List PlanStep) (id : String)
  | concluding (c : ReceivedContext) (isKnown : Bool) (result : Except BuildError String)
  /-- removing the file -/
  | discarding (file : Nat) (result : Except BuildError String)
  | leaving (result : Except BuildError String)

inductive Job where
  | arriving (context : Context) (options : BuildOptions)
  /-- a build that is entered in the store, with its token -/
  | running (token : Token) (options : BuildOptions) (phase : Phase)

def reportInterval : Nat := 1024 * 1024

/-- When the next report is due after `received` bytes. -/
def nextReport (received : Nat) : Nat := (received / reportInterval + 1) * reportInterval

/-- The report that so many bytes of the context have arrived. -/
def report (received : Nat) : Frame :=
  { Message.ofStatus (some "context") "Receiving build context" with
    progressDetail := some { current := UInt64.ofNat received }
    progress := some (Text.ByteSize.text received) : Message }.frame

namespace Phase

/-- The end of a build whose file has to be removed. -/
def fail (file : Nat) (e : BuildError) : Phase := .discarding file (.error e)

end Phase

variable {τ : Type} [Sink τ]

def received (d : Desk Store τ) : Nat :=
  match d.source with
  | none => 0
  | some s => s.bytesRead

/-- Works with a spool file, which would bring `a`. What the file system says decides how
the build goes on, and with which store. -/
def spool {α : Type} (d : Desk Store τ) (a : α) (next : Except String α → Phase × Store) :
    Move Phase (Except BuildError String) × Desk Store τ :=
  let (p, store) := next (d.store.attempt a)
  (.go p, d.withStore store)

/-- Makes a move of a build that has not begun. A build needs an upload, and
an id that is not in use. -/
def arrive (context : Context) (options : BuildOptions) (d : Desk Store τ) :
    Move Job (Except BuildError String) × Desk Store τ :=
  match d.source with
  | none => (.stop (.error .missingContext), d)
  | some _ =>
    let (token, tokens) := d.tokens.child context.token
    let d := d.inWorkshop { d.toWorkshop with tokens }
    match d.store.register options.buildId token with
    | .error e => (.stop (.error e), d)
    | .ok store => (.go (.running token options .opening), d.withStore store)

/-- Takes the next chunk of the upload. A build that was cancelled takes no
more. -/
def receive (token : Token) (file threshold : Nat) (d : Desk Store τ) :
    Move Phase (Except BuildError String) × Desk Store τ :=
  if d.tokens.isCancelled token then (.go (.fail file .canceled), d)
  else
    match d.source with
    | none => (.go (.fail file .missingContext), d)
    | some s =>
      match d.take s with
      | (.starved, _) => (.wait, d)
      | (.chunk data, d) => (.go (.writing file threshold data), d)
      | (.fault reason, d) => (.go (.fail file (.upload reason)), d)
      | (.paused, d) => (.go (.receiving file threshold), d)
      | (.ended, d) => (.go (.flushing file), d)

/-- How a build goes on that has looked for the next chunk, once there is something. -/
def Phase.found (file threshold : Nat) : Polled → Phase
  | .chunk data => .writing file threshold data
  | .fault reason => .fail file (.upload reason)
  | .paused | .starved => .receiving file threshold
  | .ended => .flushing file

/-- A build that receives its upload fails, waits or takes what is there. -/
theorem receive_cases (token : Token) (file threshold : Nat) (d : Desk Store τ) :
    (d.tokens.isCancelled token = true ∧
      receive token file threshold d = (.go (.fail file .canceled), d)) ∨
    (d.source = none ∧ receive token file threshold d = (.go (.fail file .missingContext), d)) ∨
    ∃ s, d.source = some s ∧
      ((s.next.1 = .starved ∧ receive token file threshold d = (.wait, d)) ∨
        s.next.1 ≠ .starved ∧
          receive token file threshold d =
            (.go (.found file threshold s.next.1), (d.take s).2)) := by
  unfold receive
  cases cancelled : d.tokens.isCancelled token with
  | true => exact .inl ⟨rfl, if_pos rfl⟩
  | false =>
    right
    rw [if_neg Bool.false_ne_true]
    cases hs : d.source with
    | none => exact .inl ⟨rfl, rfl⟩
    | some s =>
      refine .inr ⟨s, rfl, ?_⟩
      have polled : (d.take s).1 = s.next.1 := rfl
      rw [← polled]
      dsimp only
      rcases d.take s with ⟨found, d'⟩
      cases found with
      | starved => exact .inl ⟨rfl, rfl⟩
      | chunk | fault | paused | ended => exact .inr ⟨nofun, rfl⟩

/-- How a build goes on when a chunk is in its file. -/
def Phase.written (file threshold received : Nat) : Phase :=
  if threshold ≤ received then .reporting file (nextReport received) else .receiving file threshold

/-- Looks through a context. A context that cannot be read or is no archive fails
the build before a cancellation does. -/
def inspect (token : Token) (o : BuildOptions) (c : ReceivedContext) (isKnown : Bool)
    (d : Desk Store τ) : Phase :=
  match d.store.attempt (d.store.content c.file) with
  | .error reason => .concluding c isKnown (.error (.invalidContext reason))
  | .ok content =>
    match Archive.Summary.ofArchive o.dockerfile content with
    | .error e => .concluding c isKnown (.error (.invalidContext e.message))
    | .ok summary =>
      if d.tokens.isCancelled token then .concluding c isKnown (.error .canceled)
      else
        match Plan.ofSummary o c summary with
        | .error e => .concluding c isKnown (.error e)
        | .ok plan => .telling c isKnown plan.steps plan.id

omit [Sink τ] in
/-- A build that has looked through its context fails or has a plan. -/
theorem inspect_fails_or_tells (token : Token) (o : BuildOptions) (c : ReceivedContext)
    (isKnown : Bool) (d : Desk Store τ) :
    (∃ e, inspect token o c isKnown d = .concluding c isKnown (.error e)) ∨
      ∃ steps id, inspect token o c isKnown d = .telling c isKnown steps id := by
  unfold inspect
  split
  · exact .inl ⟨_, rfl⟩
  · split
    · exact .inl ⟨_, rfl⟩
    · split
      · exact .inl ⟨_, rfl⟩
      · split
        · exact .inl ⟨_, rfl⟩
        · exact .inr ⟨_, _, rfl⟩

/-- Turns the file of a build that succeeded into a record, or lets it be
removed. -/
def conclude (o : BuildOptions) (c : ReceivedContext) (isKnown : Bool)
    (result : Except BuildError String) (s : Store) : Phase × Store :=
  match result with
  | .error e => (.fail c.file e, s)
  | .ok id =>
    if o.noCache ∨ isKnown then (.discarding c.file (.ok id), s)
    else
      let (isTaken, s) := s.adopt c.digest c.file c.size
      (if isTaken then .leaving (.ok id) else .discarding c.file (.ok id), s)

/-- A build that failed, goes without the cache or found a record lets its file be removed. The
file of any other one becomes a record, unless another build with the same context was first. -/
theorem conclude_cases (o : BuildOptions) (c : ReceivedContext) (isKnown : Bool)
    (result : Except BuildError String) (s : Store) :
    ((∀ id, result = .ok id → o.noCache = true ∨ isKnown = true) ∧
      conclude o c isKnown result s = (.discarding c.file result, s)) ∨
    (∃ id, result = .ok id ∧ o.noCache = false ∧ isKnown = false ∧ s.holds c.digest = true ∧
      conclude o c isKnown result s =
        (.discarding c.file (.ok id), (s.adopt c.digest c.file c.size).2)) ∨
    ∃ id, result = .ok id ∧ o.noCache = false ∧ isKnown = false ∧ s.holds c.digest = false ∧
      conclude o c isKnown result s = (.leaving (.ok id), (s.adopt c.digest c.file c.size).2) := by
  unfold conclude
  cases result with
  | error e => exact .inl ⟨nofun, rfl⟩
  | ok id =>
    by_cases spared : o.noCache = true ∨ isKnown = true
    · exact .inl ⟨fun _ _ => spared, if_pos spared⟩
    · right
      simp only [not_or, Bool.not_eq_true] at spared
      obtain ⟨cached, fresh⟩ := spared
      cases known : s.holds c.digest with
      | true => exact .inl ⟨id, rfl, cached, fresh, rfl, by simp [Store.adopt, known, cached, fresh]⟩
      | false => exact .inr ⟨id, rfl, cached, fresh, rfl, by simp [Store.adopt, known, cached, fresh]⟩

/-- Makes a move of a build that is entered in the store. -/
def Phase.move (token : Token) (o : BuildOptions) (p : Phase) (d : Desk Store τ) :
    Move Phase (Except BuildError String) × Desk Store τ :=
  match p with
  | .opening =>
    spool d d.store.createFile fun
      | .ok (file, store) => (.receiving file reportInterval, store)
      -- there is no file to remove, but its number is used up
      | .error reason => (.leaving (.error (.upload reason)), d.store.tick)
  | .receiving file threshold => receive token file threshold d
  | .writing file threshold data =>
    spool d (d.store.append file data) fun
      | .ok store => (.written file threshold (received d), store)
      -- what part of the chunk is in the file now nobody will read
      | .error reason => (.fail file (.upload reason), d.store)
  | .reporting file threshold =>
    d.offer (report (received d)) (.receiving file threshold) fun e =>
      .go (.fail file (.progress e))
  | .flushing file =>
    spool d () fun
      | .ok () => (.totalling file, d.store)
      | .error reason => (.fail file (.upload reason), d.store)
  | .totalling file =>
    d.offer (report (received d)) (.looking file) fun e => .go (.fail file (.progress e))
  | .looking file =>
    let c : ReceivedContext := ⟨file, Digest.name (d.store.content file), received d⟩
    let d := d.dropSource
    if o.noCache then (.go (.inspecting c false), d)
    else
      let (isKnown, store) := d.store.touch c.digest
      (.go (if isKnown then .noting c else .inspecting c false), d.withStore store)
  | .noting c =>
    d.offer (Message.line (Plan.cachedLine c.digest)).frame (.inspecting c true) fun e =>
      .go (.leaving (.error (.progress e)))
  | .inspecting c isKnown => (.go (inspect token o c isKnown d), d)
  | .telling c isKnown [] id => (.go (.concluding c isKnown (.ok id)), d)
  | .telling c isKnown (.check :: rest) id =>
    (.go (if d.tokens.isCancelled token then .concluding c isKnown (.error .canceled)
      else .telling c isKnown rest id), d)
  | .telling c isKnown (.line text :: rest) id =>
    d.offer (Message.line text).frame (.telling c isKnown rest id) fun e =>
      .go (.concluding c isKnown (.error (.progress e)))
  | .concluding c isKnown result =>
    let (p, store) := conclude o c isKnown result d.store
    (.go p, d.withStore store)
  | .discarding file result => (.go (.leaving result), d.withStore (d.store.discard file))
  | .leaving result => (.stop result, d.withStore (d.store.unregister o.buildId))

omit [Sink τ] in
/-- Work with a spool file succeeds, or the file system fails it. -/
theorem spool_cases {α : Type} (d : Desk Store τ) (a : α) (next : Except String α → Phase × Store) :
    (d.store.fault = none ∧
      spool d a next = (.go (next (.ok a)).1, d.withStore (next (.ok a)).2)) ∨
    ∃ reason, d.store.fault = some reason ∧
      spool d a next = (.go (next (.error reason)).1, d.withStore (next (.error reason)).2) := by
  cases h : d.store.fault with
  | none => exact .inl ⟨rfl, by rw [spool, Store.attempt_of_none h]⟩
  | some reason => exact .inr ⟨reason, rfl, by rw [spool, Store.attempt_of_some h]⟩

/-- A build puts its upload away before it looks whether its context is known. Without the cache
it does not look. -/
theorem looking_cases (token : Token) (o : BuildOptions) (file : Nat) (d : Desk Store τ) :
    let c : ReceivedContext := ⟨file, Digest.name (d.store.content file), received d⟩
    let looked := d.dropSource.withStore (d.store.touch c.digest).2
    let result := (Phase.looking file).move token o d
    (o.noCache = true ∧ result = (.go (.inspecting c false), d.dropSource)) ∨
    (o.noCache = false ∧ d.store.holds c.digest = true ∧ result = (.go (.noting c), looked)) ∨
    (o.noCache = false ∧ d.store.holds c.digest = false ∧
      result = (.go (.inspecting c false), looked)) := by
  intro c looked result
  have store : d.dropSource.store = d.store := by
    obtain ⟨workshop, source, writer⟩ := d
    cases source <;> rfl
  cases cached : o.noCache with
  | true =>
    left
    refine ⟨rfl, ?_⟩
    simp only [result, Phase.move, cached, if_true]
    rfl
  | false =>
    right
    have moved : result =
        (.go (if d.store.holds c.digest then .noting c else .inspecting c false), looked) := by
      simp only [result, Phase.move, cached, Bool.false_eq_true, if_false, store]
      rfl
    cases known : d.store.holds c.digest with
    | true => exact .inl ⟨rfl, rfl, by rw [moved, if_pos known]⟩
    | false => exact .inr ⟨rfl, rfl, by rw [moved, if_neg (Bool.eq_false_iff.1 known)]⟩

def Job.move (j : Job) (d : Desk Store τ) : Move Job (Except BuildError String) × Desk Store τ :=
  match j with
  | .arriving context options => arrive context options d
  | .running token o p =>
    match p.move token o d with
    | (.go p, d) => (.go (.running token o p), d)
    | (.wait, d) => (.wait, d)
    | (.stop result, d) => (.stop result, d)

/-- What becomes of the store when a build is given up: its id can be used
again, and its file stays. -/
def Job.abandon (j : Job) (s : Store) : Store :=
  match j with
  | .arriving .. => s
  | .running _ o _ => s.unregister o.buildId

end ImageBuild.ContextEngine
