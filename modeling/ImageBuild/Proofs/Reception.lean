import ImageBuild.Proofs.Spool

/-!
# Where builds come from

A floor forgets what was taken from an upload, and it does not know where the
token of a build comes from. A `Reception` is a floor that remembers: every
build comes with the context of a request, and what has arrived of its upload is
kept, also after the build. A request may have its context made from another
one, so the tokens of contexts form trees.
-/

namespace ImageBuild

namespace Store

@[simp] theorem touch_files (s : Store) (digest : String) :
    (s.touch digest).2.files = s.files := rfl
@[simp] theorem touch_clock (s : Store) (digest : String) :
    (s.touch digest).2.clock = s.clock + 1 := rfl

@[simp] theorem adopt_files (s : Store) (digest : String) (file size : Nat) :
    (s.adopt digest file size).2.files = s.files := by
  unfold adopt
  split <;> rfl

@[simp] theorem adopt_running (s : Store) (digest : String) (file size : Nat) :
    (s.adopt digest file size).2.running = s.running := by
  unfold adopt
  split <;> rfl

@[simp] theorem adopt_clock (s : Store) (digest : String) (file size : Nat) :
    (s.adopt digest file size).2.clock = s.clock + 1 := by
  unfold adopt
  split <;> rfl

@[simp] theorem adopt_fault (s : Store) (digest : String) (file size : Nat) :
    (s.adopt digest file size).2.fault = s.fault := by
  unfold adopt
  split <;> rfl

@[simp] theorem unregister_files (s : Store) (id : Option String) :
    (s.unregister id).files = s.files := by
  unfold unregister
  split <;> rfl

@[simp] theorem unregister_records (s : Store) (id : Option String) :
    (s.unregister id).records = s.records := by
  unfold unregister
  split <;> rfl

@[simp] theorem unregister_clock (s : Store) (id : Option String) :
    (s.unregister id).clock = s.clock := by
  unfold unregister
  split <;> rfl

theorem register_ok {s s' : Store} {id : Option String} {t : Token}
    (h : s.register id t = .ok s') :
    (∀ i, id = some i → s.token? i = none) ∧
      s' = { s with running := s.running ++ (id.map (·, t)).toList } := by
  unfold register at h
  split at h
  · cases h
    simp
  · next i =>
    split at h
    · cases h
    · next free =>
      cases h
      exact ⟨fun j hj => by cases hj; exact free, rfl⟩

end Store

namespace ContextEngine

variable {τ : Type}

/-! ## What a phase does to the store -/

/-- What a move of a phase does to the store. -/
inductive Phase.Changes (p : Phase) (s : Store) : Store → Prop where
  | nothing : Changes p s s
  | create (hp : p = .opening) : Changes p s s.createFile.2
  /-- the file could not be created -/
  | tick (hp : p = .opening) : Changes p s s.tick
  | append {file threshold : Nat} {data : ByteArray} (hp : p = .writing file threshold data) :
      Changes p s (s.append file data)
  | touch {file : Nat} (hp : p = .looking file) (digest : String) :
      Changes p s (s.touch digest).2
  | adopt {c : ReceivedContext} {isKnown : Bool} {id : String}
      (hp : p = .concluding c isKnown (.ok id)) :
      Changes p s (s.adopt c.digest c.file c.size).2
  | discard {file : Nat} {result : Except BuildError String} (hp : p = .discarding file result) :
      Changes p s (s.discard file)

/-- What a move of a phase has done to the workshop. Only the last one takes the
build out of the store. -/
def Phase.Leads (p : Phase) (o : BuildOptions) (w : Workshop Store) :
    Move Phase (Except BuildError String) × Desk Store τ → Prop
  | (.go _, d) => d.tokens = w.tokens ∧ p.Changes w.store d.store
  | (.wait, d) => d.toWorkshop = w
  | (.stop result, d) =>
    d.tokens = w.tokens ∧ p = .leaving result ∧ d.store = w.store.unregister o.buildId

section Moves

variable [Sink τ]

theorem leads_offer {p next : Phase} {failed : SinkError → Phase} (o : BuildOptions)
    (d : Desk Store τ) (f : Frame) :
    p.Leads o d.toWorkshop (d.offer f next fun e => .go (failed e)) := by
  rcases d.offer_cases f next (fun e => (.go (failed e) : Move Phase (Except BuildError String)))
    with ⟨-, h⟩ | ⟨-, h⟩ | ⟨e, -, h⟩ <;> rw [h]
  · exact ⟨rfl, .nothing⟩
  · rfl
  · exact ⟨rfl, .nothing⟩

omit [Sink τ] in
theorem leads_spool {α : Type} {p : Phase} (o : BuildOptions) (d : Desk Store τ) {a : α}
    {next : Except String α → Phase × Store} (done : p.Changes d.store (next (.ok a)).2)
    (failed : ∀ reason, p.Changes d.store (next (.error reason)).2) :
    p.Leads o d.toWorkshop (spool d a next) := by
  rcases spool_cases d a next with ⟨-, h⟩ | ⟨reason, -, h⟩ <;> rw [h]
  · exact ⟨rfl, done⟩
  · exact ⟨rfl, failed reason⟩

theorem leads_receive (token : Token) (o : BuildOptions) (file threshold : Nat)
    (d : Desk Store τ) :
    (Phase.receiving file threshold).Leads o d.toWorkshop (receive token file threshold d) := by
  rcases receive_cases token file threshold d with
    ⟨-, h⟩ | ⟨-, h⟩ | ⟨s, -, ⟨-, h⟩ | ⟨-, h⟩⟩ <;> rw [h]
  · exact ⟨rfl, .nothing⟩
  · exact ⟨rfl, .nothing⟩
  · rfl
  · have hw := d.take_toWorkshop s
    exact ⟨congrArg (·.tokens) hw, hw ▸ .nothing⟩

/-- **A move of a phase** leaves the tokens alone and changes the store in one of
the ways of `Phase.Changes`. -/
theorem Phase.leads_move (token : Token) (o : BuildOptions) (p : Phase) (d : Desk Store τ) :
    p.Leads o d.toWorkshop (p.move token o d) := by
  cases p with
  | opening =>
    unfold Phase.move
    exact leads_spool o d (.create rfl) fun _ => .tick rfl
  | receiving file threshold => exact leads_receive token o file threshold d
  | writing file threshold data =>
    unfold Phase.move
    exact leads_spool o d (.append rfl) fun _ => .nothing
  | reporting file threshold => exact leads_offer o d _
  | flushing file =>
    unfold Phase.move
    exact leads_spool o d .nothing fun _ => .nothing
  | totalling file => exact leads_offer o d _
  | looking file =>
    have hw := d.dropSource_toWorkshop
    have tokens : d.dropSource.tokens = d.tokens := congrArg (·.tokens) hw
    rcases looking_cases token o file d with ⟨-, hl⟩ | ⟨-, -, hl⟩ | ⟨-, -, hl⟩ <;> rw [hl]
    · exact ⟨tokens, hw ▸ .nothing⟩
    · exact ⟨tokens, .touch rfl _⟩
    · exact ⟨tokens, .touch rfl _⟩
  | noting c => exact leads_offer o d _
  | inspecting c isKnown => exact ⟨rfl, .nothing⟩
  | telling c isKnown steps id =>
    cases steps with
    | nil => exact ⟨rfl, .nothing⟩
    | cons step rest =>
      cases step with
      | check => exact ⟨rfl, .nothing⟩
      | line text => exact leads_offer o d _
  | concluding c isKnown result =>
    refine ⟨rfl, ?_⟩
    show Changes _ _ (conclude o c isKnown result d.store).2
    rcases conclude_cases o c isKnown result d.store with
      ⟨-, h⟩ | ⟨id, rfl, -, -, -, h⟩ | ⟨id, rfl, -, -, -, h⟩ <;> rw [h]
    · exact .nothing
    · exact .adopt rfl
    · exact .adopt rfl
  | discarding file result => exact ⟨rfl, .discard rfl⟩
  | leaving result => exact ⟨rfl, rfl, rfl⟩

end Moves

/-! ## Contents -/

section Contents

variable {s s' : Store} {n : Nat}

theorem content_createFile_of_mem (h : n ∈ s.fileNumbers) :
    s.createFile.2.content n = s.content n := by
  obtain ⟨f, hf, rfl⟩ := List.mem_map.1 h
  have found : (s.files.find? (·.number = f.number)).isSome :=
    List.find?_isSome.2 ⟨f, hf, by simp⟩
  simp only [Store.content, Store.createFile, List.find?_append, Option.or_of_isSome found]

theorem content_createFile_self (past : ∀ m ∈ s.fileNumbers, m < s.clock) :
    s.createFile.2.content s.clock = .empty := by
  have new : s.files.find? (·.number = s.clock) = none := by
    refine List.find?_eq_none.2 fun f hf => ?_
    have := past f.number (List.mem_map_of_mem hf)
    simp only [decide_eq_true_eq]
    omega
  simp [Store.content, Store.createFile, List.find?_append, new]

theorem content_append (s : Store) (file n : Nat) (data : ByteArray) (h : n ∈ s.fileNumbers) :
    (s.append file data).content n =
      if n = file then s.content n ++ data else s.content n := by
  simp only [Store.content, Store.append, List.find?_map]
  have same : (fun f : SpoolFile => decide (f.number = n)) ∘
      (fun f => if f.number = file then { f with content := f.content ++ data } else f) =
      fun f => decide (f.number = n) := by
    funext f
    simp only [Function.comp_apply]
    split <;> rfl
  rw [same]
  obtain ⟨g, hg, hgn⟩ := List.mem_map.1 h
  cases hf : s.files.find? (·.number = n) with
  | none => exact absurd (List.find?_eq_none.1 hf g hg) (by simp [hgn])
  | some f =>
    have hn : f.number = n := by simpa using List.find?_some hf
    simp only [Option.map_some, hn]
    split <;> rfl

theorem content_discard {m : Nat} (h : n ≠ m) : (s.discard m).content n = s.content n := by
  simp only [Store.content, Store.discard, List.find?_filter]
  congr 2
  funext f
  by_cases hf : f.number = n
  · simp [hf, h]
  · simp [hf]

theorem content_of_files (h : s'.files = s.files) (n : Nat) : s'.content n = s.content n := by
  simp only [Store.content, h]

theorem fileNumbers_append (s : Store) (file : Nat) (data : ByteArray) :
    (s.append file data).fileNumbers = s.fileNumbers := by
  cases Effect.append s file file data with
  | keep numbers => exact numbers

/-- A change of the store that leaves a file there with what it holds. -/
def Spares (s s' : Store) (n : Nat) : Prop :=
  n ∈ s'.fileNumbers ∧ s'.content n = s.content n

/-- **A move leaves other builds' files alone.** -/
theorem Phase.Changes.spares {p : Phase} (h : p.Changes s s') (hn : n ∈ s.fileNumbers)
    (other : p.file? ≠ some n) : Spares s s' n := by
  cases h with
  | nothing => exact ⟨hn, rfl⟩
  | create =>
    refine ⟨?_, content_createFile_of_mem hn⟩
    rw [fileNumbers_createFile]
    exact List.mem_append_left _ hn
  | tick => exact ⟨hn, rfl⟩
  | @append file threshold data hp =>
    subst hp
    refine ⟨fileNumbers_append s _ _ ▸ hn, ?_⟩
    rw [content_append s _ n data hn, if_neg fun e => other (congrArg some e.symm)]
  | touch hp => exact ⟨hn, content_of_files rfl n⟩
  | adopt hp =>
    refine ⟨?_, content_of_files (Store.adopt_files ..) n⟩
    rwa [Store.fileNumbers, Store.adopt_files]
  | @discard file result hp =>
    subst hp
    have ne : n ≠ file := fun e => other (e ▸ rfl)
    refine ⟨?_, content_discard ne⟩
    rw [fileNumbers_discard]
    exact List.mem_filter.2 ⟨hn, by simpa using ne⟩

end Contents

/-! ## Receptions -/

/-- What a build works with and finds: the context of its request, all that has arrived of
its upload, and what the file system said when it failed the build. -/
structure Visit where
  context : Context
  upload : Option Upload
  faults : List String := []

namespace Visit

/-- Whether more of the upload may arrive. -/
def isOpen (v : Visit) : Bool :=
  match v.upload with
  | none => false
  | some u => !u.isClosed

def feed (v : Visit) (items : List Upload.Item) : Visit :=
  { v with upload := v.upload.map (·.feed items) }

def close (v : Visit) : Visit := { v with upload := v.upload.map (·.close) }

/-- What is known of a build that has worked with its file, if the file system failed it. -/
def suffer (v : Visit) (fault : Option String) : Visit :=
  { v with faults := v.faults ++ fault.toList }

/-- The upload as a build finds it when it begins. -/
def source (v : Visit) : Option Source := v.upload.map fun u => ⟨u, 0, false⟩

end Visit

/-- A floor with what its builds came with. -/
structure Reception (τ : Type) where
  floor : Floor τ := {}
  /-- the contexts of all requests so far -/
  contexts : List Context := []
  /-- what the builds in flight came with, seat by seat -/
  present : List Visit := []
  /-- what the builds came with that have ended or were given up -/
  past : List Visit := []

/-- Something that happens at a reception. -/
inductive ReceptionEvent (τ : Type) where
  /-- a request gets a context with a token of its own -/
  | request (version : Version)
  /-- a request gets a context that is made from an earlier one -/
  | branch (context : Nat)
  | arrive (context : Nat) (options : BuildOptions) (upload : Option Upload) (writer : Writer τ)
  | move (seat : Nat)
  | giveUp (seat : Nat)
  /-- more of an upload arrives, unless it is complete -/
  | feed (seat : Nat) (items : List Upload.Item)
  | complete (seat : Nat)
  | respond (seat : Nat) (sink : τ)
  | cancel (token : Token)
  | cancelId (id : String)
  | strike (o : PruneOptions)
  | sweep (i : Nat)
  | disk (fault : Option String)

def Floor.withTokens (y : Floor τ) (tokens : Cancellation) : Floor τ :=
  { y with workshop := { y.workshop with tokens } }

/-- Whether the next move of a build is its last one. -/
def Floor.stops [Sink τ] (y : Floor τ) (i : Nat) : Bool :=
  match y.seats[i]? with
  | none => false
  | some seat =>
    match seat.job.move (y.desk seat) with
    | (.stop _, _) => true
    | _ => false

/-- Whether a build works with its file in its next move. -/
def Phase.spools : Phase → Bool
  | .opening | .writing .. | .flushing _ | .inspecting .. => true
  | _ => false

/-- What the file system says to a build that works with its file, if it fails it. -/
def Job.fault? (j : Job) (s : Store) : Option String :=
  match j with
  | .arriving .. => none
  | .running _ _ p => if p.spools then s.fault else none

theorem Visit.suffer_none (v : Visit) : v.suffer none = v := by
  simp only [Visit.suffer, Option.toList_none, List.append_nil]

theorem Job.fault?_of_none {s : Store} (h : s.fault = none) (j : Job) : j.fault? s = none := by
  unfold Job.fault?
  split
  · rfl
  · simp only [h, ite_self]

theorem Visit.mem_suffer (v : Visit) (token : Token) (o : BuildOptions) {p : Phase} {s : Store}
    {reason : String} (spools : p.spools = true) (h : s.fault = some reason) :
    reason ∈ (v.suffer ((Job.running token o p).fault? s)).faults := by
  simp only [Visit.suffer, Job.fault?, spools, if_true, h, Option.toList_some]
  exact List.mem_append_right _ (List.mem_singleton_self _)

def Floor.fault? (y : Floor τ) (i : Nat) : Option String :=
  (y.seats[i]?).bind (·.job.fault? y.workshop.store)

namespace Reception

def store (y : Reception τ) : Store := y.floor.workshop.store

def tokens (y : Reception τ) : Cancellation := y.floor.workshop.tokens

def meet (y : Reception τ) (x : Context × Cancellation) : Reception τ :=
  { y with floor := y.floor.withTokens x.2, contexts := y.contexts ++ [x.1] }

/-- A reception when a build is no longer in flight. -/
def leave (y : Reception τ) (floor : Floor τ) (i : Nat) : Reception τ :=
  { y with
    floor, present := y.present.eraseIdx i, past := y.present[i]?.toList ++ y.past }

variable [Sink τ]

def step (y : Reception τ) : ReceptionEvent τ → Reception τ
  | .request version => y.meet (Context.fresh y.tokens version)
  | .branch k =>
    match y.contexts[k]? with
    | none => y
    | some x => y.meet (Context.child y.tokens x)
  | .arrive k options upload writer =>
    match y.contexts[k]? with
    | none => y
    | some context =>
      let v : Visit := { context, upload }
      { y with
        floor := y.floor.step (.arrive context options v.source writer)
        present := y.present ++ [v] }
  | .move i =>
    if y.floor.stops i then y.leave (y.floor.move i) i
    else
      { y with
        floor := y.floor.move i, present := y.present.modify i (·.suffer (y.floor.fault? i)) }
  | .giveUp i => y.leave (y.floor.giveUp i) i
  | .feed i items =>
    if (y.present[i]?).any (·.isOpen) then
      { y with
        floor := y.floor.step (.feed i items), present := y.present.modify i (·.feed items) }
    else y
  | .complete i =>
    { y with floor := y.floor.step (.complete i), present := y.present.modify i (·.close) }
  | .respond i sink => { y with floor := y.floor.step (.respond i sink) }
  | .cancel token => { y with floor := y.floor.step (.cancel token) }
  | .cancelId id => { y with floor := y.floor.step (.cancelId id) }
  | .strike o => { y with floor := y.floor.step (.strike o) }
  | .sweep i => { y with floor := y.floor.step (.sweep i) }
  | .disk fault => { y with floor := y.floor.step (.disk fault) }

def run (y : Reception τ) (events : List (ReceptionEvent τ)) : Reception τ := events.foldl step y

theorem run_snoc (y : Reception τ) (events : List (ReceptionEvent τ)) (e : ReceptionEvent τ) :
    y.run (events ++ [e]) = (y.run events).step e := by
  simp [run]

theorem accounted_step {y : Reception τ} (h : Accounted y.floor) (e : ReceptionEvent τ) :
    Accounted (y.step e).floor := by
  have meet (x : Context × Cancellation) : Accounted (y.meet x).floor :=
    ⟨h.files, h.once, h.past, h.digests⟩
  cases e with
  | request version => exact meet _
  | branch k =>
    simp only [step]
    split
    · exact h
    · exact meet _
  | arrive k options upload writer =>
    simp only [step]
    split
    · exact h
    · next x _ => exact h.step (.arrive x options (Visit.source { context := x, upload }) writer)
  | move i =>
    simp only [step]
    split <;> exact h.move i
  | giveUp i => exact h.giveUp i
  | feed i items =>
    simp only [step]
    split
    · exact h.step (.feed i items)
    · exact h
  | complete i => exact h.step (.complete i)
  | respond i sink => exact h.step (.respond i sink)
  | cancel token => exact h.step (.cancel token)
  | cancelId id => exact h.step (.cancelId id)
  | strike o => exact h.step (.strike o)
  | sweep i => exact h.step (.sweep i)
  | disk fault => exact h.step (.disk fault)

end Reception

/-! ## Moves on a floor -/

/-- What a move of a build does to the store. -/
inductive Job.Changes (j : Job) (s s' : Store) : Prop where
  | phase {token : Token} {o : BuildOptions} {p : Phase} (hj : j = .running token o p)
      (h : p.Changes s s')
  /-- the build is entered, or taken out -/
  | registry (files : s'.files = s.files) (records : s'.records = s.records)
      (clock : s'.clock = s.clock)

section Moves

variable [Sink τ]

theorem Job.changes_move (j : Job) (d : Desk Store τ) : j.Changes d.store (j.move d).2.store := by
  cases j with
  | arriving context options =>
    simp only [Job.move, arrive]
    split
    · exact .registry rfl rfl rfl
    · split
      · exact .registry rfl rfl rfl
      · next store h =>
        obtain ⟨-, rfl⟩ := Store.register_ok h
        exact .registry rfl rfl rfl
  | running token o p =>
    have leads := p.leads_move token o d
    simp only [Job.move]
    split
    · next q d' h =>
      rw [h] at leads
      exact .phase rfl leads.2
    · next d' h =>
      rw [h] at leads
      have store : d'.store = d.store := congrArg (·.store) leads
      exact .phase rfl (store ▸ .nothing)
    · next result d' h =>
      rw [h] at leads
      have store : d'.store = d.store.unregister o.buildId := leads.2.2
      rw [store]
      exact .registry (by simp) (by simp) (by simp)

end Moves

theorem Job.changes_abandon (j : Job) (s : Store) : j.Changes s (j.abandon s) := by
  cases j with
  | arriving => exact .registry rfl rfl rfl
  | running token o p => exact .registry (by simp [abandon]) (by simp [abandon]) (by simp [abandon])

theorem Job.Changes.spares {j : Job} {s s' : Store} {n : Nat} (h : j.Changes s s')
    (hn : n ∈ s.fileNumbers) (other : j.file? ≠ some n) : Spares s s' n := by
  cases h with
  | phase hj h =>
    subst hj
    exact h.spares hn other
  | registry files =>
    refine ⟨?_, content_of_files files n⟩
    rwa [Store.fileNumbers, files]

namespace Floor

variable [Sink τ] {y : Floor τ} {i : Nat} {seat : Seat τ}

theorem move_none (h : y.seats[i]? = none) : y.stops i = false ∧ y.move i = y := by
  simp only [stops, move, h, and_self]

theorem move_workshop (hs : y.seats[i]? = some seat) :
    (y.move i).workshop = (seat.job.move (y.desk seat)).2.toWorkshop := by
  simp only [move, hs]
  split <;> next h => rw [h]

theorem move_go {job : Job} {d : Desk Store τ} (hs : y.seats[i]? = some seat)
    (h : seat.job.move (y.desk seat) = (.go job, d)) :
    y.stops i = false ∧ (y.move i).seats = y.seats.set i ⟨job, d.source, d.writer⟩ := by
  simp only [stops, move, hs, h, and_self]

theorem move_wait {d : Desk Store τ} (hs : y.seats[i]? = some seat)
    (h : seat.job.move (y.desk seat) = (.wait, d)) :
    y.stops i = false ∧ (y.move i).seats = y.seats.set i ⟨seat.job, d.source, d.writer⟩ := by
  simp only [stops, move, hs, h, and_self]

omit [Sink τ] in
theorem giveUp_some (hs : y.seats[i]? = some seat) :
    (y.giveUp i).workshop = { y.workshop with store := seat.job.abandon y.workshop.store } ∧
      (y.giveUp i).seats = y.seats.eraseIdx i := by
  simp only [giveUp, hs, and_self]

theorem move_stop {d : Desk Store τ} {result : Except BuildError String}
    (hs : y.seats[i]? = some seat) (h : seat.job.move (y.desk seat) = (.stop result, d)) :
    y.stops i = true ∧ (y.move i).seats = y.seats.eraseIdx i := by
  simp only [stops, move, hs, h, and_self]

end Floor

theorem Reception.step_move_stays [Sink τ] {y : Reception τ} {i : Nat}
    (stays : y.floor.stops i = false) :
    y.step (.move i) =
      { y with
        floor := y.floor.move i
        present := y.present.modify i (·.suffer (y.floor.fault? i)) } := by
  simp only [Reception.step, stays, Bool.false_eq_true, if_false]

theorem Reception.step_move_none [Sink τ] {y : Reception τ} {i : Nat}
    (seated : y.present.length = y.floor.seats.length) (hs : y.floor.seats[i]? = none) :
    y.step (.move i) = y := by
  obtain ⟨stays, moved⟩ := Floor.move_none hs
  have hi : y.present.length ≤ i := seated ▸ List.getElem?_eq_none_iff.1 hs
  rw [Reception.step_move_stays stays, moved, List.modify_eq_self hi]

theorem Reception.store_move [Sink τ] {y : Reception τ} {i : Nat} {seat : Seat τ}
    (hs : y.floor.seats[i]? = some seat) :
    (y.step (.move i)).store = (seat.job.move (y.floor.desk seat)).2.store := by
  have moved := congrArg (·.store) (Floor.move_workshop hs)
  simp only [Reception.step]
  split <;> exact moved

end ContextEngine
end ImageBuild
