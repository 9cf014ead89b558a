import ImageBuild.ContextEngine.Basic
import ImageBuild.Proofs.Session

/-!
# Builds side by side

A `Floor` is the workshop of the context engine with the builds in flight. Its
events come in any order: builds arrive and move, uploads and sinks change
between two moves, tokens are cancelled, builds are given up, and a prune first
takes records out of the cache and then removes their files one by one
(`prune_eq_sweep` says that this is a prune). A build makes one move at a time,
so every order of moves of all builds is a run.
-/

namespace ImageBuild

namespace Store

/-! ## A prune in two parts -/

/-- Takes the records of a prune out of the cache and tells their files. -/
def strike (s : Store) (o : PruneOptions) : List Nat × Store :=
  match o.filters.keys.find? (· ≠ knownFilter) with
  | some _ => ([], s)
  | none =>
    let gone := s.evicted o
    (gone.map (·.file),
      { s with records := s.records.filter fun r => !gone.any (·.digest = r.digest) })

def sweep (s : Store) (files : List Nat) : Store := files.foldl discard s

theorem sweep_eq (s : Store) (files : List Nat) :
    s.sweep files = { s with files := s.files.filter fun f => !files.any (· = f.number) } := by
  unfold sweep
  induction files generalizing s with
  | nil =>
    show s = { s with files := s.files.filter fun _ => true }
    rw [List.filter_eq_self.2 fun _ _ => rfl]
  | cons n rest ih =>
    rw [List.foldl_cons, ih]
    simp only [discard, List.filter_filter, List.any_cons]
    congr 1
    refine List.filter_congr fun f _ => ?_
    by_cases hf : f.number = n
    · simp [hf]
    · simp [hf, Ne.symm hf]

/-- **A prune** strikes the records and sweeps their files. -/
theorem prune_eq_sweep (s : Store) (o : PruneOptions) :
    (s.prune o).2 = (s.strike o).2.sweep (s.strike o).1 := by
  cases hk : o.filters.keys.find? (· ≠ knownFilter) with
  | some key =>
    simp only [prune, strike, hk]
    rfl
  | none =>
    simp only [prune, strike, hk, sweep_eq, List.any_map]
    rfl

end Store

namespace ContextEngine

/-! ## Events -/

/-- A build in flight, with its upload and its way to the client. -/
structure Seat (τ : Type) where
  job : Job
  source : Option Source
  writer : Writer τ

/-- A workshop with the builds in flight. -/
structure Floor (τ : Type) where
  workshop : Workshop Store := { store := {}, tokens := {} }
  seats : List (Seat τ) := []
  /-- the files that a prune has still to remove -/
  doomed : List Nat := []
  /-- the files of builds that could not tell that their context is known -/
  stranded : List Nat := []
  /-- the files of builds that were given up -/
  abandoned : List Nat := []

/-- Something that happens on a floor. -/
inductive FloorEvent (τ : Type) where
  | arrive (context : Context) (options : BuildOptions) (source : Option Source) (writer : Writer τ)
  | move (seat : Nat)
  | feed (seat : Nat) (items : List Upload.Item)
  | complete (seat : Nat)
  /-- the other end of a sink does something -/
  | respond (seat : Nat) (sink : τ)
  | cancel (token : Token)
  | cancelId (id : String)
  | strike (o : PruneOptions)
  /-- a prune removes one of its files -/
  | sweep (i : Nat)
  | giveUp (seat : Nat)
  /-- the file system begins to fail those who work with files, or works again -/
  | disk (fault : Option String)

def Phase.file? : Phase → Option Nat
  | .opening | .leaving _ => none
  | .receiving file _ | .writing file _ _ | .reporting file _ | .flushing file => some file
  | .totalling file | .looking file => some file
  | .noting c | .inspecting c _ | .telling c _ _ _ | .concluding c _ _ => some c.file
  | .discarding file _ => some file

def Job.file? : Job → Option Nat
  | .arriving .. => none
  | .running _ _ p => p.file?

/-- The file that a build leaves behind when it goes on to `next`: it could not
tell that its context is known. -/
def Phase.strands (p next : Phase) : Option Nat :=
  match p, next with
  | .noting c, .leaving _ => some c.file
  | _, _ => none

/-- The file that a build leaves behind when it goes on to `next`. -/
def Job.strands (j next : Job) : Option Nat :=
  match j, next with
  | .running _ _ p, .running _ _ q => p.strands q
  | _, _ => none

namespace Floor

variable {τ : Type} [Sink τ]

def desk (y : Floor τ) (seat : Seat τ) : Desk Store τ := ⟨y.workshop, seat.source, seat.writer⟩

def change (y : Floor τ) (i : Nat) (f : Seat τ → Seat τ) : Floor τ :=
  { y with seats := y.seats.modify i f }

/-- Lets a build make a move. One that stops is no longer in flight. -/
def move (y : Floor τ) (i : Nat) : Floor τ :=
  match y.seats[i]? with
  | none => y
  | some seat =>
    match seat.job.move (y.desk seat) with
    | (.go job, d) =>
      { y with
        workshop := d.toWorkshop
        seats := y.seats.set i ⟨job, d.source, d.writer⟩
        stranded := (seat.job.strands job).toList ++ y.stranded }
    | (.wait, d) =>
      { y with workshop := d.toWorkshop, seats := y.seats.set i ⟨seat.job, d.source, d.writer⟩ }
    | (.stop _, d) => { y with workshop := d.toWorkshop, seats := y.seats.eraseIdx i }

def giveUp (y : Floor τ) (i : Nat) : Floor τ :=
  match y.seats[i]? with
  | none => y
  | some seat =>
    { y with
      workshop := { y.workshop with store := seat.job.abandon y.workshop.store }
      seats := y.seats.eraseIdx i
      abandoned := seat.job.file?.toList ++ y.abandoned }

def step (y : Floor τ) : FloorEvent τ → Floor τ
  | .arrive context options source writer =>
    { y with seats := y.seats ++ [⟨.arriving context options, source, writer⟩] }
  | .move i => y.move i
  | .feed i items => y.change i fun seat => { seat with source := seat.source.map (·.feed items) }
  | .complete i => y.change i fun seat => { seat with source := seat.source.map (·.close) }
  | .respond i sink => y.change i fun seat => { seat with writer := { seat.writer with sink } }
  | .cancel token =>
    { y with workshop := { y.workshop with tokens := y.workshop.tokens.cancel token } }
  | .cancelId id =>
    { y with
      workshop := { y.workshop with tokens := y.workshop.store.cancel id y.workshop.tokens } }
  | .strike o =>
    { y with
      workshop := { y.workshop with store := (y.workshop.store.strike o).2 }
      doomed := y.doomed ++ (y.workshop.store.strike o).1 }
  | .sweep i =>
    match y.doomed[i]? with
    | none => y
    | some n =>
      { y with
        workshop := { y.workshop with store := y.workshop.store.discard n }
        doomed := y.doomed.eraseIdx i }
  | .giveUp i => y.giveUp i
  | .disk fault =>
    { y with workshop := { y.workshop with store := { y.workshop.store with fault } } }

def run (y : Floor τ) (events : List (FloorEvent τ)) : Floor τ := events.foldl step y

theorem run_snoc (y : Floor τ) (events : List (FloorEvent τ)) (e : FloorEvent τ) :
    y.run (events ++ [e]) = (y.run events).step e := by
  simp [run]

end Floor
end ContextEngine
end ImageBuild
