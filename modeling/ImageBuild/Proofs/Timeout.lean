import ImageBuild.Proofs.Expiry

/-!
# Builds whose time is limited

A service serves one build, while its upload arrives and time passes (`Incident`). As long as
the time of the build is not over, a limit makes no difference (`Exchange.meetAll_timeless`),
and once the session is done, it makes none any more (`Exchange.IsDone.meetAll`). When the time
is over and the session is not done, the build still receives its upload. Then it expires, and
all that it has done is taken back (`Exchange.Proceeds.late`). So a limit is exact
(`Service.timeout_exact`).
-/

namespace ImageBuild

/-- Something that happens to a service with one build: to its upload, or to its clock. -/
inductive Incident where
  | feed (items : List Upload.Item)
  /-- the rest of the upload arrives -/
  | finish (items : List Upload.Item)
  | advance (milliseconds : Nat)

namespace Incident

def lasts : Incident → Nat
  | .advance milliseconds => milliseconds
  | _ => 0

/-- How many milliseconds pass in a course of incidents. -/
def elapsed : List Incident → Nat
  | [] => 0
  | p :: ps => p.lasts + elapsed ps

theorem elapsed_cons (p : Incident) (ps : List Incident) :
    elapsed (p :: ps) = p.lasts + elapsed ps := rfl

/-- An exchange whose upload meets with an incident. -/
def arrive {ι : Type} (p : Incident) (e : Exchange ι) : Exchange ι :=
  match p with
  | .feed items => e.feed items
  | .finish items => (e.feed items).endUpload
  | .advance _ => e

end Incident

namespace Service

variable {ι σ : Type} [Engine ι σ]

/-- A service that meets with an incident of the build with a number. -/
def meet (s : Service ι σ) (number : Nat) : Incident → Service ι σ
  | .feed items => s.feed number items
  | .finish items => s.endUpload number items
  | .advance milliseconds => s.advance milliseconds

def meetAll (s : Service ι σ) (number : Nat) (ps : List Incident) : Service ι σ :=
  ps.foldl (·.meet number ·) s

end Service

namespace Exchange

variable {ι σ : Type}

def timeless (e : Exchange ι) : Exchange ι := { e with deadline := none }

/-- Whether the time of an exchange is not over at a time. -/
def IsEarly (e : Exchange ι) (now : Nat) : Prop := ∀ t, e.deadline = some t → now < t

theorem expire_early {e : Exchange ι} {now : Nat} (h : e.IsEarly now) (w : Workshop σ) :
    e.expire now w = (e, w) := by
  unfold expire
  split
  · rfl
  · next t ht => rw [if_pos (h t ht)]

theorem expire_late {e : Exchange ι} {now t : Nat} (ht : e.deadline = some t) (late : t ≤ now)
    (w : Workshop σ) :
    e.expire now w = (e.timeless, { w with tokens := w.tokens.cancel e.token }) := by
  simp only [expire, ht, if_neg (Nat.not_lt.2 late)]
  rfl

variable [Engine ι σ]

/-- An exchange with its workshop goes on at a time, as far as it can. -/
def goOn (now : Nat) (x : Exchange ι × Workshop σ) : Exchange ι × Workshop σ :=
  let y := x.1.expire now x.2
  y.1.settle y.2

theorem goOn_early {now : Nat} {x : Exchange ι × Workshop σ} (h : x.1.IsEarly now) :
    goOn now x = x.1.settle x.2 := by
  rw [goOn, expire_early h]

def meet (now : Nat) (x : Exchange ι × Workshop σ) (p : Incident) : Exchange ι × Workshop σ :=
  goOn (now + p.lasts) (p.arrive x.1, x.2)

def meetAll (now : Nat) (x : Exchange ι × Workshop σ) : List Incident → Exchange ι × Workshop σ
  | [] => x
  | p :: ps => meetAll (now + p.lasts) (meet now x p) ps

theorem meetAll_append (now : Nat) (x : Exchange ι × Workshop σ) (ps qs : List Incident) :
    meetAll now x (ps ++ qs) = meetAll (now + Incident.elapsed ps) (meetAll now x ps) qs := by
  induction ps generalizing now x with
  | nil => rfl
  | cons p ps ih =>
    rw [List.cons_append, meetAll, ih, Incident.elapsed_cons, Nat.add_assoc]
    rfl

end Exchange

/-! ## A service with one exchange -/

namespace Service

variable {ι σ : Type} [Engine ι σ]

def only (s : Service ι σ) (number now : Nat) (x : Exchange ι × Workshop σ) : Service ι σ :=
  { s with now, workshop := x.2, exchanges := [(number, x.1)] }

variable (s : Service ι σ) (number now : Nat) (x : Exchange ι × Workshop σ)

omit [Engine ι σ] in
theorem exchange?_only : (s.only number now x).exchange? number = some x.1 := by
  simp [exchange?, only]

omit [Engine ι σ] in
theorem change_only (f : Exchange ι → Exchange ι) :
    (s.only number now x).change number f = s.only number now (f x.1, x.2) := by
  simp [change, only]

theorem meet_only (p : Incident) : (s.only number now x).meet number p =
    s.only number (now + p.lasts) (Exchange.meet now x p) := by
  cases p with
  | advance => rfl
  | feed | finish =>
    simp only [meet, feed, endUpload, change_only]
    rfl

/-- **A service with one exchange** does what the exchange does. -/
theorem meetAll_only (ps : List Incident) : (s.only number now x).meetAll number ps =
    s.only number (now + Incident.elapsed ps) (Exchange.meetAll now x ps) := by
  induction ps generalizing now x with
  | nil => rfl
  | cons p ps ih =>
    show ((s.only number now x).meet number p).meetAll number ps = _
    rw [meet_only, ih, Incident.elapsed_cons, Nat.add_assoc]
    rfl

end Service

/-! ## A limit that does not matter -/

namespace Exchange

variable {ι σ : Type}

theorem timeless_deliver? (e : Exchange ι) :
    e.timeless.deliver? = e.deliver?.map timeless := by
  have same : e.timeless.channel = e.channel := rfl
  unfold deliver?
  rw [same]
  rcases e.channel.receive with ⟨received, c⟩
  cases received <;> rfl

variable [Engine ι σ]

theorem timeless_step? (e : Exchange ι) (w : Workshop σ) :
    e.timeless.step? w = (e.step? w).map fun x => (x.1.timeless, x.2) := by
  have session : e.timeless.session = e.session := rfl
  have desk : e.timeless.desk w = e.desk w := rfl
  unfold step?
  rw [session, timeless_deliver?]
  cases e.session with
  | none =>
    simp only [Option.map_map]
    rfl
  | some s =>
    simp only [desk]
    rcases s.move (e.desk w) with ⟨m, d⟩
    cases m with
    | go | stop => rfl
    | wait =>
      simp only [Option.map_map]
      rfl

/-- **A limit makes no difference** to an exchange that settles. -/
theorem timeless_settle (e : Exchange ι) (w : Workshop σ) :
    e.timeless.settle w = ((e.settle w).1.timeless, (e.settle w).2) := by
  induction e, w using Exchange.settle.induct with
  | case1 e w hnone =>
    have rest : e.timeless.step? w = none := by rw [timeless_step?, hnone, Option.map_none]
    rw [settle_none hnone, settle_none rest]
  | case2 e w e' w' hsome ih =>
    have steps : e.timeless.step? w = some (e'.timeless, w') := by
      rw [timeless_step?, hsome, Option.map_some]
    rw [settle_some hsome, settle_some steps]
    exact ih

theorem deadline_settle (e : Exchange ι) (w : Workshop σ) :
    (e.settle w).1.deadline = e.deadline := by
  refine settle_keeps (P := fun e' _ => e'.deadline = e.deadline) ?_ ?_ rfl
  · intro e' w' h
    rw [← h]
    unfold move
    split
    · rfl
    · split <;> rfl
  · intro e' e'' w' h hd
    obtain ⟨f, c, rfl, -⟩ := deliver?_cases hd
    exact h

theorem goOn_timeless {now : Nat} {x : Exchange ι × Workshop σ} (h : x.1.IsEarly now) :
    goOn now (x.1.timeless, x.2) = ((goOn now x).1.timeless, (goOn now x).2) := by
  have free : x.1.timeless.IsEarly now := nofun
  rw [goOn_early h, goOn_early (x := (x.1.timeless, x.2)) free]
  exact timeless_settle ..

theorem arrive_timeless (p : Incident) (e : Exchange ι) :
    p.arrive e.timeless = (p.arrive e).timeless ∧ (p.arrive e).deadline = e.deadline := by
  cases p <;> exact ⟨rfl, rfl⟩

theorem meet_timeless {now : Nat} {x : Exchange ι × Workshop σ} {p : Incident}
    (h : (p.arrive x.1).IsEarly (now + p.lasts)) :
    meet now (x.1.timeless, x.2) p = ((meet now x p).1.timeless, (meet now x p).2) ∧
      (meet now x p).1.deadline = x.1.deadline := by
  obtain ⟨arrives, kept⟩ := arrive_timeless p x.1
  constructor
  · rw [meet, arrives]
    exact goOn_timeless (x := (p.arrive x.1, x.2)) h
  · rw [meet, goOn_early (x := (p.arrive x.1, x.2)) h]
    exact (deadline_settle ..).trans kept

theorem isEarly_cons {now : Nat} {x : Exchange ι × Workshop σ} {p : Incident} {ps : List Incident}
    (h : x.1.IsEarly (now + Incident.elapsed (p :: ps))) :
    (p.arrive x.1).IsEarly (now + p.lasts) ∧
      (meet now x p).1.IsEarly (now + p.lasts + Incident.elapsed ps) := by
  rw [Incident.elapsed_cons, ← Nat.add_assoc] at h
  have first : (p.arrive x.1).IsEarly (now + p.lasts) := by
    intro t ht
    have := h t ((arrive_timeless p x.1).2 ▸ ht)
    omega
  refine ⟨first, ?_⟩
  intro t ht
  exact h t ((meet_timeless first).2 ▸ ht)

/-- **As long as its time is not over,** a limit makes no difference to an exchange. -/
theorem meetAll_timeless {now : Nat} {x : Exchange ι × Workshop σ} {ps : List Incident}
    (h : x.1.IsEarly (now + Incident.elapsed ps)) :
    meetAll now (x.1.timeless, x.2) ps = ((meetAll now x ps).1.timeless, (meetAll now x ps).2) ∧
      (meetAll now x ps).1.deadline = x.1.deadline := by
  induction ps generalizing now x with
  | nil => exact ⟨rfl, rfl⟩
  | cons p ps ih =>
    obtain ⟨first, next⟩ := isEarly_cons h
    obtain ⟨same, kept⟩ := meet_timeless first
    obtain ⟨rest, last⟩ := ih next
    refine ⟨?_, last.trans kept⟩
    rw [meetAll, same]
    exact rest

/-! ## Sessions that are done -/

/-- Whether the session of an exchange is done and the client has taken everything. -/
def IsDone (e : Exchange ι) : Prop := e.session = none ∧ e.deliver? = none

omit [Engine ι σ] in
theorem isDone_congr {e e' : Exchange ι} (session : e'.session = e.session)
    (writer : e'.writer = e.writer) (h : e.IsDone) : e'.IsDone := by
  refine ⟨session.trans h.1, ?_⟩
  have nothing := h.2
  unfold deliver? channel at nothing ⊢
  rw [writer]
  split at nothing
  · cases nothing
  · rfl

theorem IsDone.step? {e : Exchange ι} (h : e.IsDone) (w : Workshop σ) : e.step? w = none := by
  simp only [Exchange.step?, h.1, h.2, Option.map_none]

theorem isDone_of_rest {e : Exchange ι} {w : Workshop σ} (rest : e.step? w = none)
    (hs : e.session = none) : e.IsDone := by
  refine ⟨hs, ?_⟩
  simp only [Exchange.step?, hs] at rest
  exact Option.map_eq_none_iff.1 rest

/-- What a response is, and what the backend: nothing of it changes once the session is done. -/
structure Keeps (x y : Exchange ι × Workshop σ) : Prop where
  session : y.1.session = x.1.session
  writer : y.1.writer = x.1.writer
  delivered : y.1.delivered = x.1.delivered
  store : y.2.store = x.2.store

omit [Engine ι σ] in
theorem Keeps.symm {x y : Exchange ι × Workshop σ} (h : Keeps x y) : Keeps y x :=
  ⟨h.session.symm, h.writer.symm, h.delivered.symm, h.store.symm⟩

omit [Engine ι σ] in
theorem Keeps.trans {x y z : Exchange ι × Workshop σ} (h : Keeps x y) (h' : Keeps y z) :
    Keeps x z :=
  ⟨h'.session.trans h.session, h'.writer.trans h.writer, h'.delivered.trans h.delivered,
    h'.store.trans h.store⟩

theorem IsDone.meet {x : Exchange ι × Workshop σ} (h : x.1.IsDone) (now : Nat) (p : Incident) :
    Keeps x (Exchange.meet now x p) := by
  have arrived : Keeps x (p.arrive x.1, x.2) := by
    cases p <;> exact ⟨rfl, rfl, rfl, rfl⟩
  have expired : Keeps x ((p.arrive x.1).expire (now + p.lasts) x.2) := by
    unfold expire
    split
    · exact arrived
    · split
      · exact arrived
      · exact ⟨arrived.session, arrived.writer, arrived.delivered, rfl⟩
  have rest := (isDone_congr expired.session expired.writer h).step?
    ((p.arrive x.1).expire (now + p.lasts) x.2).2
  rw [Exchange.meet, goOn, settle_none rest]
  exact expired

/-- **Once the session is done,** nothing changes any more. -/
theorem IsDone.meetAll {x : Exchange ι × Workshop σ} (h : x.1.IsDone) (now : Nat)
    (ps : List Incident) : Keeps x (Exchange.meetAll now x ps) := by
  induction ps generalizing now x with
  | nil => exact ⟨rfl, rfl, rfl, rfl⟩
  | cons p ps ih =>
    have met := h.meet now p
    exact met.trans (ih (isDone_congr met.session met.writer h) (now + p.lasts))

theorem rest_meetAll {now : Nat} {x : Exchange ι × Workshop σ} (rest : x.1.step? x.2 = none)
    (ps : List Incident) :
    (Exchange.meetAll now x ps).1.step? (Exchange.meetAll now x ps).2 = none := by
  induction ps generalizing now x with
  | nil => exact rest
  | cons p ps ih => exact ih (step?_settle ..)

/-! ## Builds whose time is over -/

section ContextEngine

open ContextEngine

variable {e : Exchange Job} {w : Workshop Store} {x : Exchange Job × Workshop Store} {s₀ : Store}
  {request : Token} {now : Nat}

theorem Proceeds.upload (h : e.Proceeds w s₀ request) (f : Source → Source) :
    ({ e with source := e.source.map f } : Exchange Job).Proceeds w s₀ request := by
  obtain ⟨results, sound⟩ := h.sound
  exact ⟨⟨results, sound.upload f⟩, h.governed, h.token, h.spools⟩

theorem Proceeds.meet (h : x.1.Proceeds x.2 s₀ request) (past : ∀ n ∈ s₀.fileNumbers, n < s₀.clock)
    {p : Incident} (early : (p.arrive x.1).IsEarly (now + p.lasts)) :
    (Exchange.meet now x p).1.Proceeds (Exchange.meet now x p).2 s₀ request := by
  have arrived : (p.arrive x.1).Proceeds x.2 s₀ request := by
    cases p with
    | feed items => exact h.upload _
    | finish items => exact (h.upload (·.feed items)).upload (·.close)
    | advance => exact h
  rw [Exchange.meet, goOn_early (x := (p.arrive x.1, x.2)) early]
  exact settle_keeps (P := fun e w => e.Proceeds w s₀ request) (fun e w h => h.move past)
    (fun e e' w h hd => h.deliver hd) arrived

theorem Proceeds.meetAll {ps : List Incident} (h : x.1.Proceeds x.2 s₀ request)
    (past : ∀ n ∈ s₀.fileNumbers, n < s₀.clock)
    (early : x.1.IsEarly (now + Incident.elapsed ps)) :
    (Exchange.meetAll now x ps).1.Proceeds (Exchange.meetAll now x ps).2 s₀ request := by
  induction ps generalizing now x with
  | nil => exact h
  | cons p ps ih =>
    obtain ⟨first, next⟩ := isEarly_cons early
    exact ih (h.meet past first) next

/-- **When the time of an exchange at rest is over** whose session is not done, its build
receives an upload that is open. The request is cancelled, and the response ends. -/
theorem Proceeds.late (h : x.1.Proceeds x.2 s₀ request) (now : Nat)
    (past : ∀ n ∈ s₀.fileNumbers, n < s₀.clock) (rest : x.1.step? x.2 = none)
    (hs : x.1.session ≠ none) :
    (∃ s, x.1.source = some s ∧ s.upload.isClosed = false) ∧
    ∀ t ms, x.1.deadline = some t → t ≤ now + ms →
      let y := Exchange.meet now x (.advance ms)
      y.1.step? y.2 = none ∧ y.1.session = none ∧ y.1.channel.receive.1 = .ended ∧
        y.2.store = s₀.tick ∧ y.1.Sound [.error .canceled] := by
  obtain ⟨results, sound⟩ := h.sound
  obtain ⟨s, hs⟩ := Option.ne_none_iff_exists'.1 hs
  obtain ⟨token, o, file, threshold, source, rfl, -, hsource, isOpen⟩ := starves h.governed rest hs
  refine ⟨⟨source, hsource, isOpen⟩, ?_⟩
  intro t ms ht late y
  let tokens := x.2.tokens.cancel x.1.token
  obtain ⟨made, spools⟩ := h.spools _ hs
  have cancelled : tokens.isCancelled token = true := by
    rw [Cancellation.isCancelled_cancel, h.token]
    have inherited : request.id ∈ token.lineage := by
      rw [Token.lineage, made]
      exact List.mem_cons_of_mem _ (List.mem_cons_self ..)
    simp [inherited]
  have expires : x.1.timeless.Expires { x.2 with tokens } s₀ :=
    ⟨h.governed, results, sound, .inl ⟨_, hs, cancelled, spools⟩⟩
  have settles : y = x.1.timeless.settle { x.2 with tokens } := by
    show goOn (now + ms) x = _
    simp only [goOn, expire_late ht late]
    rfl
  have settled : y.1.Expires y.2 s₀ := by
    rw [settles]
    exact settle_keeps (P := fun e w => e.Expires w s₀) (fun e w h => h.move past)
      (fun e e' w h hd => h.deliver hd) expires
  have again : y.1.step? y.2 = none := settles ▸ step?_settle ..
  exact ⟨again, settled.ended again⟩

end ContextEngine
end Exchange

/-! ## Services with a limit and without -/

namespace Service

open ContextEngine Message

/-- **The same response and the same backend** in two services: the session has come as far,
the same was sent and delivered, and the stores are equal. -/
structure Like (s s' : Service Job Store) (number : Nat) : Prop where
  response : ∃ e e', s.exchange? number = some e ∧ s'.exchange? number = some e' ∧
    e'.session = e.session ∧ e'.writer = e.writer ∧ e'.delivered = e.delivered
  store : s'.workshop.store = s.workshop.store

/-- **A build that was timed out:** the client has been told last that it was cancelled, and
told nothing but progress before, and the store is as before the build, but for its clock. -/
structure TimedOut (s : Service Job Store) (number : Nat) (before : Store) : Prop where
  response : ∃ e, s.exchange? number = some e ∧ e.channel.receive.1 = .ended ∧
    e.head?.map (·.status) = some 200 ∧
    ∃ ms, ofFrames? e.delivered.toList.flatten = .ok (ms ++ [failure "build canceled"]) ∧
      ∀ m ∈ ms, m.kind = .progress
  store : s.workshop.store = { before with clock := before.clock + 1 }

theorem like_of_keeps {s s' : Service Job Store} {number now : Nat}
    {x y : Exchange Job × Workshop Store} (h : Exchange.Keeps x y) :
    (s.only number now x).Like (s'.only number now y) number :=
  ⟨⟨_, _, exchange?_only .., exchange?_only .., h.session, h.writer, h.delivered⟩, h.store⟩

/-- A response that has ended stays as it was when the build was timed out. -/
theorem timedOut_of_keeps {s : Service Job Store} {number now : Nat}
    {x y : Exchange Job × Workshop Store} {before : Store} (keeps : Exchange.Keeps x y)
    (session : x.1.session = none)
    (ended : x.1.channel.receive.1 = .ended ∧ x.2.store = before.tick ∧
      x.1.Sound [.error .canceled]) : (s.only number now y).TimedOut number before := by
  obtain ⟨last, store, sound⟩ := ended
  have channel : y.1.channel = x.1.channel := congrArg (·.sink) keeps.writer
  obtain ⟨result, ms, hres, frames, progress⟩ := sound.ofFrames?_delivered last
  cases hres
  refine ⟨⟨y.1, exchange?_only .., channel ▸ last, ?_, ms, ?_, progress⟩, keeps.store.trans store⟩
  · have head : y.1.hasHead = true := by
      rw [Exchange.hasHead, keeps.session, session]
      rfl
    rw [Exchange.head?, if_pos head]
    rfl
  · rw [keeps.delivered, frames]
    rfl

section Opening

variable {ι σ : Type} [Engine ι σ] (s : Service ι σ) {r : HttpRequest} {version : Option String}
  {b : DecodedBuild}

theorem sound_opened (room : s.HasRoom) (decodes : s.policy.decode (r.toBuild version) = .ok b) :
    (s.opened (ι := ι) r b).Sound [] := by
  obtain ⟨-, e, sound, exchanges, -⟩ := s.build_eq room decodes
  rw [s.build_decoded room decodes] at exchanges
  have same := List.append_cancel_left exchanges
  cases same
  exact sound

theorem accept_opened (room : s.HasRoom) (asks : r.Asks .build version)
    (decodes : s.policy.decode (r.toBuild version) = .ok b) :
    (s.accept r).2 = { s with
      workshop := ⟨s.workshop.store, s.workshop.tokens.fresh.2⟩, next := s.next + 1
      exchanges := s.exchanges ++ [(s.next, s.opened r b)] } := by
  rw [s.accept_eq_dispatch asks]
  exact congrArg (·.2) (s.build_decoded room decodes)

end Opening

theorem proceeds_opened (s : Service Job Store) {r : HttpRequest} {version : Option String}
    {b : DecodedBuild} (room : s.HasRoom)
    (decodes : s.policy.decode (r.toBuild version) = .ok b) (tokens : Cancellation) :
    (s.opened r b).Proceeds ⟨s.workshop.store, tokens⟩ s.workshop.store (s.opened r b).token := by
  refine ⟨⟨[], s.sound_opened room decodes⟩, s.governed_opened b, rfl, ?_⟩
  rintro j ⟨⟩
  exact ⟨rfl, rfl⟩

/-- A service with a limit that has been asked for nothing yet. -/
def idle (settings : Settings) (limit : Option Nat) (w : Workshop Store) (now : Nat) :
    Service Job Store :=
  { settings := { settings with timeoutSeconds := limit }, workshop := w, now }

def serving (settings : Settings) (limit : Option Nat) (w : Workshop Store) (now : Nat)
    (r : HttpRequest) : Service Job Store :=
  ((idle settings limit w now).accept r).2.settle

theorem serving_eq {settings : Settings} {limit : Option Nat} {w : Workshop Store} {now : Nat}
    {r : HttpRequest} {version : Option String} {b : DecodedBuild}
    (room : settings.progressBuffer ≤ Channel.maxCapacity) (asks : r.Asks .build version)
    (decodes : (Policy.mk settings.defaultVersion settings.minVersion).decode
      (r.toBuild version) = .ok b) :
    serving settings limit w now r =
      { idle settings limit w now with next := 1 }.only 0 now (Exchange.goOn now
        ((idle settings limit w now).opened r b, ⟨w.store, w.tokens.fresh.2⟩)) := by
  rw [serving, (idle settings limit w now).accept_opened room asks decodes]
  rfl

/-- **A limit is exact.** A service whose files are older than its clock is asked for a build
with a limit of `T` seconds, and another one without a limit; then the same happens to both.

As long as the clock has not advanced by `T` seconds, responses and backends are the same. If
the build has ended by then, they stay the same, whatever happens later. If it has not, its
upload is still open, and when the clock does advance by that much, the response ends with
one frame that is not progress, the error that the build was cancelled. The backend is then
as it was before the build: no record was added, and the file of the build is gone. -/
theorem timeout_exact (settings : Settings) (T : Nat) (w : Workshop Store) (now : Nat)
    (r : HttpRequest) {version : Option String} {b : DecodedBuild}
    (room : settings.progressBuffer ≤ Channel.maxCapacity) (asks : r.Asks .build version)
    (decodes : (Policy.mk settings.defaultVersion settings.minVersion).decode
      (r.toBuild version) = .ok b)
    (past : ∀ n ∈ w.store.fileNumbers, n < w.store.clock) (pre : List Incident)
    (early : Incident.elapsed pre < 1000 * T) :
    let timed := serving settings (some T) w now r
    let untimed := serving settings none w now r
    (timed.meetAll 0 pre).Like (untimed.meetAll 0 pre) 0 ∧
    ∀ e, (timed.meetAll 0 pre).exchange? 0 = some e →
      (e.session = none →
        ∀ post, (timed.meetAll 0 (pre ++ post)).Like (untimed.meetAll 0 (pre ++ post)) 0) ∧
      (e.session ≠ none → (∃ s, e.source = some s ∧ s.upload.isClosed = false) ∧
        ∀ ms post, 1000 * T ≤ Incident.elapsed pre + ms →
          (timed.meetAll 0 (pre ++ .advance ms :: post)).TimedOut 0 w.store) := by
  intro timed untimed
  -- both services serve one exchange, and these differ in the limit only
  let opened : Exchange Job := (idle settings (some T) w now).opened r b
  let begun : Exchange Job × Workshop Store := (opened, ⟨w.store, w.tokens.fresh.2⟩)
  let x := Exchange.goOn now begun
  have deadline : opened.deadline = some (now + 1000 * T) := rfl
  have begins : opened.IsEarly now := by
    intro t ht
    cases deadline.symm.trans ht
    omega
  have kept : x.1.deadline = opened.deadline :=
    (Exchange.meet_timeless (x := begun) (p := .advance 0) begins).2
  have limited : timed = { idle settings (some T) w now with next := 1 }.only 0 now x :=
    serving_eq room asks decodes
  have free : untimed =
      { idle settings none w now with next := 1 }.only 0 now (x.1.timeless, x.2) :=
    (serving_eq room asks decodes).trans (congrArg _ (Exchange.goOn_timeless (x := begun) begins))
  -- what is true of the exchange after the first incidents
  have early : x.1.IsEarly (now + Incident.elapsed pre) := by
    intro t ht
    cases (kept.trans deadline).symm.trans ht
    omega
  have proceeds : x.1.Proceeds x.2 w.store opened.token :=
    Exchange.Proceeds.meet (x := begun) (p := .advance 0)
      ((idle settings (some T) w now).proceeds_opened room decodes _) past begins
  let y := Exchange.meetAll now x pre
  have reached : y.1.Proceeds y.2 w.store opened.token := proceeds.meetAll past early
  have rest : y.1.step? y.2 = none := Exchange.rest_meetAll (Exchange.step?_settle ..) pre
  obtain ⟨alike, limit⟩ := Exchange.meetAll_timeless early
  have same : Exchange.Keeps y (y.1.timeless, y.2) := ⟨rfl, rfl, rfl, rfl⟩
  rw [limited, free]
  refine ⟨?_, ?_⟩
  · rw [meetAll_only, meetAll_only, alike]
    exact like_of_keeps same
  intro e he
  rw [meetAll_only, exchange?_only] at he
  cases he
  constructor
  · intro hs post
    have done := Exchange.isDone_of_rest rest hs
    have done' : y.1.timeless.IsDone := Exchange.isDone_congr same.session same.writer done
    have keeps := done.meetAll (now + Incident.elapsed pre) post
    have keeps' := Exchange.IsDone.meetAll (x := (y.1.timeless, y.2)) done'
      (now + Incident.elapsed pre) post
    rw [meetAll_only, meetAll_only, Exchange.meetAll_append, Exchange.meetAll_append, alike]
    exact like_of_keeps (keeps.symm.trans (same.trans keeps'))
  · intro hs
    obtain ⟨isOpen, expires⟩ := reached.late (now + Incident.elapsed pre) past rest hs
    refine ⟨isOpen, ?_⟩
    intro ms post late
    obtain ⟨again, done, ended⟩ := expires _ ms (limit.trans (kept.trans deadline)) (by omega)
    rw [meetAll_only, Exchange.meetAll_append]
    exact timedOut_of_keeps ((Exchange.isDone_of_rest again done).meetAll _ post) done ended

/-- A build with a limit of one second. It has received one chunk when its time is over; what
arrives afterwards is of no use. -/
theorem timeout_exact_receiving :
    let r : HttpRequest :=
      { uri := ⟨[0x2F, 0x62, 0x75, 0x69, 0x6C, 0x64], none⟩
        body := some ⟨[.chunk "one".toUTF8], false⟩ }
    let s : Service Job Store := serving {} (some 1) ⟨{}, {}⟩ 0 r
    let after : List Incident := [.feed [.chunk "two".toUTF8], .finish []]
    (s.meetAll 0 ([.advance 999] ++ .advance 1 :: after)).TimedOut 0 {} := by
  intro r s after
  have asks : r.Asks .build none := ⟨none, by decide⟩
  have decodes : (Policy.mk ({} : Settings).defaultVersion ({} : Settings).minVersion).decode
      (r.toBuild none) = .ok ⟨.newest, {}⟩ := rfl
  let begun : Exchange Job × Workshop Store :=
    ((idle {} (some 1) ⟨{}, {}⟩ 0).opened r ⟨.newest, {}⟩, ⟨{}, ({} : Cancellation).fresh.2⟩)
  -- after some steps, the build waits for more of its upload
  obtain ⟨x, settles, rest, running, deadline⟩ : ∃ x : Exchange Job × Workshop Store,
      begun.1.settle begun.2 = x ∧ x.1.step? x.2 = none ∧ x.1.session ≠ none ∧
        x.1.deadline = some 1000 := by
    have stuck : ((Exchange.next^[8] begun).1.step? (Exchange.next^[8] begun).2).isNone = true := by
      decide
    have isSome : (Exchange.next^[8] begun).1.session.isSome = true := by decide
    have rest := Option.isNone_iff_eq_none.1 stuck
    exact ⟨_, Exchange.settle_of_rest rest, rest, Option.isSome_iff_ne_none.1 isSome,
      by decide⟩
  have served : s = { idle {} (some 1) ⟨{}, {}⟩ 0 with next := 1 }.only 0 0 x := by
    have early : begun.1.IsEarly 0 := by
      intro t ht
      cases ht
      decide
    refine (serving_eq (by decide) asks decodes).trans (congrArg _ ?_)
    rw [← settles]
    exact Exchange.goOn_early early
  have waits : Exchange.meet 0 x (.advance 999) = x := by
    have early : x.1.IsEarly 999 := by
      intro t ht
      cases deadline.symm.trans ht
      decide
    exact (Exchange.goOn_early early).trans (Exchange.settle_none rest)
  have reached : (s.meetAll 0 [.advance 999]).exchange? 0 = some x.1 := by
    rw [served, meetAll_only, exchange?_only]
    exact congrArg (fun y => some y.1) waits
  have course := (timeout_exact {} 1 ⟨{}, {}⟩ 0 r (by decide) asks decodes nofun [.advance 999]
    (by decide)).2
  exact ((course _ reached).2 running).2 1 after (by decide)

end Service
end ImageBuild
