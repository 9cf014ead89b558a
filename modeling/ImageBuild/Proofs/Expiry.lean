import ImageBuild.Proofs.Registry
import ImageBuild.Proofs.Resting

/-!
# Builds whose time is over

While a build receives its context, the store is as it was before the build, but for the
entry of the build, the tick of the clock and one file that is its own (`Job.Spools`). When
the request is cancelled then, the build takes all of this back, but for the tick, and
fails (`Phase.Expires`). So an exchange that expires while its build receives the context
ends, and the store is as if there had been none (`Exchange.Expires`).
-/

namespace ImageBuild
namespace Store

variable {s₀ s s₁ : Store} {o : BuildOptions} {t : Token} {file : Nat}

/-- **What a build adds** to a store that receives its context: its entry, and a file. -/
def Spools (s₀ : Store) (o : BuildOptions) (t : Token) (file : Nat) (s : Store) : Prop :=
  ∃ s₁ content, s₀.register o.buildId t = .ok s₁ ∧ file = s₁.clock ∧
    s = { s₁.tick with files := s₁.files ++ [⟨s₁.clock, content⟩] }

theorem ne_clock_of_register (past : ∀ n ∈ s₀.fileNumbers, n < s₀.clock)
    (h : s₀.register o.buildId t = .ok s₁) : ∀ f ∈ s₁.files, f.number ≠ s₁.clock := by
  obtain ⟨-, rfl⟩ := register_ok h
  intro f hf
  exact Nat.ne_of_lt (past f.number (List.mem_map_of_mem hf))

namespace Spools

theorem create (h : s₀.register o.buildId t = .ok s) :
    Spools s₀ o t s.createFile.1 s.createFile.2 :=
  ⟨s, .empty, h, rfl, rfl⟩

theorem append (h : Spools s₀ o t file s) (past : ∀ n ∈ s₀.fileNumbers, n < s₀.clock)
    (data : ByteArray) : Spools s₀ o t file (s.append file data) := by
  obtain ⟨s₁, content, entered, rfl, rfl⟩ := h
  refine ⟨s₁, content ++ data, entered, rfl, ?_⟩
  have others (f : SpoolFile) (hf : f ∈ s₁.files) :
      (if f.number = s₁.clock then { f with content := f.content ++ data } else f) = f :=
    if_neg (ne_clock_of_register past entered f hf)
  simp only [Store.append, List.map_append, List.map_congr_left others, List.map_id', List.map_cons,
    List.map_nil, if_true]

theorem discard (h : Spools s₀ o t file s) (past : ∀ n ∈ s₀.fileNumbers, n < s₀.clock) :
    ∃ s₁, s₀.register o.buildId t = .ok s₁ ∧ s.discard file = s₁.tick := by
  obtain ⟨s₁, content, entered, rfl, rfl⟩ := h
  refine ⟨s₁, entered, ?_⟩
  have others : s₁.files.filter (fun f => decide (f.number ≠ s₁.clock)) = s₁.files :=
    List.filter_eq_self.2 fun f hf => by simpa using ne_clock_of_register past entered f hf
  simp only [Store.discard, List.filter_append, others]
  simp [tick]

end Spools

theorem unregister_tick (h : s₀.register o.buildId t = .ok s₁) :
    s₁.tick.unregister o.buildId = s₀.tick := by
  obtain ⟨free, rfl⟩ := register_ok h
  cases hid : o.buildId with
  | none =>
    simp only [unregister, tick, Option.map_none, Option.toList_none, List.append_nil]
  | some id =>
    have absent : id ∉ s₀.running.map (·.1) := (token?_eq_none_iff s₀ id).1 (free id hid)
    have others : s₀.running.filter (fun e => decide (e.1 ≠ id)) = s₀.running :=
      List.filter_eq_self.2 fun e he => by
        simp only [ne_eq, decide_eq_true_eq]
        rintro rfl
        exact absent (List.mem_map_of_mem he)
    simp only [unregister, tick, Option.map_some, Option.toList_some, List.filter_append, others]
    simp

end Store

namespace ContextEngine

variable {τ : Type} [Sink τ] {s₀ : Store} {t : Token} {o : BuildOptions} {d : Desk Store τ}

/-! ## Builds that receive their context -/

/-- **What a build has done to the store** as long as it receives its context. -/
def Phase.Spools (p : Phase) (s₀ : Store) (o : BuildOptions) (t : Token) (s : Store) : Prop :=
  match p with
  | .opening => s₀.register o.buildId t = .ok s
  | .receiving file _ | .writing file _ _ | .reporting file _ => s₀.Spools o t file s
  | _ => True

/-- The same of a build that may not have begun. Its token is made from that of its request. -/
def Job.Spools (j : Job) (s₀ : Store) (request : Token) (s : Store) : Prop :=
  match j with
  | .arriving context _ => context.token = request ∧ s = s₀
  | .running t o p => t.ancestors = request.lineage ∧ p.Spools s₀ o t s

theorem spools_offer {f : Frame} {next q : Phase} {failed : SinkError → Phase} {d' : Desk Store τ}
    (hm : (d.offer f next fun e => .go (failed e) : Move Phase (Except BuildError String) × _) =
      (.go q, d')) (hn : next.Spools s₀ o t d.store)
    (hf : ∀ e, (failed e).Spools s₀ o t d.store) : q.Spools s₀ o t d'.store := by
  rcases d.offer_cases f next (fun e => (.go (failed e) : Move Phase (Except BuildError String)))
    with ⟨-, ho⟩ | ⟨-, ho⟩ | ⟨e, -, ho⟩ <;> rw [ho] at hm <;> cases hm
  · exact hn
  · exact hf e

omit [Sink τ] in
theorem spools_spool {α : Type} {a : α} {next : Except String α → Phase × Store} {q : Phase}
    {d' : Desk Store τ} (hm : spool d a next = (.go q, d'))
    (done : (next (.ok a)).1.Spools s₀ o t (next (.ok a)).2)
    (failed : ∀ reason, (next (.error reason)).1.Spools s₀ o t (next (.error reason)).2) :
    q.Spools s₀ o t d'.store := by
  rcases spool_cases d a next with ⟨-, h⟩ | ⟨reason, -, h⟩ <;> rw [h] at hm <;> cases hm
  · exact done
  · exact failed reason

theorem spools_receive {file threshold : Nat} (h : s₀.Spools o t file d.store)
    {q : Phase} {d' : Desk Store τ} (hm : receive t file threshold d = (.go q, d')) :
    q.Spools s₀ o t d'.store := by
  rcases receive_cases t file threshold d with
    ⟨-, hr⟩ | ⟨-, hr⟩ | ⟨s, -, ⟨-, hr⟩ | ⟨-, hr⟩⟩ <;> rw [hr] at hm <;> cases hm
  · trivial
  · trivial
  · have store : (d.take s).2.store = d.store := congrArg (·.store) (d.take_toWorkshop s)
    rw [store]
    cases s.next.1 with
    | chunk | paused | starved => exact h
    | fault | ended => trivial

/-- **A move** of a build that receives its context. -/
theorem Phase.Spools.move {p q : Phase} {d' : Desk Store τ} (h : p.Spools s₀ o t d.store)
    (past : ∀ n ∈ s₀.fileNumbers, n < s₀.clock) (hm : p.move t o d = (.go q, d')) :
    q.Spools s₀ o t d'.store := by
  cases p with
  | opening =>
    simp only [Phase.move] at hm
    exact spools_spool hm (.create h) fun _ => trivial
  | receiving file threshold => exact spools_receive h hm
  | writing file threshold data =>
    simp only [Phase.move] at hm
    refine spools_spool hm ?_ fun _ => trivial
    show (Phase.written file threshold (received d)).Spools s₀ o t (d.store.append file data)
    unfold Phase.written
    split <;> exact h.append past data
  | reporting file threshold => exact spools_offer hm h fun _ => trivial
  | flushing file =>
    simp only [Phase.move] at hm
    exact spools_spool hm trivial fun _ => trivial
  | totalling | noting => exact spools_offer hm trivial fun _ => trivial
  | looking file =>
    simp only [Phase.move] at hm
    split at hm <;> cases hm
    · trivial
    · split <;> trivial
  | inspecting c isKnown =>
    cases hm
    rcases inspect_fails_or_tells t o c isKnown d with ⟨e, hi⟩ | ⟨steps, id, hi⟩ <;> rw [hi] <;>
      trivial
  | telling c isKnown steps id =>
    cases steps with
    | nil =>
      cases hm
      trivial
    | cons step rest =>
      cases step with
      | check =>
        cases hm
        split <;> trivial
      | line text => exact spools_offer hm trivial fun _ => trivial
  | concluding c isKnown result =>
    cases hm
    repeat' split
    all_goals trivial
  | discarding =>
    cases hm
    trivial
  | leaving => cases hm

theorem Job.Spools.move {j k : Job} {request : Token} {d' : Desk Store τ}
    (h : j.Spools s₀ request d.store) (past : ∀ n ∈ s₀.fileNumbers, n < s₀.clock)
    (hm : j.move d = (.go k, d')) : k.Spools s₀ request d'.store := by
  cases j with
  | arriving context o =>
    obtain ⟨rfl, same⟩ := h
    simp only [Job.move, arrive] at hm
    split at hm
    · cases hm
    · split at hm
      · cases hm
      · next store entered =>
        cases hm
        refine ⟨rfl, ?_⟩
        show s₀.register o.buildId _ = .ok store
        rw [← same]
        exact entered
  | running t o p =>
    obtain ⟨made, spools⟩ := h
    simp only [Job.move] at hm
    split at hm
    · next q d'' moved =>
      cases hm
      exact ⟨made, spools.move past moved⟩
    · cases hm
    · cases hm

/-! ## Builds that are cancelled meanwhile -/

/-- **A build that was cancelled** while it received its context: it takes back what it has
done to the store. -/
def Phase.Expires (p : Phase) (s₀ : Store) (o : BuildOptions) (t : Token) (w : Workshop Store) :
    Prop :=
  match p with
  | .receiving file _ => w.tokens.isCancelled t = true ∧ s₀.Spools o t file w.store
  | .discarding file result => result = .error .canceled ∧ s₀.Spools o t file w.store
  | .leaving result => result = .error .canceled ∧
    ∃ s₁, s₀.register o.buildId t = .ok s₁ ∧ w.store = s₁.tick
  | _ => False

def Job.Expires (j : Job) (s₀ : Store) (w : Workshop Store) : Prop :=
  match j with
  | .arriving .. => False
  | .running t o p => p.Expires s₀ o t w

def Expiring (s₀ : Store) :
    Move Job (Except BuildError String) × Desk Store τ → Prop
  | (.go j, d) => j.Expires s₀ d.toWorkshop
  | (.wait, _) => False
  | (.stop result, d) => result = .error .canceled ∧ d.store = s₀.tick

theorem Job.Expires.move {j : Job} (h : j.Expires s₀ d.toWorkshop)
    (past : ∀ n ∈ s₀.fileNumbers, n < s₀.clock) : Expiring s₀ (j.move d) := by
  cases j with
  | arriving => exact h.elim
  | running t o p =>
    cases p with
    | receiving file threshold =>
      obtain ⟨cancelled, spools⟩ := h
      simp only [Job.move, Phase.move, receive, if_pos cancelled]
      exact ⟨rfl, spools⟩
    | discarding file result =>
      obtain ⟨rfl, spools⟩ := h
      exact ⟨rfl, spools.discard past⟩
    | leaving result =>
      obtain ⟨rfl, s₁, entered, store⟩ := h
      refine ⟨rfl, ?_⟩
      show d.store.unregister o.buildId = s₀.tick
      rw [store]
      exact Store.unregister_tick entered
    | _ => exact h.elim

end ContextEngine

/-! ## Exchanges -/

namespace Exchange

section Moves

variable {ι σ : Type} [Engine ι σ] {e e' : Exchange ι} {w : Workshop σ}

theorem deliver?_eq (hd : e.deliver? = some e') :
    e'.session = e.session ∧ e'.source = e.source ∧ e'.token = e.token := by
  obtain ⟨f, c, rfl, -⟩ := deliver?_cases hd
  exact ⟨rfl, rfl, rfl⟩

theorem governed_of_deliver? (h : e.channel.Governed) (hd : e.deliver? = some e') :
    e'.channel.Governed := by
  have delivered := governed_deliver h
  rwa [hd] at delivered

theorem token_move (e : Exchange ι) (w : Workshop σ) : (e.move w).1.token = e.token := by
  unfold move
  split
  · rfl
  · split <;> rfl

/-- **A build in an exchange** makes a move, and the exchange with it. -/
theorem move_building {j : ι} (hs : e.session = some (.building j)) :
    e.move w = match Engine.move j (e.desk w) with
      | (.go k, d) => (e.leave d (some (.building k)), d.toWorkshop)
      | (.wait, _) => (e, w)
      | (.stop result, d) => (e.leave (Session.close (ι := ι) d result).2
          (some (.closing (Session.lastFrames d.writer.kept result))), d.toWorkshop) := by
  simp only [move, hs, Session.move]
  rcases Engine.move j (e.desk w) with ⟨m, d⟩
  cases m with
  | go | wait => rfl
  | stop result =>
    show (e.leave (Session.close (ι := ι) d result).2 _, d.dropSource.toWorkshop) = _
    rw [d.dropSource_toWorkshop]
    rfl

theorem move_ended (hs : ∀ j, e.session ≠ some (.building j)) :
    (e.move w).2 = w ∧ ∀ j, (e.move w).1.session ≠ some (.building j) := by
  cases hsession : e.session with
  | none =>
    rw [move_none hsession]
    exact ⟨rfl, hs⟩
  | some s =>
    cases s with
    | building j => exact absurd hsession (hs j)
    | closing frames =>
      cases frames with
      | nil =>
        have stops : (Session.closing [] : Session ι).move (e.desk w) =
            (.stop (.ok ()), e.desk w) := rfl
        rw [move_stop hsession stops]
        exact ⟨rfl, fun j hj => by cases hj⟩
      | cons f rest =>
        rcases hw : (e.desk w).write f with ⟨sent, d⟩
        have same : d.toWorkshop = w := congrArg (fun x => x.2.toWorkshop) hw.symm
        cases sent with
        | accepted =>
          have goes : (Session.closing (f :: rest) : Session ι).move (e.desk w) =
              (.go (.closing rest), d) := by
            simp only [Session.move, hw]
          rw [move_go hsession goes]
          exact ⟨same, fun j hj => by cases hj⟩
        | blocked =>
          have waits : (Session.closing (f :: rest) : Session ι).move (e.desk w) = (.wait, d) := by
            simp only [Session.move, hw]
          rw [move_wait hsession waits]
          exact ⟨rfl, hs⟩
        | failed cause =>
          have stops : (Session.closing (f :: rest) : Session ι).move (e.desk w) =
              (.stop (.error cause), d) := by
            simp only [Session.move, hw]
          rw [move_stop hsession stops]
          exact ⟨same, fun j hj => by cases hj⟩

end Moves

open ContextEngine

variable {e e' : Exchange Job} {w : Workshop Store} {s₀ : Store} {request : Token}

/-- **An exchange that goes on:** as long as its build receives the context, the store is as
it was, but for what the build has added. -/
structure Proceeds (e : Exchange Job) (w : Workshop Store) (s₀ : Store) (request : Token) :
    Prop where
  sound : ∃ results, e.Sound results
  governed : e.channel.Governed
  token : e.token = request
  spools : ∀ j, e.session = some (.building j) → j.Spools s₀ request w.store

theorem Proceeds.move (h : e.Proceeds w s₀ request) (past : ∀ n ∈ s₀.fileNumbers, n < s₀.clock) :
    (e.move w).1.Proceeds (e.move w).2 s₀ request := by
  obtain ⟨results, sound⟩ := h.sound
  refine ⟨⟨_, sound.move acts_move w⟩, governed_move ContextEngine.oblivious.works h.governed w,
    (token_move e w).trans h.token, ?_⟩
  intro k hk
  by_cases building : ∃ j, e.session = some (.building j)
  · obtain ⟨j, hs⟩ := building
    have spools := h.spools j hs
    rw [move_building hs] at hk ⊢
    rcases hm : Engine.move j (e.desk w) with ⟨m, d⟩
    rw [hm] at hk
    cases m with
    | go k =>
      cases hk
      exact Job.Spools.move (d := e.desk w) spools past hm
    | wait =>
      cases hs.symm.trans hk
      exact spools
    | stop result => cases hk
  · exact absurd hk ((move_ended fun j hs => building ⟨j, hs⟩).2 k)

theorem Proceeds.deliver (h : e.Proceeds w s₀ request) (hd : e.deliver? = some e') :
    e'.Proceeds w s₀ request := by
  obtain ⟨results, sound⟩ := h.sound
  obtain ⟨session, -, token⟩ := deliver?_eq hd
  exact ⟨⟨results, sound.deliver hd⟩, governed_of_deliver? h.governed hd, token.trans h.token,
    fun j hs => h.spools j (session ▸ hs)⟩

/-- **An exchange that has expired** while its build received the context. -/
structure Expires (e : Exchange Job) (w : Workshop Store) (s₀ : Store) : Prop where
  governed : e.channel.Governed
  course : ∃ results, e.Sound results ∧
    ((∃ j, e.session = some (.building j) ∧ j.Expires s₀ w) ∨
      (∀ j, e.session ≠ some (.building j)) ∧ w.store = s₀.tick ∧ results = [.error .canceled])

theorem Expires.move (h : e.Expires w s₀) (past : ∀ n ∈ s₀.fileNumbers, n < s₀.clock) :
    (e.move w).1.Expires (e.move w).2 s₀ := by
  obtain ⟨governed, results, sound, course⟩ := h
  refine ⟨governed_move ContextEngine.oblivious.works governed w, _, sound.move acts_move w, ?_⟩
  rcases course with ⟨j, hs, expires⟩ | ⟨ended, store, rfl⟩
  · obtain ⟨rfl, -⟩ := (sound_building hs).1 sound
    have expiring : Expiring s₀ (Engine.move j (e.desk w)) :=
      Job.Expires.move (d := e.desk w) expires past
    rw [move_building hs]
    rcases hm : Engine.move j (e.desk w) with ⟨m, d⟩
    rw [hm] at expiring
    cases m with
    | go k => exact .inl ⟨k, rfl, expiring⟩
    | wait => exact expiring.elim
    | stop result =>
      obtain ⟨rfl, store⟩ := expiring
      have still (left : List Frame) (j : Job) :
          some (Session.closing left) ≠ some (Session.building j) := nofun
      have returned : e.returns? w = some (.error .canceled) := by simp only [returns?, hs, hm]
      rw [returned]
      exact .inr ⟨still _, store, rfl⟩
  · obtain ⟨same, still⟩ := move_ended ended
    have silent : e.returns? w = none := by
      unfold returns?
      split
      · next j hs => exact absurd hs (ended j)
      · rfl
    rw [same, silent]
    exact .inr ⟨still, store, rfl⟩

theorem Expires.deliver (h : e.Expires w s₀) (hd : e.deliver? = some e') : e'.Expires w s₀ := by
  obtain ⟨governed, results, sound, course⟩ := h
  obtain ⟨session, -, -⟩ := deliver?_eq hd
  refine ⟨governed_of_deliver? governed hd, results, sound.deliver hd, ?_⟩
  rw [session]
  exact course

/-- **An exchange that has expired ends:** at rest its session is done, the client has been
told that the build was cancelled, and the store is as before the build, but for a tick. -/
theorem Expires.ended (h : e.Expires w s₀) (rest : e.step? w = none) :
    e.session = none ∧ e.channel.receive.1 = .ended ∧ w.store = s₀.tick ∧
      e.Sound [.error .canceled] := by
  obtain ⟨governed, results, sound, course⟩ := h
  cases hs : e.session with
  | none =>
    rcases course with ⟨j, building, -⟩ | ⟨-, store, rfl⟩
    · cases hs.symm.trans building
    · exact ⟨rfl, ended_of_rest sound rest hs, store, sound⟩
  | some s =>
    -- a build that was cancelled does not wait for its upload
    exfalso
    obtain ⟨t, o, file, threshold, x, rfl, going, -, -⟩ := starves governed rest hs
    rcases course with ⟨j, building, expires⟩ | ⟨ended, -⟩
    · cases hs.symm.trans building
      rw [expires.1] at going
      cases going
    · exact ended _ hs

end Exchange
end ImageBuild
