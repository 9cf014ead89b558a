import ImageBuild.Proofs.Commit
import ImageBuild.Proofs.Decoding
import ImageBuild.Proofs.Oblivious
import ImageBuild.Proofs.Traffic

/-!
# Requests that are rejected

A request whose version, media type or parameters are rejected is answered at
once and leaves no trace: the service goes on as if it had never come, and on
its own channel nothing was sent or committed, not even by putting its upload
away. A request to build that decodes is answered with status 200 instead, and
the head of that answer comes out as soon as the build has returned, whatever
it returned: the frames that tell how it ended either get ready, which commits
the response, or are refused, which ends the session.
-/

namespace ImageBuild

/-! ## Why a request is rejected -/

namespace Query

variable {q : Query} {v : Version} {e : RequestError}

theorem status_of_buildOptions (h : q.buildOptions v = .error e) : e.status = 400 := by
  obtain ⟨_, -, about⟩ := isAbout_of_buildOptions h
  exact about.status

theorem status_of_pruneOptions (h : q.pruneOptions = .error e) : e.status = 400 := by
  obtain ⟨_, -, about⟩ := isAbout_of_pruneOptions h
  exact about.status

end Query

namespace Policy

variable {p : Policy} {e : RequestError}

theorem status_of_resolve {version : Option String} (h : p.resolve version = .error e) :
    e.status = 400 := by
  unfold resolve at h
  split at h
  · cases h
  · split at h
    · cases h
      rfl
    · split at h
      · cases h
        rfl
      · split at h <;> cases h
        rfl

def RejectsMedia (r : BuildRequest) : Prop :=
  r.hasBody = true ∧ ∃ value rest e, r.mediaTypes = value :: rest ∧ MediaType.check value = .error e

theorem rejectsMedia_of_checkMedia {r : BuildRequest} (h : checkMedia r = .error e) :
    RejectsMedia r ∧ e.status = 415 := by
  unfold checkMedia at h
  split at h
  · next body =>
    split at h
    · cases h
    · next value rest types => exact ⟨⟨body, value, rest, e, types, h⟩, status_of_check h⟩
  · cases h

theorem not_rejectsMedia_of_checkMedia {r : BuildRequest} (h : checkMedia r = .ok ()) :
    ¬ RejectsMedia r := by
  rintro ⟨body, value, rest, e, types, rejected⟩
  rw [checkMedia, if_pos body, types] at h
  exact absurd (rejected.symm.trans h) (by simp)

/-- **A rejection** is about the media type if the version was accepted and the
media type was not, and about the version or a parameter otherwise. -/
theorem status_of_decode {r : BuildRequest} (h : p.decode r = .error e) :
    (e.status = 415 ∨ e.status = 400) ∧
      (e.status = 415 ↔ (∃ v, p.resolve r.segment = .ok v) ∧ RejectsMedia r) := by
  have other (status : e.status = 400)
      (why : ¬ ((∃ v, p.resolve r.segment = .ok v) ∧ RejectsMedia r)) :
      (e.status = 415 ∨ e.status = 400) ∧
        (e.status = 415 ↔ (∃ v, p.resolve r.segment = .ok v) ∧ RejectsMedia r) := by
    refine ⟨.inr status, ?_, fun media => absurd media why⟩
    intro media
    rw [status] at media
    cases media
  rw [decode_eq] at h
  rcases of_bind_error h with hv | ⟨v, hv, h⟩
  · apply other (status_of_resolve hv)
    rintro ⟨⟨v, hok⟩, -⟩
    rw [hv] at hok
    cases hok
  rcases of_bind_error h with media | ⟨_, accepted, h⟩
  · obtain ⟨rejects, status⟩ := rejectsMedia_of_checkMedia media
    exact ⟨.inl status, fun _ => ⟨⟨v, hv⟩, rejects⟩, fun _ => status⟩
  rcases of_bind_error h with h | ⟨_, -, h⟩
  · apply other (Query.status_of_buildOptions h)
    rintro ⟨-, rejects⟩
    exact not_rejectsMedia_of_checkMedia accepted rejects
  · cases h

end Policy

open Json.Print in
theorem Response.errorBody_eq (message : String) :
    Response.errorBody message =
      Text.encode "\x7b\"error\":" ++ Json.Print.string message ++
        Text.encode ",\"success\":false\x7d" := by
  show octet '\x7b' :: (string "error" ++ octet ':' :: string message ++
    octet ',' :: (string "success" ++ octet ':' :: bool false)) ++ [octet '\x7d'] = _
  have opening : Text.encode "\x7b\"error\":" =
      octet '\x7b' :: (string "error" ++ [octet ':']) := by
    decide
  have closing : Text.encode ",\"success\":false\x7d" =
      octet ',' :: (string "success" ++ octet ':' :: bool false ++
        [octet '\x7d']) := by
    decide
  rw [opening, closing]
  simp only [List.append_assoc, List.cons_append, List.nil_append]

/-! ## Requests at a route -/

/-- What a request to build an image is decoded from. -/
def HttpRequest.toBuild (r : HttpRequest) (version : Option String) : BuildRequest :=
  ⟨version, r.uri, r.mediaTypes, r.body.isSome⟩

namespace Service

variable {ι σ : Type}

/-- The desk at which a request to build is served: what is written goes to a new
channel, and an upload holds it back. -/
def newDesk (s : Service ι σ) (r : HttpRequest) : Desk σ Channel :=
  { store := s.workshop.store, tokens := s.workshop.tokens.fresh.2
    source := r.body.map fun u => ⟨u, 0, false⟩, writer := ⟨s.openChannel r.body.isSome, none⟩ }

theorem governed_openChannel (s : Service ι σ) (hasBody : Bool) :
    (s.openChannel hasBody).Governed := by
  unfold openChannel
  dsimp only
  split
  · exact (Channel.governed_new _ _).hold rfl
  · exact Channel.governed_new _ _

/-- **A new channel** has nothing to tell when its upload is put away. -/
theorem newDesk_dropSource (s : Service ι σ) (r : HttpRequest) :
    let c := (s.newDesk r).dropSource.writer.sink
    c.gate.isCommitted = false ∧ c.isDuplex = false ∧ ¬ c.IsReady := by
  have released : (s.newDesk r).dropSource.writer.sink = (s.openChannel r.body.isSome).release := by
    unfold newDesk Desk.dropSource
    cases r.body <;> rfl
  have fresh (hasBody : Bool) : (s.openChannel hasBody).gate.held = [] ∧
      (s.openChannel hasBody).queue = [] ∧ (s.openChannel hasBody).gate.isCommitted = false ∧
      (s.openChannel hasBody).isDuplex = false := by
    cases hasBody <;> exact ⟨rfl, rfl, rfl, rfl⟩
  obtain ⟨held, queue, uncommitted, simplex⟩ := fresh r.body.isSome
  intro c
  have hc : c = (s.openChannel r.body.isSome).release := released
  rw [hc, Channel.isReady_iff]
  refine ⟨by simp [uncommitted, held], simplex, ?_⟩
  rintro (⟨-, some⟩ | some)
  · exact some (by simp [held])
  · exact some queue

variable [Engine ι σ]

variable (s : Service ι σ) {r : HttpRequest} {version : Option String}

/-- **A request to build** that is rejected leaves the service as it is. -/
theorem build_rejected (room : s.HasRoom) {e : RequestError}
    (h : s.policy.decode (r.toBuild version) = .error e) :
    s.build version r = (.response (.rejection e), s) := by
  rw [build_of_hasRoom room,
    show s.policy.decode ⟨version, r.uri, r.mediaTypes, r.body.isSome⟩ = .error e from h]

def opened (s : Service ι σ) (r : HttpRequest) (b : DecodedBuild) : Exchange ι :=
  let x : Context := ⟨s.settings.defaultVersion, s.workshop.tokens.fresh.1⟩
  let begun := Session.start (ι := ι) x b (s.newDesk r)
  { session := some begun.1, source := begun.2.source, writer := begun.2.writer
    token := x.token, deadline := s.deadline }

theorem build_decoded (room : s.HasRoom) {b : DecodedBuild}
    (h : s.policy.decode (r.toBuild version) = .ok b) :
    s.build version r = (.exchange s.next, { s with
      workshop := ⟨s.workshop.store, s.workshop.tokens.fresh.2⟩, next := s.next + 1
      exchanges := s.exchanges ++ [(s.next, s.opened r b)] }) := by
  rw [build_of_hasRoom room,
    show s.policy.decode ⟨version, r.uri, r.mediaTypes, r.body.isSome⟩ = .ok b from h]
  rfl

theorem governed_opened (b : DecodedBuild) : (s.opened r b).channel.Governed := by
  have desk : (s.newDesk r).writer.sink.Governed := s.governed_openChannel _
  show (if (s.newDesk r).source.isSome then (s.newDesk r).writer.sink.enableDuplex.2
    else (s.newDesk r).writer.sink).Governed
  split
  · exact desk.enableDuplex
  · exact desk

/-! ## Cancelling and pruning -/

/-- **To cancel** is one call of the engine, if version and parameters are accepted,
and to be rejected otherwise. -/
theorem cancel_cases (s : Service ι σ) (version : Option String) (q : Query) :
    (∃ v id, s.policy.resolve version = .ok v ∧ q.values "id" = [id] ∧ id ≠ "" ∧
      s.cancel version q =
        (match (Engine.cancel ι v id s.workshop).1 with
          | .ok () => .success (Json.Print.string "cancelled")
          | .error e => .ofBuildError e,
          s.inWorkshop (Engine.cancel ι v id s.workshop).2)) ∨
    ((¬ ∃ v id, s.policy.resolve version = .ok v ∧ q.values "id" = [id] ∧ id ≠ "") ∧
      ∃ x, s.cancel version q = (x, s) ∧ x.status = 400) := by
  have text := q.text?_eq "id"
  unfold cancel
  cases values : q.values "id" with
  | nil =>
    have missing : q.text? "id" = none := by rw [text, values]; rfl
    rw [missing]
    refine .inr ⟨?_, ?_⟩
    · rintro ⟨v, id, -, ⟨⟩, -⟩
    · cases hv : s.policy.resolve version with
      | error e => exact ⟨.rejection e, rfl, Policy.status_of_resolve hv⟩
      | ok v => exact ⟨.rejection (.missingParameter "id"), rfl, rfl⟩
  | cons id rest =>
    cases rest with
    | cons id' rest =>
      refine .inr ⟨?_, _, if_pos (by simp), rfl⟩
      rintro ⟨v, id, -, ⟨⟩, -⟩
    | nil =>
      rw [if_neg (by simp)]
      cases hv : s.policy.resolve version with
      | error e =>
        refine .inr ⟨?_, .rejection e, rfl, Policy.status_of_resolve hv⟩
        rintro ⟨v, id, ⟨⟩, -⟩
      | ok v =>
        by_cases empty : id = ""
        · have missing : q.text? "id" = none := by simp [text, values, empty]
          rw [missing]
          refine .inr ⟨?_, .rejection (.missingParameter "id"), rfl, rfl⟩
          rintro ⟨v, id', -, ⟨⟩, some⟩
          exact some empty
        · have given : q.text? "id" = some id := by simp [text, values, empty]
          rw [given]
          refine .inl ⟨v, id, rfl, rfl, empty, ?_⟩
          dsimp only
          rcases Engine.cancel ι v id s.workshop with ⟨result, w⟩
          cases result <;> rfl

/-- **To prune** is one call of the engine, or to be rejected. -/
theorem prune_cases (s : Service ι σ) (version : Option String) (q : Query) :
    (∃ v o, s.policy.resolve version = .ok v ∧ q.pruneOptions = .ok o ∧
      s.prune version q =
        (match (Engine.prune ι v o s.workshop.store).1 with
          | .ok report => .success report.print
          | .error e => .ofBuildError e,
          s.inWorkshop { s.workshop with store := (Engine.prune ι v o s.workshop.store).2 })) ∨
    ((¬ ∃ v o, s.policy.resolve version = .ok v ∧ q.pruneOptions = .ok o) ∧
      ∃ x, s.prune version q = (x, s) ∧ x.status = 400) := by
  unfold prune
  cases hv : s.policy.resolve version with
  | error e =>
    refine .inr ⟨?_, .rejection e, rfl, Policy.status_of_resolve hv⟩
    rintro ⟨v, o, ⟨⟩, -⟩
  | ok v =>
    cases ho : q.pruneOptions with
    | error e =>
      refine .inr ⟨?_, .rejection e, rfl, Query.status_of_pruneOptions ho⟩
      rintro ⟨v, o, -, ⟨⟩⟩
    | ok o =>
      refine .inl ⟨v, o, rfl, rfl, ?_⟩
      dsimp only
      rcases Engine.prune ι v o s.workshop.store with ⟨result, store⟩
      cases result <;> rfl

theorem governed_accept (s : Service ι σ) (r : HttpRequest) :
    ∀ x ∈ (s.accept r).2.exchanges, x ∈ s.exchanges ∨ x.2.channel.Governed := by
  have dispatch (route : Route) (version : Option String) :
      ∀ x ∈ (s.dispatch route version r).2.exchanges, x ∈ s.exchanges ∨ x.2.channel.Governed := by
    intro x hx
    cases route with
    | ping => exact .inl hx
    | build =>
      change x ∈ (s.build version r).2.exchanges at hx
      by_cases room : s.HasRoom
      · cases decoded : s.policy.decode (r.toBuild version) with
        | error e =>
          rw [s.build_rejected room decoded] at hx
          exact .inl hx
        | ok b =>
          rw [s.build_decoded room decoded, List.mem_append, List.mem_singleton] at hx
          rcases hx with hx | rfl
          · exact .inl hx
          · exact .inr (s.governed_opened b)
      · rw [build_of_not_hasRoom room] at hx
        exact .inl hx
    | cancel =>
      change x ∈ (s.cancel version (Query.ofUri r.uri)).2.exchanges at hx
      rcases s.cancel_cases version (Query.ofUri r.uri) with
        ⟨v, id, -, -, -, called⟩ | ⟨-, y, rejected, -⟩
      · rw [called] at hx
        exact .inl hx
      · rw [rejected] at hx
        exact .inl hx
    | prune =>
      change x ∈ (s.prune version (Query.ofUri r.uri)).2.exchanges at hx
      rcases s.prune_cases version (Query.ofUri r.uri) with
        ⟨v, o, -, -, called⟩ | ⟨-, y, rejected, -⟩
      · rw [called] at hx
        exact .inl hx
      · rw [rejected] at hx
        exact .inl hx
  intro x hx
  unfold accept at hx
  split at hx
  · exact .inl hx
  · split at hx
    · exact .inl hx
    · split at hx
      · exact dispatch _ _ x hx
      · split at hx
        · exact dispatch _ _ x hx
        · exact .inl hx

end Service

/-! ## A build that is served -/

/-- Whether the builds of an engine use their desks through the acts of a desk
and in no other way. -/
def Engine.Works (ι : Type) {σ : Type} [Engine ι σ] : Prop :=
  ∀ (j : ι) (d : Desk σ Channel),
    (Engine.move j d).1 = .wait ∨ Desk.Acts (fun _ => True) d (Engine.move j d).2

/-- Builds that do not look at the response do one act in a move. -/
theorem Engine.Oblivious.works {ι σ : Type} [Engine ι σ] (oblivious : Engine.Oblivious ι) :
    Engine.Works ι := by
  intro j d
  obtain ⟨deed, next, does⟩ := oblivious j d.view
  have performed : Desk.Acts (fun _ => True) d (d.perform deed).2 := by
    cases deed with
    | nothing => exact .nothing
    | write f => exact .write .nothing trivial
    | take =>
      simp only [Desk.perform]
      split
      · exact .nothing
      · next s hs => exact .take .nothing hs
    | putAway => exact .dropSource .nothing
  have moved : d.Does deed next (Engine.move j d) := does d rfl
  unfold Desk.Does at moved
  split at moved
  · exact .inl moved
  · rw [moved]
    exact .inr (performed.inWorkshop _)

namespace Desk

variable {σ : Type} {d d' : Desk σ Channel}

theorem governed_write (h : d.writer.sink.Governed) (f : Frame) :
    (d.write f).2.writer.sink.Governed := by
  show (d.writer.write f).2.sink.Governed
  unfold Writer.write
  split
  · exact h
  · split
    · exact h
    · exact h.send f

theorem blocked_write {f : Frame} (h : (d.write f).1 = .blocked) :
    (d.writer.sink.send f).1 = .blocked := by
  change (d.writer.write f).1 = .blocked at h
  unfold Writer.write at h
  split at h
  · cases h
  · split at h
    · cases h
    · exact h

theorem governed_dropSource (h : d.writer.sink.Governed) : d.dropSource.writer.sink.Governed := by
  unfold dropSource
  split
  · exact h
  · exact h.release

theorem governed_acts {P : Frame → Prop} (h : d.writer.sink.Governed) (acts : Acts P d d') :
    d'.writer.sink.Governed := by
  induction acts with
  | nothing => exact h
  | inWorkshop _ _ ih => exact ih
  | take _ _ ih =>
    unfold take
    split
    · exact ih.release
    · exact ih
  | dropSource _ ih => exact governed_dropSource ih
  | write _ _ ih => exact governed_write ih _

end Desk

/-- **A move of a session** keeps the channel governed. -/
theorem Session.governed_move {ι σ : Type} [Engine ι σ] (works : Engine.Works ι) (s : Session ι)
    {d : Desk σ Channel} (h : d.writer.sink.Governed) :
    (s.move d).1 = .wait ∨ (s.move d).2.writer.sink.Governed := by
  cases s with
  | building j =>
    simp only [move]
    have acted := works j d
    rcases hm : Engine.move j d with ⟨m, d'⟩
    rw [hm] at acted
    rcases acted with waits | acts
    · cases waits
      exact .inl rfl
    · have left : d'.writer.sink.Governed := Desk.governed_acts h acts
      cases m with
      | go k => exact .inr left
      | wait => exact .inl rfl
      | stop result => exact .inr (Desk.governed_dropSource left)
  | closing frames =>
    cases frames with
    | nil => exact .inr h
    | cons f rest =>
      simp only [move]
      have written := Desk.governed_write h f
      rcases hw : d.write f with ⟨sent, d'⟩
      rw [hw] at written
      cases sent with
      | accepted | failed => exact .inr written
      | blocked => exact .inl rfl

namespace Exchange

variable {ι σ : Type} [Engine ι σ] {e : Exchange ι}

theorem governed_move (works : Engine.Works ι) (h : e.channel.Governed) (w : Workshop σ) :
    (e.move w).1.channel.Governed := by
  cases hs : e.session with
  | none =>
    rw [move_none hs]
    exact h
  | some s =>
    have moved := s.governed_move works (d := e.desk w) h
    rcases hm : s.move (e.desk w) with ⟨m, d⟩
    rw [hm] at moved
    cases m with
    | wait =>
      rw [move_wait hs hm]
      exact h
    | go s' =>
      rw [move_go hs hm]
      exact moved.resolve_left (by simp)
    | stop result =>
      rw [move_stop hs hm]
      exact (moved.resolve_left (by simp)).close

omit [Engine ι σ] in
theorem governed_deliver (h : e.channel.Governed) : (e.deliver?.getD e).channel.Governed := by
  cases hd : e.deliver? with
  | none => exact h
  | some e' =>
    obtain ⟨f, c, rfl, hr⟩ := deliver?_cases hd
    have received := h.receive
    rw [hr] at received
    exact received

end Exchange

namespace Service

variable {ι σ : Type} {s : Service ι σ} {number : Nat} {e : Exchange ι}

theorem exchange?_change (h : s.exchange? number = some e) (f : Exchange ι → Exchange ι) :
    (s.change number f).exchange? number = some (f e) := by
  obtain ⟨before, after, hs, others⟩ := List.lookup_eq_some_iff.1 h
  have same (x : Nat × Exchange ι) (hx : x ∈ before) :
      (if x.1 = number then (x.1, f x.2) else x) = x := by
    rw [if_neg]
    rintro rfl
    simpa using others x hx
  refine List.lookup_eq_some_iff.2 ⟨before, after.map fun x =>
    if x.1 = number then (x.1, f x.2) else x, ?_, others⟩
  show s.exchanges.map _ = _
  rw [hs, List.map_append, List.map_cons, if_pos rfl]
  congr 1
  exact (List.map_congr_left same).trans (List.map_id _)

end Service

namespace Traffic

variable {ι σ : Type} [Engine ι σ] {t : Traffic ι σ} {number : Nat} {e : Exchange ι}

/-- **Governed traffic.** The channels of all exchanges are governed, and the
numbers that come are new. -/
structure Governed (t : Traffic ι σ) : Prop where
  channel : ∀ x ∈ t.service.exchanges, x.2.channel.Governed
  below : ∀ x ∈ t.service.exchanges, x.1 < t.service.next

omit [Engine ι σ] in
theorem Governed.change (h : t.Governed) {t' : Traffic ι σ} (number : Nat)
    (f : Exchange ι → Exchange ι)
    (changed : t'.service.exchanges = (t.service.change number f).exchanges)
    (next : t'.service.next = t.service.next)
    (hf : ∀ e, e.channel.Governed → (f e).channel.Governed) : t'.Governed := by
  have each (x : Nat × Exchange ι) (hx : x ∈ t'.service.exchanges) :
      x.2.channel.Governed ∧ x.1 < t.service.next := by
    rw [changed] at hx
    obtain ⟨y, hy, rfl⟩ := List.mem_map.1 hx
    split
    · exact ⟨hf _ (h.channel y hy), h.below y hy⟩
    · exact ⟨h.channel y hy, h.below y hy⟩
  constructor
  · intro x hx
    exact (each x hx).1
  · intro x hx
    rw [next]
    exact (each x hx).2

theorem Governed.request (h : t.Governed) (r : HttpRequest) : (t.step (.request r)).Governed := by
  constructor
  · intro x hx
    rcases t.service.governed_accept r x hx with old | new
    · exact h.channel x old
    · exact new
  · intro x hx
    change x ∈ (t.service.accept r).2.exchanges at hx
    show x.1 < (t.service.accept r).2.next
    rcases (t.service.admits_accept r).exchanges with ⟨same, next⟩ | ⟨e, -, more, next⟩
    · rw [same] at hx
      exact Nat.lt_of_lt_of_le (h.below x hx) next
    · rw [more, List.mem_append, List.mem_singleton] at hx
      rw [next]
      rcases hx with old | rfl
      · exact Nat.lt_succ_of_lt (h.below x old)
      · exact Nat.lt_succ_self _

theorem Governed.step (works : Engine.Works ι) (h : t.Governed) (event : TrafficEvent σ) :
    (t.step event).Governed := by
  cases event with
  | request r => exact h.request r
  | move number =>
    show (t.move number).Governed
    unfold move
    split
    · exact h
    · next e he =>
      have governed := h.channel _ (Service.mem_of_exchange? he)
      exact h.change number _ rfl rfl fun _ _ => e.governed_move works governed _
  | deliver number => exact h.change number _ rfl rfl fun _ he => Exchange.governed_deliver he
  | feed number items => exact h.change number (·.feed items) rfl rfl fun _ he => he
  | complete number => exact h.change number (·.endUpload) rfl rfl fun _ he => he
  | tick milliseconds => exact ⟨h.channel, h.below⟩
  | expire number =>
    simp only [Traffic.step]
    split
    · exact h
    · next e he =>
      have governed := h.channel _ (Service.mem_of_exchange? he)
      refine h.change number (fun _ => (e.expire t.service.now t.service.workshop).1) rfl rfl
        fun _ _ => ?_
      unfold Exchange.expire
      split
      · exact governed
      · split <;> exact governed
  | disconnect number =>
    simp only [Traffic.step]
    split
    · exact h
    · constructor
      · exact fun x hx => h.channel x (List.mem_of_mem_filter hx)
      · exact fun x hx => h.below x (List.mem_of_mem_filter hx)
  | alter w => exact ⟨h.channel, h.below⟩

theorem Governed.run (works : Engine.Works ι) (h : t.Governed) (events : List (TrafficEvent σ)) :
    (t.run events).Governed := by
  induction events generalizing t with
  | nil => exact h
  | cons event events ih => exact ih (h.step works event)

/-! ## The head of the answer -/

theorem exchange?_move (h : t.service.exchange? number = some e) :
    (t.step (.move number)).service.exchange? number =
      some (e.move t.service.workshop).1 := by
  show (t.move number).service.exchange? number = _
  unfold move
  simp only [h]
  exact Service.exchange?_change h fun _ => (e.move t.service.workshop).1

/-- Whether the head of the answer in an exchange comes out by moves of the
exchange alone. -/
def HeadComes (t : Traffic ι σ) (number : Nat) : Prop :=
  ∃ n, ((t.run (List.replicate n (.move number))).service.exchange? number).bind Exchange.head? =
    some Response.buildHead

theorem HeadComes.later (h : (t.step (.move number)).HeadComes number) : t.HeadComes number := by
  obtain ⟨n, hn⟩ := h
  exact ⟨n + 1, hn⟩

theorem headComes_of_hasHead (he : t.service.exchange? number = some e) (head : e.hasHead = true) :
    t.HeadComes number := by
  refine ⟨0, ?_⟩
  show (t.service.exchange? number).bind _ = _
  rw [he]
  simp [Exchange.head?, head]

/-- **When the build has returned,** the head comes out: a frame is taken, or has
to wait behind one that has committed the response, or is refused. -/
theorem headComes_of_closing (works : Engine.Works ι) (h : t.Governed) {left : List Frame}
    (he : t.service.exchange? number = some e) (hs : e.session = some (.closing left)) :
    t.HeadComes number := by
  -- by induction on the frames that are left to be written
  induction left generalizing t e with
  | nil =>
    have moved := exchange?_move he
    rw [Exchange.move_stop hs (d := e.desk t.service.workshop) rfl] at moved
    exact (headComes_of_hasHead moved rfl).later
  | cons f rest ih =>
    have governed := h.channel _ (Service.mem_of_exchange? he)
    have moved := exchange?_move he
    rcases hw : (e.desk t.service.workshop).write f with ⟨sent, d⟩
    cases sent with
    | accepted =>
      have hm : (Session.closing (f :: rest) : Session ι).move (e.desk t.service.workshop) =
          (.go (.closing rest), d) := by simp only [Session.move, hw]
      rw [Exchange.move_go hs hm] at moved
      exact (ih (h.step works _) moved rfl).later
    | failed cause =>
      have hm : (Session.closing (f :: rest) : Session ι).move (e.desk t.service.workshop) =
          (.stop (.error cause), d) := by simp only [Session.move, hw]
      rw [Exchange.move_stop hs hm] at moved
      exact (headComes_of_hasHead moved rfl).later
    | blocked =>
      have committed := governed.committed_of_blocked (Desk.blocked_write (by rw [hw]))
      exact headComes_of_hasHead he (by simp [Exchange.hasHead, committed])

theorem headComes_of_returns (works : Engine.Works ι) (h : t.Governed)
    (he : t.service.exchange? number = some e)
    (returned : ∀ j, e.session = some (.building j) →
      (e.returns? t.service.workshop).isSome = true) : t.HeadComes number := by
  cases hs : e.session with
  | none => exact headComes_of_hasHead he (by simp [Exchange.hasHead, hs])
  | some s =>
    cases s with
    | closing left => exact headComes_of_closing works h he hs
    | building j =>
      have stops := returned j hs
      unfold Exchange.returns? at stops
      rw [hs] at stops
      dsimp only at stops
      rcases hm : Engine.move j (e.desk t.service.workshop) with ⟨m, d⟩
      rw [hm] at stops
      cases m with
      | go k => cases stops
      | wait => cases stops
      | stop result =>
        have moved := exchange?_move he
        have closes : (Session.building j).move (e.desk t.service.workshop) =
            (.go (.closing (Session.lastFrames d.writer.kept result)),
              (Session.close (ι := ι) d result).2) := by
          simp only [Session.move, hm]
          rfl
        rw [Exchange.move_go hs closes] at moved
        exact (headComes_of_closing works (h.step works _) moved rfl).later

theorem exchange?_opened (h : t.Governed) {r : HttpRequest} {version : Option String}
    {b : DecodedBuild} (asks : r.Asks .build version) (room : t.service.HasRoom)
    (decodes : t.service.policy.decode (r.toBuild version) = .ok b) :
    (t.service.accept r).1 = .exchange t.service.next ∧
      (t.step (.request r)).service.exchange? t.service.next = some (t.service.opened r b) := by
  have accepted : t.service.accept r = t.service.build version r :=
    t.service.accept_eq_dispatch asks
  have served := t.service.build_decoded room decodes
  refine ⟨by rw [accepted, served], ?_⟩
  show (t.service.accept r).2.exchanges.lookup t.service.next = _
  rw [accepted, served]
  refine List.lookup_eq_some_iff.2 ⟨_, [], rfl, ?_⟩
  intro x hx
  have below := h.below x hx
  simp only [bne_iff_ne, ne_eq]
  omega

/-! ## Rejected or answered -/

theorem step_request_of_eq {r : HttpRequest} {reply : Reply}
    (h : t.service.accept r = (reply, t.service)) : t.step (.request r) = t := by
  show ({ t with service := (t.service.accept r).2 } : Traffic ι σ) = t
  rw [h]

/-- **A request to cancel** is one call of the engine, or leaves no trace. -/
theorem request_cancel (t : Traffic ι σ) {r : HttpRequest} {version : Option String}
    (asks : r.Asks .cancel version) :
    let s := t.service
    let q := Query.ofUri r.uri
    (∃ v id, s.policy.resolve version = .ok v ∧ q.values "id" = [id] ∧ id ≠ "" ∧
      s.accept r = (.response (match (Engine.cancel ι v id s.workshop).1 with
        | .ok () => .success (Json.Print.string "cancelled")
        | .error e => .ofBuildError e), s.inWorkshop (Engine.cancel ι v id s.workshop).2)) ∨
    (¬ ∃ v id, s.policy.resolve version = .ok v ∧ q.values "id" = [id] ∧ id ≠ "") ∧
      t.step (.request r) = t ∧ ∃ x, (s.accept r).1 = .response x ∧ x.status = 400 := by
  intro s q
  have accepted : s.accept r = (.response (s.cancel version q).1, (s.cancel version q).2) :=
    s.accept_eq_dispatch asks
  rcases s.cancel_cases version q with ⟨v, id, hv, hid, some, called⟩ | ⟨not, x, rejected, bad⟩
  · refine .inl ⟨v, id, hv, hid, some, ?_⟩
    rw [accepted, called]
  · have answered : s.accept r = (.response x, s) := by rw [accepted, rejected]
    exact .inr ⟨not, step_request_of_eq answered, x, by rw [answered], bad⟩

/-- **A request to prune** is one call of the engine, or leaves no trace. -/
theorem request_prune (t : Traffic ι σ) {r : HttpRequest} {version : Option String}
    (asks : r.Asks .prune version) :
    let s := t.service
    let q := Query.ofUri r.uri
    (∃ v o, s.policy.resolve version = .ok v ∧ q.pruneOptions = .ok o ∧
      s.accept r = (.response (match (Engine.prune ι v o s.workshop.store).1 with
        | .ok report => .success report.print
        | .error e => .ofBuildError e),
        s.inWorkshop { s.workshop with store := (Engine.prune ι v o s.workshop.store).2 })) ∨
    (¬ ∃ v o, s.policy.resolve version = .ok v ∧ q.pruneOptions = .ok o) ∧
      t.step (.request r) = t ∧ ∃ x, (s.accept r).1 = .response x ∧ x.status = 400 := by
  intro s q
  have accepted : s.accept r = (.response (s.prune version q).1, (s.prune version q).2) :=
    s.accept_eq_dispatch asks
  rcases s.prune_cases version q with ⟨v, o, hv, ho, called⟩ | ⟨not, x, rejected, bad⟩
  · refine .inl ⟨v, o, hv, ho, ?_⟩
    rw [accepted, called]
  · have answered : s.accept r = (.response x, s) := by rw [accepted, rejected]
    exact .inr ⟨not, step_request_of_eq answered, x, by rw [answered], bad⟩

/-- **No trace of a rejection.** Whatever went on before and whatever is configured, if there is a
channel for it, a request to build that is rejected is answered with what is wrong and leaves the
service as it is: whoever serves it leaves the desk as it found it, and a channel that was opened
for it is not committed by putting its upload away. One that decodes gets status 200, and its head
comes out unless the build goes on for ever. Requests to cancel and to prune are one call of the
engine, or are rejected without any. -/
theorem rejection_changes_nothing (works : Engine.Works ι) (settings : Settings) (w : Workshop σ)
    (before : List (TrafficEvent σ)) (r : HttpRequest) (version : Option String) :
    let t := Traffic.run (ι := ι) { service := { settings, workshop := w } } before
    let s := t.service
    let q := Query.ofUri r.uri
    let hasRoom := settings.progressBuffer ≤ Channel.maxCapacity
    (hasRoom → r.Asks .build version → ∀ e, s.policy.decode (r.toBuild version) = .error e →
      ((s.accept r).1 = .response
          { status := e.status, mediaType := some "application/json"
            body := Text.encode "\x7b\"error\":" ++ Json.Print.string e.message ++
              Text.encode ",\"success\":false\x7d" } ∧
        (e.status = 415 ∨ e.status = 400) ∧
        (e.status = 415 ↔
          (∃ v, s.policy.resolve version = .ok v) ∧ Policy.RejectsMedia (r.toBuild version))) ∧
      t.step (.request r) = t ∧
      (∀ {τ : Type} [Sink τ] (x : Context) (d : Desk σ τ),
        Session.serve (ι := ι) s.policy (r.toBuild version) x d =
          (.inr (.error (.rejected e)), d)) ∧
      let c := (s.newDesk r).dropSource.writer.sink
      c.gate.isCommitted = false ∧ c.isDuplex = false ∧ ¬ c.IsReady) ∧
    (hasRoom → r.Asks .build version → ∀ b, s.policy.decode (r.toBuild version) = .ok b →
      (s.accept r).1 = .exchange s.next ∧
      (t.step (.request r)).service.exchange? s.next = some (s.opened r b) ∧
      ∀ after e, let t' := (t.step (.request r)).run after
        t'.service.exchange? s.next = some e →
        (∀ head, e.head? = some head → head.status = 200) ∧
        ((∀ j, e.session = some (.building j) →
          (e.returns? t'.service.workshop).isSome = true) → t'.HeadComes s.next)) ∧
    (r.Asks .cancel version →
      (∃ v id, s.policy.resolve version = .ok v ∧ q.values "id" = [id] ∧ id ≠ "" ∧
        s.accept r = (.response (match (Engine.cancel ι v id s.workshop).1 with
          | .ok () => .success (Json.Print.string "cancelled")
          | .error e => .ofBuildError e), s.inWorkshop (Engine.cancel ι v id s.workshop).2)) ∨
      (¬ ∃ v id, s.policy.resolve version = .ok v ∧ q.values "id" = [id] ∧ id ≠ "") ∧
        t.step (.request r) = t ∧ ∃ x, (s.accept r).1 = .response x ∧ x.status = 400) ∧
    (r.Asks .prune version →
      (∃ v o, s.policy.resolve version = .ok v ∧ q.pruneOptions = .ok o ∧
        s.accept r = (.response (match (Engine.prune ι v o s.workshop.store).1 with
          | .ok report => .success report.print
          | .error e => .ofBuildError e),
          s.inWorkshop { s.workshop with store := (Engine.prune ι v o s.workshop.store).2 })) ∨
      (¬ ∃ v o, s.policy.resolve version = .ok v ∧ q.pruneOptions = .ok o) ∧
        t.step (.request r) = t ∧ ∃ x, (s.accept r).1 = .response x ∧ x.status = 400) := by
  intro t s q hasRoom
  have room (h : hasRoom) : s.HasRoom := by
    have settled : s.settings = settings := settings_run _ before
    rw [Service.HasRoom, settled]
    exact h
  have initial : ({ service := { settings, workshop := w } } : Traffic ι σ).Governed :=
    ⟨by simp, by simp⟩
  have governed : t.Governed := initial.run works before
  refine ⟨?_, ?_, t.request_cancel, t.request_prune⟩
  · intro fits asks e rejected
    have answered : s.accept r = (.response (.rejection e), s) := by
      rw [s.accept_eq_dispatch asks]
      exact s.build_rejected (room fits) rejected
    refine ⟨⟨?_, Policy.status_of_decode rejected⟩, step_request_of_eq answered, ?_,
      s.newDesk_dropSource r⟩
    · rw [answered, ← Response.errorBody_eq]
      rfl
    · intro τ _ x d
      simp only [Session.serve, rejected]
  · intro fits asks b decodes
    obtain ⟨reply, opened⟩ := exchange?_opened governed asks (room fits) decodes
    refine ⟨reply, opened, ?_⟩
    intro after e t' he
    constructor
    · intro head hh
      unfold Exchange.head? at hh
      split at hh <;> cases hh
      rfl
    · intro returned
      exact headComes_of_returns works ((governed.request r).run works after) he returned

/-- While a build without an upload has yet to fail, one whose body is plain text is
rejected. The first one fails in its next move, and its head comes out. -/
theorem rejection_changes_nothing_text :
    let path : Uri := ⟨Text.encode "/v1.41/build", none⟩
    let first : HttpRequest := { uri := path }
    let r : HttpRequest :=
      { uri := path, mediaTypes := [Text.encode "text/plain"], body := some ⟨[.pause], false⟩ }
    let t : Traffic ContextEngine.Job Store := { service := { workshop := ⟨{}, {}⟩ } }
    let t' := t.step (.request first)
    let fault := RequestError.unsupportedMediaType "text/plain"
    (r.Asks .build (some "v1.41") ∧ t'.step (.request r) = t' ∧
      (t'.service.accept r).1 = .response
        { status := 415, mediaType := some "application/json"
          body := Text.encode "\x7b\"error\":" ++ Json.Print.string fault.message ++
            Text.encode ",\"success\":false\x7d" }) ∧
    first.Asks .build (some "v1.41") ∧ t'.HeadComes 0 := by
  intro path first r t t' fault
  have works : Engine.Works ContextEngine.Job := ContextEngine.oblivious.works
  have asks : r.Asks .build (some "v1.41") := ⟨some (Text.encode "v1.41"), by decide +kernel⟩
  have first_asks : first.Asks .build (some "v1.41") :=
    ⟨some (Text.encode "v1.41"), by decide +kernel⟩
  have rejected : t'.service.policy.decode (r.toBuild (some "v1.41")) = .error fault := by
    decide +kernel
  have decodes : t.service.policy.decode (first.toBuild (some "v1.41")) = .ok ⟨⟨1, 41⟩, {}⟩ := by
    decide
  obtain ⟨⟨reply, -⟩, same, -⟩ := (rejection_changes_nothing works {} ⟨{}, {}⟩
    [.request first] r (some "v1.41")).1 (by decide) asks _ rejected
  obtain ⟨-, -, heads⟩ := (rejection_changes_nothing works {} ⟨{}, {}⟩ [] first
    (some "v1.41")).2.1 (by decide) first_asks _ decodes
  have returns : (t'.service.exchange? 0).any
      (fun e => (e.returns? t'.service.workshop).isSome) = true := by
    decide +kernel
  obtain ⟨e, he, returned⟩ := (Option.any_eq_true _ _).1 returns
  exact ⟨⟨asks, same, reply⟩, first_asks, (heads [] e he).2 fun _ _ => returned⟩

end Traffic
end ImageBuild
