import ImageBuild.ContextEngine.Basic
import ImageBuild.Proofs.Exchange
import Mathlib.Data.List.Nodup

/-!
# Requests side by side

`Traffic` is the service with a note of what its builds have returned. Its
events come in any order: requests arrive, sessions move, clients take frames
and go away, uploads go on, time passes. Every exchange is sound after every
run (`Sound.run`), so a response that is read to its end tells progress and, at
last, how its build ended (`response_ends`). What the service does by itself
between two requests is one such run (`leads_service_settle`).
-/

namespace ImageBuild

open Message

/-- The service, with a note of what its builds have returned. -/
structure Traffic (ι σ : Type) where
  service : Service ι σ
  /-- what was returned, with the numbers of the exchanges -/
  returned : List (Nat × Except BuildError String) := []

/-- Something that happens to the service. -/
inductive TrafficEvent (σ : Type) where
  | request (r : HttpRequest)
  /-- the session of an exchange makes a move -/
  | move (number : Nat)
  /-- the client of an exchange takes a frame -/
  | deliver (number : Nat)
  | feed (number : Nat) (items : List Upload.Item)
  | complete (number : Nat)
  | tick (milliseconds : Nat)
  /-- the time of an exchange may be over -/
  | expire (number : Nat)
  | disconnect (number : Nat)
  /-- anything else happens in the workshop -/
  | alter (w : Workshop σ)

/-- Whether a request is one for a route, with this version segment before it. -/
def HttpRequest.Asks (r : HttpRequest) (route : Route) (version : Option String) : Prop :=
  ∃ segment, Route.ofPath? r.uri.path = some (route, segment) ∧ route.accepts r.method = true ∧
    segment.map decodeSegment? = version.map some

namespace Service

variable {ι σ : Type}

def inWorkshop (s : Service ι σ) (w : Workshop σ) : Service ι σ := { s with workshop := w }

def replace (s : Service ι σ) (number : Nat) (x : Exchange ι × Workshop σ) : Service ι σ :=
  (s.change number fun _ => x.1).inWorkshop x.2

theorem mem_of_exchange? {s : Service ι σ} {number : Nat} {e : Exchange ι}
    (h : s.exchange? number = some e) : (number, e) ∈ s.exchanges := by
  obtain ⟨before, after, hs, -⟩ := List.lookup_eq_some_iff.1 h
  rw [hs]
  simp

theorem numbers_change (s : Service ι σ) (number : Nat) (f : Exchange ι → Exchange ι) :
    (s.change number f).exchanges.map (·.1) = s.exchanges.map (·.1) := by
  unfold change
  rw [List.map_map]
  refine List.map_congr_left fun x _ => ?_
  show (if x.1 = number then (x.1, f x.2) else x).1 = x.1
  split <;> rfl

/-! ## What a request does -/

section Requests

variable [Engine ι σ]

/-- Whether a service differs from another one by a new exchange at most, and by the numbers
that come. -/
structure Admits (s s' : Service ι σ) : Prop where
  settings : s'.settings = s.settings
  exchanges : (s'.exchanges = s.exchanges ∧ s.next ≤ s'.next) ∨
    ∃ e, e.Sound [] ∧ s'.exchanges = s.exchanges ++ [(s.next, e)] ∧ s'.next = s.next + 1

omit [Engine ι σ] in
theorem admits_self (s : Service ι σ) : s.Admits s := ⟨rfl, .inl ⟨rfl, Nat.le_refl _⟩⟩

theorem build_of_hasRoom {s : Service ι σ} (room : s.HasRoom) (segment : Option String)
    (r : HttpRequest) : s.build segment r =
      match s.policy.decode ⟨segment, r.uri, r.mediaTypes, r.body.isSome⟩ with
      | .error e => (.response (.rejection e), s)
      | .ok b =>
        let fresh := Context.fresh s.workshop.tokens s.settings.defaultVersion
        let begun := Session.start (ι := ι) fresh.1 b
          { store := s.workshop.store, tokens := fresh.2
            source := r.body.map fun u => ⟨u, 0, false⟩
            writer := ⟨s.openChannel r.body.isSome, none⟩ }
        (.exchange s.next, { s with
          workshop := begun.2.toWorkshop, next := s.next + 1
          exchanges := s.exchanges ++ [(s.next,
            { session := some begun.1, source := begun.2.source, writer := begun.2.writer
              token := fresh.1.token, deadline := s.deadline })] }) := by
  unfold build
  exact if_neg (not_not.2 room)

/-- **A request to build** that decodes opens an exchange, if there is a channel for it. -/
theorem build_eq (s : Service ι σ) {segment : Option String} {r : HttpRequest} {b : DecodedBuild}
    (room : s.HasRoom)
    (h : s.policy.decode ⟨segment, r.uri, r.mediaTypes, r.body.isSome⟩ = .ok b) :
    (s.build segment r).1 = .exchange s.next ∧
      ∃ e, e.Sound [] ∧ (s.build segment r).2.exchanges = s.exchanges ++ [(s.next, e)] ∧
        (s.build segment r).2.next = s.next + 1 := by
  let fresh := Context.fresh s.workshop.tokens s.settings.defaultVersion
  let desk : Desk σ Channel :=
    { store := s.workshop.store, tokens := fresh.2, source := r.body.map fun u => ⟨u, 0, false⟩
      writer := ⟨s.openChannel r.body.isSome, none⟩ }
  have flows : Flows desk.source desk.writer := by
    have := Flows.openChannel s desk.source
    rwa [Option.isSome_map] at this
  let begun := Session.start (ι := ι) fresh.1 b desk
  let e : Exchange ι :=
    { session := some begun.1, source := begun.2.source, writer := begun.2.writer
      token := fresh.1.token, deadline := s.deadline }
  have opened : s.build segment r = (.exchange s.next, { s with
      workshop := begun.2.toWorkshop, next := s.next + 1
      exchanges := s.exchanges ++ [(s.next, e)] }) := by
    rw [build_of_hasRoom room, h]
  rw [opened]
  exact ⟨rfl, e, ⟨rfl, flows.start (ι := ι) fresh.1 b, by simp [e]⟩, rfl, rfl⟩

/-- Without a channel, the reply is a number under which there is no exchange. -/
theorem build_of_not_hasRoom {s : Service ι σ} (full : ¬ s.HasRoom) (segment : Option String)
    (r : HttpRequest) : s.build segment r = (.exchange s.next, { s with next := s.next + 1 }) := by
  rw [build, if_pos full]

theorem admits_build (s : Service ι σ) (segment : Option String) (r : HttpRequest) :
    s.Admits (s.build segment r).2 := by
  by_cases room : s.HasRoom
  · cases h : s.policy.decode ⟨segment, r.uri, r.mediaTypes, r.body.isSome⟩ with
    | error e =>
      rw [build_of_hasRoom room, h]
      exact s.admits_self
    | ok b =>
      refine ⟨?_, .inr (s.build_eq room h).2⟩
      rw [build_of_hasRoom room, h]
  · rw [build_of_not_hasRoom room]
    exact ⟨rfl, .inl ⟨rfl, Nat.le_succ _⟩⟩

theorem admits_cancel (s : Service ι σ) (segment : Option String) (q : Query) :
    s.Admits (s.cancel segment q).2 := by
  unfold cancel
  repeat' split
  all_goals exact ⟨rfl, .inl ⟨rfl, Nat.le_refl _⟩⟩

theorem admits_prune (s : Service ι σ) (segment : Option String) (q : Query) :
    s.Admits (s.prune segment q).2 := by
  unfold prune
  repeat' split
  all_goals exact ⟨rfl, .inl ⟨rfl, Nat.le_refl _⟩⟩

/-- **A request** opens an exchange at most. -/
theorem admits_accept (s : Service ι σ) (r : HttpRequest) : s.Admits (s.accept r).2 := by
  have dispatch (route : Route) (segment : Option String) :
      s.Admits (s.dispatch route segment r).2 := by
    cases route with
    | build => exact s.admits_build segment r
    | cancel => exact s.admits_cancel segment _
    | prune => exact s.admits_prune segment _
    | ping => exact s.admits_self
  unfold accept
  split
  · exact s.admits_self
  · split
    · exact s.admits_self
    · split
      · exact dispatch _ _
      · split
        · exact dispatch _ _
        · exact s.admits_self

/-- **A request at a route** is passed on to it. -/
theorem accept_eq_dispatch (s : Service ι σ) {r : HttpRequest} {route : Route}
    {version : Option String} (h : r.Asks route version) :
    s.accept r = s.dispatch route version r := by
  obtain ⟨segment, path, accepts, wellFormed⟩ := h
  unfold accept
  rw [path]
  simp only [accepts]
  cases segment with
  | none =>
    cases version with
    | none => rfl
    | some v => cases wellFormed
  | some segment =>
    cases version with
    | none => cases wellFormed
    | some v =>
      have decoded : decodeSegment? segment = some v := by simpa using wellFormed
      simp only [decoded]
      rfl

/-- **A request at the route of builds** is one to build an image. -/
theorem accept_eq_build (s : Service ι σ) {r : HttpRequest} {segment : Option Octets}
    {version : Option String}
    (route : Route.ofPath? r.uri.path = some (.build, segment)) (method : r.method = "POST")
    (wellFormed : segment.map decodeSegment? = version.map some) :
    s.accept r = s.build version r := by
  have accepts : Route.build.accepts r.method = true := by simp [Route.accepts, method]
  exact s.accept_eq_dispatch ⟨segment, route, accepts, wellFormed⟩

theorem accept_build (s : Service ι σ) {r : HttpRequest} {segment : Option Octets}
    {version : Option String} {b : DecodedBuild}
    (route : Route.ofPath? r.uri.path = some (.build, segment)) (method : r.method = "POST")
    (wellFormed : segment.map decodeSegment? = version.map some)
    (decodes : s.policy.decode ⟨version, r.uri, r.mediaTypes, r.body.isSome⟩ = .ok b) :
    (s.accept r).1 = .exchange s.next := by
  rw [s.accept_eq_build route method wellFormed]
  by_cases room : s.HasRoom
  · exact (s.build_eq room decodes).1
  · rw [build_of_not_hasRoom room]

end Requests

end Service

namespace Traffic

variable {ι σ : Type}

def results (t : Traffic ι σ) (number : Nat) : List (Except BuildError String) :=
  (t.returned.filter (·.1 = number)).map (·.2)

section Steps

variable [Engine ι σ]

def move (t : Traffic ι σ) (number : Nat) : Traffic ι σ :=
  match t.service.exchange? number with
  | none => t
  | some e =>
    { service := t.service.replace number (e.move t.service.workshop)
      returned := t.returned ++ (e.returns? t.service.workshop).toList.map (number, ·) }

def step (t : Traffic ι σ) : TrafficEvent σ → Traffic ι σ
  | .request r => { t with service := (t.service.accept r).2 }
  | .move number => t.move number
  | .deliver number =>
    { t with service := t.service.change number fun e => e.deliver?.getD e }
  | .feed number items => { t with service := t.service.change number (·.feed items) }
  | .complete number => { t with service := t.service.change number (·.endUpload) }
  | .tick milliseconds => { t with service.now := t.service.now + milliseconds }
  | .expire number =>
    match t.service.exchange? number with
    | none => t
    | some e =>
      { t with
        service := t.service.replace number (e.expire t.service.now t.service.workshop) }
  | .disconnect number =>
    match t.service.exchange? number with
    | none => t
    | some e =>
      { t with
        service.workshop := e.disconnect t.service.workshop
        service.exchanges := t.service.exchanges.filter (·.1 ≠ number) }
  | .alter w => { t with service := t.service.inWorkshop w }

def run (t : Traffic ι σ) (events : List (TrafficEvent σ)) : Traffic ι σ := events.foldl step t

theorem run_append (t : Traffic ι σ) (events events' : List (TrafficEvent σ)) :
    t.run (events ++ events') = (t.run events).run events' := List.foldl_append

theorem settings_step (t : Traffic ι σ) (e : TrafficEvent σ) :
    (t.step e).service.settings = t.service.settings := by
  cases e with
  | request r => exact (t.service.admits_accept r).settings
  | move number =>
    simp only [step, move]
    split <;> rfl
  | expire number | disconnect number =>
    simp only [step]
    split <;> rfl
  | deliver | feed | complete | tick | alter => rfl

/-- **Settings** stay what they are. -/
theorem settings_run (t : Traffic ι σ) (events : List (TrafficEvent σ)) :
    (t.run events).service.settings = t.service.settings := by
  induction events generalizing t with
  | nil => rfl
  | cons e events ih => exact (ih (t.step e)).trans (t.settings_step e)

end Steps

/-- **Sound traffic.** Every exchange is sound, and the numbers that come are
new. -/
structure Sound (t : Traffic ι σ) : Prop where
  exchanges : ∀ x ∈ t.service.exchanges, x.2.Sound (t.results x.1)
  numbers : (t.service.exchanges.map (·.1)).Nodup
  below : ∀ x ∈ t.service.exchanges, x.1 < t.service.next
  returned : ∀ x ∈ t.returned, x.1 < t.service.next

namespace Sound

variable {t : Traffic ι σ}

theorem change_return (h : t.Sound) {number : Nat} (f : Exchange ι → Exchange ι) (w : Workshop σ)
    (more : List (Except BuildError String)) (hnumber : more ≠ [] → number < t.service.next)
    (hf : ∀ e, (number, e) ∈ t.service.exchanges → e.Sound (t.results number) →
      (f e).Sound (t.results number ++ more)) :
    ({ service := (t.service.change number f).inWorkshop w
       returned := t.returned ++ more.map (number, ·) } : Traffic ι σ).Sound := by
  have own : ((t.returned ++ more.map (number, ·)).filter (·.1 = number)).map (·.2) =
      t.results number ++ more := by
    simp [results, List.filter_map, Function.comp_def]
  have other {n : Nat} (hn : n ≠ number) :
      ((t.returned ++ more.map (number, ·)).filter (·.1 = n)).map (·.2) = t.results n := by
    simp [results, List.filter_map, Function.comp_def, Ne.symm hn]
  constructor
  case exchanges =>
    intro x hx
    obtain ⟨⟨n, e⟩, he, rfl⟩ := List.mem_map.1 hx
    by_cases hn : n = number
    · subst hn
      simp only [if_true]
      show (f e).Sound (((t.returned ++ more.map (n, ·)).filter (·.1 = n)).map (·.2))
      rw [own]
      exact hf e he (h.exchanges _ he)
    · simp only [if_neg hn]
      show e.Sound (((t.returned ++ more.map (number, ·)).filter (·.1 = n)).map (·.2))
      rw [other hn]
      exact h.exchanges _ he
  case numbers =>
    show ((t.service.change number f).exchanges.map (·.1)).Nodup
    rw [t.service.numbers_change]
    exact h.numbers
  case below =>
    intro x hx
    obtain ⟨y, hy, rfl⟩ := List.mem_map.1 hx
    split
    · exact h.below y hy
    · exact h.below y hy
  case returned =>
    intro x hx
    rcases List.mem_append.1 hx with hx | hx
    · exact h.returned x hx
    · obtain ⟨r, hr, rfl⟩ := List.mem_map.1 hx
      exact hnumber (List.ne_nil_of_mem hr)

theorem change (h : t.Sound) {number : Nat} (f : Exchange ι → Exchange ι) (w : Workshop σ)
    (hf : ∀ e, (number, e) ∈ t.service.exchanges → e.Sound (t.results number) →
      (f e).Sound (t.results number)) :
    ({ t with service := (t.service.change number f).inWorkshop w } : Traffic ι σ).Sound := by
  have := h.change_return f w [] (by simp) (fun e he hs => by simpa using hf e he hs)
  simpa using this

variable [Engine ι σ]

/-- **A request** keeps traffic sound. -/
theorem request (h : t.Sound) (r : HttpRequest) : (t.step (.request r)).Sound := by
  -- nothing was returned yet under a number to come
  have hres : t.results t.service.next = [] := by
    have : t.returned.filter (·.1 = t.service.next) = [] := by
      refine List.filter_eq_nil_iff.2 fun x hx => ?_
      have := h.returned x hx
      simp only [decide_eq_true_eq]
      omega
    rw [results, this]
    rfl
  rcases (t.service.admits_accept r).exchanges with ⟨hex, hnext⟩ | ⟨e, he, hex, hnext⟩
  · constructor
    case exchanges => exact fun x hx => h.exchanges x (hex ▸ hx)
    case numbers =>
      show ((t.service.accept r).2.exchanges.map (·.1)).Nodup
      rw [hex]
      exact h.numbers
    case below => exact fun x hx => Nat.lt_of_lt_of_le (h.below x (hex ▸ hx)) hnext
    case returned => exact fun x hx => Nat.lt_of_lt_of_le (h.returned x hx) hnext
  · have old {n : Nat} (hn : n < t.service.next) : n < (t.service.accept r).2.next := by omega
    have mem {x : Nat × Exchange ι} (hx : x ∈ (t.service.accept r).2.exchanges) :
        x ∈ t.service.exchanges ∨ x = (t.service.next, e) := by
      rw [hex] at hx
      simpa using hx
    constructor
    case exchanges =>
      intro x hx
      rcases mem hx with hx | rfl
      · exact h.exchanges x hx
      · show e.Sound (t.results t.service.next)
        rw [hres]
        exact he
    case numbers =>
      show ((t.service.accept r).2.exchanges.map (·.1)).Nodup
      rw [hex, List.map_append, List.nodup_append']
      refine ⟨h.numbers, List.nodup_singleton _, ?_⟩
      intro n hn hn'
      obtain ⟨x, hx, rfl⟩ := List.mem_map.1 hn
      have := h.below x hx
      simp only [List.map_cons, List.map_nil, List.mem_singleton] at hn'
      omega
    case below =>
      intro x hx
      rcases mem hx with hx | rfl
      · exact old (h.below x hx)
      · show t.service.next < (t.service.accept r).2.next
        omega
    case returned => exact fun x hx => old (h.returned x hx)

/-- **An event** keeps traffic sound, if the builds of the engine write only
progress. -/
theorem step (acts : ∀ (j : ι) (d : Desk σ Channel), Desk.Acts IsProgress d (Engine.move j d).2)
    (h : t.Sound) (e : TrafficEvent σ) : (t.step e).Sound := by
  cases e with
  | request r => exact h.request r
  | move number =>
    show (t.move number).Sound
    unfold Traffic.move
    split
    · exact h
    · next e he =>
      have hmem := Service.mem_of_exchange? he
      exact h.change_return _ _ _ (fun _ => h.below _ hmem)
        fun _ _ _ => (h.exchanges _ hmem).move acts t.service.workshop
  | deliver number =>
    refine h.change (fun e => e.deliver?.getD e) t.service.workshop fun e _ hs => ?_
    cases hd : e.deliver? with
    | none => exact hs
    | some e' => exact hs.deliver hd
  | feed number items =>
    exact h.change (·.feed items) t.service.workshop fun e _ hs => hs.upload _
  | complete number =>
    exact h.change (·.endUpload) t.service.workshop fun e _ hs => hs.upload _
  | tick milliseconds => exact ⟨h.exchanges, h.numbers, h.below, h.returned⟩
  | expire number =>
    simp only [Traffic.step]
    split
    · exact h
    · next e he =>
      exact h.change _ _ fun _ _ _ =>
        (h.exchanges _ (Service.mem_of_exchange? he)).expire t.service.now t.service.workshop
  | disconnect number =>
    simp only [Traffic.step]
    split
    · exact h
    · constructor
      case exchanges => exact fun x hx => h.exchanges x (List.mem_of_mem_filter hx)
      case numbers => exact h.numbers.sublist ((List.filter_sublist ..).map _)
      case below => exact fun x hx => h.below x (List.mem_of_mem_filter hx)
      case returned => exact h.returned
  | alter w => exact ⟨h.exchanges, h.numbers, h.below, h.returned⟩

/-- **A run** keeps traffic sound. -/
theorem run (acts : ∀ (j : ι) (d : Desk σ Channel), Desk.Acts IsProgress d (Engine.move j d).2)
    (h : t.Sound) (events : List (TrafficEvent σ)) : (t.run events).Sound := by
  induction events generalizing t with
  | nil => exact h
  | cons e events ih => exact ih (h.step acts e)

end Sound

/-! ## What the service does by itself -/

section Settling

variable {s s' s'' : Service ι σ} {done rest : List (Nat × Exchange ι)} {number : Nat}

def between (s : Service ι σ) (done rest : List (Nat × Exchange ι)) (number : Nat)
    (x : Exchange ι × Workshop σ) : Service ι σ :=
  { s with workshop := x.2, exchanges := done ++ (number, x.1) :: rest }

theorem exchange?_between (h : number ∉ done.map (·.1)) (x : Exchange ι × Workshop σ) :
    (between s done rest number x).exchange? number = some x.1 := by
  refine List.lookup_eq_some_iff.2 ⟨done, rest, rfl, ?_⟩
  intro y hy
  have : number ≠ y.1 := fun hn => h (hn ▸ List.mem_map_of_mem hy)
  simpa using this

theorem change_between (h : number ∉ done.map (·.1)) (h' : number ∉ rest.map (·.1))
    (x : Exchange ι × Workshop σ) (f : Exchange ι → Exchange ι) :
    (between s done rest number x).change number f = between s done rest number (f x.1, x.2) := by
  have others (l : List (Nat × Exchange ι)) (hl : number ∉ l.map (·.1)) :
      l.map (fun y => if y.1 = number then (y.1, f y.2) else y) = l := by
    refine (List.map_congr_left fun y hy => ?_).trans (List.map_id l)
    have : y.1 ≠ number := fun hn => hl (hn ▸ List.mem_map_of_mem hy)
    rw [if_neg this]
    rfl
  simp [Service.change, between, others done h, others rest h']

theorem replace_between (h : number ∉ done.map (·.1)) (h' : number ∉ rest.map (·.1))
    (x x' : Exchange ι × Workshop σ) :
    (between s done rest number x).replace number x' = between s done rest number x' := by
  unfold Service.replace
  rw [change_between h h']
  rfl

variable [Engine ι σ]

/-- Whether events lead from one service to another one. -/
def Leads (s s' : Service ι σ) : Prop :=
  ∀ t : Traffic ι σ, t.service = s → ∃ events, (t.run events).service = s'

theorem Leads.refl (s : Service ι σ) : Leads s s := fun _ h => ⟨[], h⟩

theorem Leads.trans (h : Leads s s') (h' : Leads s' s'') : Leads s s'' := by
  intro t ht
  obtain ⟨events, he⟩ := h t ht
  obtain ⟨events', he'⟩ := h' (t.run events) he
  exact ⟨events ++ events', by rw [run_append, he']⟩

theorem Leads.event (e : TrafficEvent σ)
    (h : ∀ t : Traffic ι σ, t.service = s → (t.step e).service = s') : Leads s s' :=
  fun t ht => ⟨[e], h t ht⟩

theorem leads_step (h : number ∉ done.map (·.1)) (h' : number ∉ rest.map (·.1))
    {x x' : Exchange ι × Workshop σ} (hstep : x.1.step? x.2 = some x') :
    Leads (between s done rest number x) (between s done rest number x') := by
  obtain ⟨e', w'⟩ := x'
  rcases Exchange.step?_cases hstep with hmove | ⟨hdeliver, rfl⟩
  · refine .event (.move number) fun t ht => ?_
    show (t.move number).service = _
    unfold move
    rw [ht, exchange?_between h]
    show (between s done rest number x).replace number (x.1.move x.2) = _
    rw [replace_between h h', hmove]
  · refine .event (.deliver number) fun t ht => ?_
    show t.service.change number (fun e => e.deliver?.getD e) = _
    rw [ht, change_between h h', hdeliver]
    rfl

theorem leads_settle (h : number ∉ done.map (·.1)) (h' : number ∉ rest.map (·.1))
    (e : Exchange ι) (w : Workshop σ) :
    Leads (between s done rest number (e, w)) (between s done rest number (e.settle w)) := by
  induction e, w using Exchange.settle.induct with
  | case1 e w hnone =>
    rw [Exchange.settle_none hnone]
    exact .refl _
  | case2 e w e' w' hsome ih =>
    rw [Exchange.settle_some hsome]
    exact (leads_step h h' hsome).trans ih

theorem leads_expire (h : number ∉ done.map (·.1)) (h' : number ∉ rest.map (·.1))
    (e : Exchange ι) (w : Workshop σ) :
    Leads (between s done rest number (e, w)) (between s done rest number (e.expire s.now w)) := by
  refine .event (.expire number) fun t ht => ?_
  simp only [step]
  rw [ht, exchange?_between h]
  exact replace_between h h' (e, w) (e.expire s.now w)

/-- What settling does with the next exchange, after those that are done. -/
def settleNext (now : Nat) (done : Workshop σ × List (Nat × Exchange ι)) (x : Nat × Exchange ι) :
    Workshop σ × List (Nat × Exchange ι) :=
  let expired := x.2.expire now done.1
  let settled := expired.1.settle expired.2
  (settled.2, done.2 ++ [(x.1, settled.1)])

theorem settle_eq (s : Service ι σ) :
    s.settle =
      let settled := s.exchanges.foldl (settleNext s.now) (s.workshop, [])
      { s with workshop := settled.1, exchanges := settled.2 } := rfl

/-- **To settle** is to let things happen, exchange by exchange. -/
theorem leads_service_settle (h : (s.exchanges.map (·.1)).Nodup) : Leads s s.settle := by
  -- by induction on the exchanges that have not been settled, after those that have
  have each (w : Workshop σ) (done rest : List (Nat × Exchange ι))
      (hn : ((done ++ rest).map (·.1)).Nodup) :
      let settled := rest.foldl (settleNext s.now) (w, done)
      Leads { s with workshop := w, exchanges := done ++ rest }
        { s with workshop := settled.1, exchanges := settled.2 } := by
    induction rest generalizing w done with
    | nil =>
      rw [List.append_nil]
      exact .refl _
    | cons x rest ih =>
      obtain ⟨number, e⟩ := x
      let expired := e.expire s.now w
      let settled := expired.1.settle expired.2
      have keys : ((done ++ [(number, settled.1)] ++ rest).map (·.1)) =
          (done ++ (number, e) :: rest).map (·.1) := by simp
      obtain ⟨hdone, hrest⟩ : number ∉ done.map (·.1) ∧ number ∉ rest.map (·.1) := by
        rw [List.map_append, List.map_cons, List.nodup_middle, List.nodup_cons, List.mem_append,
          not_or] at hn
        exact hn.1
      have here : Leads (between s done rest number (e, w)) (between s done rest number settled) :=
        (leads_expire hdone hrest e w).trans (leads_settle hdone hrest expired.1 expired.2)
      have others := ih settled.2 (done ++ [(number, settled.1)]) (keys ▸ hn)
      rw [List.append_assoc, List.singleton_append] at others
      exact here.trans others
  rw [settle_eq]
  exact each s.workshop [] s.exchanges h

theorem numbers_settle (s : Service ι σ) :
    s.settle.exchanges.map (·.1) = s.exchanges.map (·.1) := by
  have each (w : Workshop σ) (done rest : List (Nat × Exchange ι)) :
      (rest.foldl (settleNext s.now) (w, done)).2.map (·.1) = (done ++ rest).map (·.1) := by
    induction rest generalizing w done with
    | nil => simp
    | cons x rest ih =>
      have next := ih (settleNext s.now (w, done) x).1 (settleNext s.now (w, done) x).2
      rw [List.foldl_cons, next]
      simp [settleNext]
  rw [settle_eq]
  exact each s.workshop [] s.exchanges

/-- **Time that passes** is a run. -/
theorem leads_advance (h : (s.exchanges.map (·.1)).Nodup) (milliseconds : Nat) :
    Leads s (s.advance milliseconds) := by
  have ticked : Leads s { s with now := s.now + milliseconds } :=
    .event (.tick milliseconds) fun t ht => by rw [← ht]; rfl
  exact ticked.trans (leads_service_settle h)

/-- **Waiting for an exchange** is a run. -/
theorem leads_await (h : (s.exchanges.map (·.1)).Nodup) (number : Nat) :
    Leads s (s.await number) := by
  have settled := leads_service_settle h
  unfold Service.await
  dsimp only
  split
  · exact settled
  · split
    · next _ t _ _ =>
      have later : s.settle.now + (max s.settle.now t - s.settle.now) = max s.settle.now t := by
        omega
      have advanced := leads_advance (s := s.settle) (by rwa [numbers_settle])
        (max s.settle.now t - s.settle.now)
      unfold Service.advance at advanced
      rw [later] at advanced
      exact settled.trans advanced
    · exact settled

/-- **More of an upload** and **its end** are runs. -/
theorem leads_feed (h : (s.exchanges.map (·.1)).Nodup) (items : List Upload.Item) :
    Leads s (s.feed number items) := by
  have fed : Leads s (s.change number (·.feed items)) :=
    .event (.feed number items) fun t ht => by rw [← ht]; rfl
  exact fed.trans (leads_service_settle (by rwa [s.numbers_change]))

theorem leads_endUpload (h : (s.exchanges.map (·.1)).Nodup) (items : List Upload.Item) :
    Leads s (s.endUpload number items) := by
  have fed : Leads s (s.change number (·.feed items)) :=
    .event (.feed number items) fun t ht => by rw [← ht]; rfl
  have completed : Leads (s.change number (·.feed items))
      ((s.change number (·.feed items)).change number (·.endUpload)) :=
    .event (.complete number) fun t ht => by rw [← ht]; rfl
  -- feeding and ending in one change or in two makes no difference
  have once : (s.change number (·.feed items)).change number (·.endUpload) =
      s.change number fun e => (e.feed items).endUpload := by
    simp only [Service.change, List.map_map]
    congr 1
    refine List.map_congr_left fun x _ => ?_
    show (if (if x.1 = number then _ else x).1 = number then _ else _) = _
    split <;> simp_all
  rw [once] at completed
  exact (fed.trans completed).trans (leads_service_settle (by rwa [s.numbers_change]))

/-- **A client that goes away** is a run. -/
theorem leads_disconnect (h : (s.exchanges.map (·.1)).Nodup) (number : Nat) :
    Leads s (s.disconnect number) := by
  unfold Service.disconnect
  split
  · exact .refl s
  · next e he =>
    refine Leads.trans (.event (.disconnect number) fun t ht => ?_) (leads_service_settle ?_)
    · simp only [step, ht, he]
    · exact h.sublist ((List.filter_sublist ..).map _)

end Settling

/-! ## The end of a response -/

section ContextEngine

open ContextEngine

/-- **The last message.** Whatever happens before and after it, a request to build
that decodes is answered in an exchange of its own. When the client finds the
end of the response, its status was 200, the build has returned once, and the
frames that were delivered hold messages that tell progress and one more, which
came last and tells what was returned. -/
theorem response_ends (settings : Settings) (w : Workshop Store)
    (before after : List (TrafficEvent Store)) (r : HttpRequest) {segment : Option Octets}
    {version : Option String} {b : DecodedBuild} :
    let t := Traffic.run (ι := Job) { service := { settings, workshop := w } } before
    let t' := (t.step (.request r)).run after
    Route.ofPath? r.uri.path = some (.build, segment) → r.method = "POST" →
    segment.map decodeSegment? = version.map some →
    t.service.policy.decode ⟨version, r.uri, r.mediaTypes, r.body.isSome⟩ = .ok b →
    (t.service.accept r).1 = .exchange t.service.next ∧
    ∀ e, t'.service.exchange? t.service.next = some e → e.channel.receive.1 = .ended →
      e.head?.map (·.status) = some 200 ∧
      ∃ result, t'.results t.service.next = [result] ∧
        ∃ ms last, ofFrames? e.delivered.toList.flatten = .ok (ms ++ [last]) ∧
          (∀ m ∈ ms, m.kind = .progress) ∧
          last.kind = match result with
            | .ok image => .success image
            | .error e => .error e.message := by
  intro t t' route method wellFormed decodes
  refine ⟨t.service.accept_build route method wellFormed decodes, ?_⟩
  intro e he hend
  -- what happened before, the request and what happened after it are one run
  have initial : ({ service := { settings, workshop := w } } : Traffic Job Store).Sound :=
    ⟨by simp, by simp, by simp, by simp⟩
  have sound : t'.Sound := ((initial.run acts_move before).step acts_move _).run acts_move after
  have hs : e.Sound (t'.results t.service.next) :=
    sound.exchanges _ (Service.mem_of_exchange? he)
  obtain ⟨hhead, -⟩ := hs.ended hend
  obtain ⟨result, ms, hres, hread, hms⟩ := hs.ofFrames?_delivered hend
  refine ⟨by rw [hhead]; rfl, result, hres, ms, ofResult result, hread, hms, ?_⟩
  cases result with
  | ok image => exact kind_imageId image
  | error e => exact kind_failure e.message

/-- A build without an upload fails, which the client finds at the end of the
response. -/
theorem response_ends_missing :
    let r : HttpRequest := { uri := ⟨[0x2F, 0x62, 0x75, 0x69, 0x6C, 0x64], none⟩ }
    let t : Traffic Job Store := { service := { workshop := ⟨{}, {}⟩ } }
    let t' := (t.step (.request r)).run [.move 0, .move 0, .tick 1, .move 0, .deliver 0]
    ∃ e, t'.service.exchange? 0 = some e ∧ e.channel.receive.1 = .ended ∧
      e.head?.map (·.status) = some 200 ∧
      ∃ result, t'.results 0 = [result] ∧
        ∃ ms last, ofFrames? e.delivered.toList.flatten = .ok (ms ++ [last]) ∧
          (∀ m ∈ ms, m.kind = .progress) ∧
          last.kind = match result with
            | .ok image => .success image
            | .error e => .error e.message := by
  intro r t t'
  have ended : ∃ e, t'.service.exchange? 0 = some e ∧ e.channel.receive.1 = .ended :=
    ⟨_, rfl, rfl⟩
  obtain ⟨e, he, hend⟩ := ended
  have decodes : t.service.policy.decode ⟨none, r.uri, [], false⟩ = .ok ⟨.newest, {}⟩ := rfl
  have wellFormed : (none : Option Octets).map decodeSegment? = (none : Option String).map some :=
    rfl
  have := (response_ends {} ⟨{}, {}⟩ [] [.move 0, .move 0, .tick 1, .move 0, .deliver 0] r
    (by decide) rfl wellFormed decodes).2 e he hend
  exact ⟨e, he, hend, this⟩

end ContextEngine

end Traffic
end ImageBuild
