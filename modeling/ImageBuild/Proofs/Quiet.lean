import ImageBuild.Proofs.Oblivious
import ImageBuild.Proofs.Returning
import ImageBuild.Proofs.View

/-!
# Quiet builds

Two requests ask for the same build, one of them quietly: their queries differ in `q` only
(`Policy.decode_asking`). An engine that does not look whether a build is quiet
(`Engine.QuietBlind`) makes the same moves for both, as long as the client takes what it
is sent, whatever else happens meanwhile. What the loud build has sent by then, the quiet one
has kept (`Twins`). So when they fail the clients get the same octets, and when they
succeed the quiet one gets its identifier and nothing else (`quiet_loses_nothing`).
-/

namespace ImageBuild

/-! ## Requests -/

namespace Query

def rest (q : Query) : List (String × String) := q.pairs.filter (·.1 != "q")

variable {q q' : Query} {name : String}

theorem values_congr (same : q'.rest = q.rest) (hn : name ≠ "q") :
    q'.values name = q.values name := by
  have values (q : Query) : q.values name = (q.rest.filter (·.1 == name)).map (·.2) := by
    unfold values rest
    rw [List.filter_filter]
    congr 2
    funext p
    by_cases same : p.1 = name
    · simp [same, hn]
    · simp [same]
  rw [values, values, same]

/-- **Queries that differ in `q` only** ask for the same options otherwise. -/
theorem buildOptions_congr (same : q'.rest = q.rest) (v : Version) :
    q'.buildOptions v = (fun o => { o with quiet := q'.flag "q" }) <$> q.buildOptions v := by
  apply buildOptions_quiet
  intro name known
  have hn : name ≠ "q" := by simpa using (List.mem_filter.1 known).2
  exact view_congr (values_congr same hn)

end Query

def DecodedBuild.asking (b : DecodedBuild) (quiet : Bool) : DecodedBuild :=
  { b with options := { b.options with quiet } }

/-- Whether two requests ask for the same, but for being quiet. -/
structure BuildRequest.IsLike (r r' : BuildRequest) : Prop where
  segment : r.segment = r'.segment
  rest : (Query.ofUri r.uri).rest = (Query.ofUri r'.uri).rest
  mediaTypes : r.mediaTypes = r'.mediaTypes
  hasBody : r.hasBody = r'.hasBody

/-- **Such requests** decode to the same build, but for being quiet. -/
theorem Policy.decode_asking (p : Policy) {r r' : BuildRequest} (like : r'.IsLike r) :
    p.decode r' = (·.asking ((Query.ofUri r'.uri).flag "q")) <$> p.decode r := by
  unfold Policy.decode
  rw [like.segment, like.mediaTypes, like.hasBody]
  simp only [Query.buildOptions_congr like.rest, map_bind, bind_map_left]
  refine bind_congr fun version => ?_
  split
  · split <;> simp only [map_bind, map_pure] <;> rfl
  · simp only [map_bind, map_pure]
    rfl

/-! ## Engines -/

/-- Whether a move depends on what a veil leaves of the build and on a glimpse of the desk. -/
def Engine.Veiled {ι κ σ : Type} [Engine ι σ] (veil : ι → κ) : Prop :=
  ∀ (k : κ) (g : Glimpse σ), ∃ c : Course κ σ (Except BuildError String),
    ∀ j : ι, veil j = k → ∀ {τ : Type} [Sink τ] (d : Desk σ τ), d.glimpse = g →
      d.Takes c ((Engine.move j d).1.map veil, (Engine.move j d).2)

/-- **An engine that does not look whether a build is quiet,** neither at its desk nor in its
options: a veil can hide what it was asked about that, and no move depends on it. -/
def Engine.QuietBlind (ι : Type) {σ : Type} [Engine ι σ] : Prop :=
  ∃ (κ : Type) (veil : ι → κ),
    (∀ (x : Context) (o : BuildOptions) (quiet : Bool),
      veil (Engine.start x { o with quiet }) = veil (Engine.start x o)) ∧
    Engine.Veiled veil

namespace ContextEngine

variable {τ : Type} [Sink τ]

/-- A build without what it was asked about being quiet. -/
def Job.veil : Job → Job
  | .arriving x o => .arriving x { o with quiet := false }
  | .running token o p => .running token { o with quiet := false } p

theorem Phase.move_quiet (token : Token) (o : BuildOptions) (quiet : Bool) (p : Phase)
    (d : Desk Store τ) : p.move token { o with quiet } d = p.move token o d := by
  cases p <;> rfl

theorem Job.move_veil (j : Job) (d : Desk Store τ) :
    ((j.veil.move d).1.map veil, (j.veil.move d).2) = ((j.move d).1.map veil, (j.move d).2) := by
  cases j with
  | arriving x o =>
    simp only [Job.veil, Job.move, arrive_eq]
    split <;> rfl
  | running token o p =>
    simp only [Job.veil, move_running, Phase.move_quiet]
    cases (p.move token o d).1 <;> rfl

/-- **The context engine** does not look whether a build is quiet. -/
theorem quietBlind : Engine.QuietBlind Job := by
  refine ⟨Job, Job.veil, fun _ _ _ => rfl, ?_⟩
  intro k g
  obtain ⟨c, takes⟩ := blind k g
  refine ⟨c.map Job.veil, ?_⟩
  rintro j rfl τ _ d hd
  have moved := (takes d hd).map Job.veil
  rw [Job.move_veil] at moved
  exact moved

end ContextEngine

/-! ## Sessions and what happens meanwhile -/

/-- Something that happens while a request is served. -/
inductive Happening (σ : Type) where
  | move
  /-- another build moves, a token is cancelled, records are removed -/
  | change (f : Workshop σ → Workshop σ)
  | feed (items : List Upload.Item)
  | complete

/-- A session with its desk. -/
structure Sitting (ι σ τ : Type) where
  stage : Session.Rest ι
  desk : Desk σ τ
  /-- how the build has ended -/
  result : Option (Except BuildError String) := none

section Sittings

variable {ι σ τ : Type} [Engine ι σ] [Sink τ]

def Session.result? : Session ι → Desk σ τ → Option (Except BuildError String)
  | .building job, d =>
    match (Engine.move job d).1 with
    | .stop result => some result
    | _ => none
  | .closing _, _ => none

namespace Sitting

def start (x : Context) (b : DecodedBuild) (d : Desk σ τ) : Sitting ι σ τ :=
  let (s, desk) := Session.start x b d
  { stage := .waiting s, desk }

def move (y : Sitting ι σ τ) : Sitting ι σ τ :=
  match y.stage with
  | .done _ => y
  | .waiting s =>
    let (m, desk) := s.move y.desk
    { stage := match m with
        | .go s' => .waiting s'
        | .wait => .waiting s
        | .stop outcome => .done outcome
      desk
      result := s.result? y.desk <|> y.result }

def step (y : Sitting ι σ τ) : Happening σ → Sitting ι σ τ
  | .move => y.move
  | .change f => { y with desk := y.desk.inWorkshop (f y.desk.toWorkshop) }
  | .feed items => { y with desk := { y.desk with source := y.desk.source.map (·.feed items) } }
  | .complete => { y with desk := { y.desk with source := y.desk.source.map (·.close) } }

def run (y : Sitting ι σ τ) (happenings : List (Happening σ)) : Sitting ι σ τ :=
  happenings.foldl step y

def finish (y : Sitting ι σ τ) : Session.Rest ι × Desk σ τ :=
  match y.stage with
  | .waiting s => s.run y.desk
  | .done outcome => (.done outcome, y.desk)

end Sitting
end Sittings

/-! ## Writers -/

/-- Frames with one more, unless it is empty. -/
def withFrame (frames : List Frame) (f : Frame) : List Frame :=
  if f.isEmpty then frames else frames ++ [f]

variable {ι σ τ : Type} [Sink τ]

namespace Writer

/-- These frames were sent, and any other one will be. -/
structure Sends (w : Writer (Noted τ)) (frames : List Frame) : Prop where
  direct : w.kept = none
  taken : w.sink.notes.taken = frames
  obliging : Obliging w.sink.sink

/-- These frames were kept, and none was sent. -/
structure Keeps (w : Writer (Noted τ)) (frames : List Frame) : Prop where
  kept : w.kept = some frames.toArray
  silent : w.sink.notes.taken = []
  obliging : Obliging w.sink.sink

variable {w : Writer (Noted τ)} {frames : List Frame}

theorem Sends.write (h : w.Sends frames) (f : Frame) :
    (w.write f).1 = .accepted ∧ (w.write f).2.Sends (withFrame frames f) := by
  unfold Writer.write withFrame
  cases hf : f.isEmpty with
  | true => exact ⟨rfl, h⟩
  | false =>
    obtain ⟨sent, after⟩ := h.obliging.send f
    have answer : (Sink.send w.sink f).1 = .accepted := sent
    simp only [Bool.false_eq_true, if_false, h.direct]
    refine ⟨answer, rfl, ?_, after⟩
    show (w.sink.notes.add f (Sink.send w.sink.sink f).1).taken = frames ++ [f]
    rw [sent, ← h.taken]
    rfl

theorem Keeps.write (h : w.Keeps frames) (f : Frame) :
    (w.write f).1 = .accepted ∧ (w.write f).2.Keeps (withFrame frames f) := by
  unfold Writer.write withFrame
  cases hf : f.isEmpty with
  | true => exact ⟨rfl, h⟩
  | false =>
    simp only [Bool.false_eq_true, if_false, h.kept]
    refine ⟨trivial, ?_, h.silent, h.obliging⟩
    simp

theorem Sends.uploadDone (h : w.Sends frames) :
    Sends { w with sink := Sink.uploadDone w.sink } frames :=
  ⟨h.direct, h.taken, h.obliging.uploadDone⟩

theorem Keeps.uploadDone (h : w.Keeps frames) :
    Keeps { w with sink := Sink.uploadDone w.sink } frames :=
  ⟨h.kept, h.silent, h.obliging.uploadDone⟩

end Writer

/-! ## Two desks -/

/-- **The same desk twice:** what was sent from the one was kept at the other. -/
structure Desk.Twin (frames : List Frame) (loud quiet : Desk σ (Noted τ)) : Prop where
  workshop : quiet.toWorkshop = loud.toWorkshop
  source : quiet.source = loud.source
  sends : loud.writer.Sends frames
  keeps : quiet.writer.Keeps frames

namespace Desk.Twin

variable {frames : List Frame} {loud quiet : Desk σ (Noted τ)}

theorem glimpse (h : Twin frames loud quiet) : quiet.glimpse = loud.glimpse := by
  unfold Desk.glimpse
  rw [h.workshop, h.source]

theorem inWorkshop (h : Twin frames loud quiet) (w : Workshop σ) :
    Twin frames (loud.inWorkshop w) (quiet.inWorkshop w) := ⟨rfl, h.source, h.sends, h.keeps⟩

theorem uploadDone (h : Twin frames loud quiet) :
    Twin frames loud.uploadDone quiet.uploadDone :=
  ⟨h.workshop, h.source, h.sends.uploadDone, h.keeps.uploadDone⟩

theorem withSource (h : Twin frames loud quiet) (source : Option Source) :
    Twin frames { loud with source } { quiet with source } := ⟨h.workshop, rfl, h.sends, h.keeps⟩

theorem take (h : Twin frames loud quiet) (s : Source) :
    Twin frames (loud.take s).2 (quiet.take s).2 := by
  have taken := h.withSource (some s.next.2)
  unfold Desk.take
  by_cases ended : s.next.1 = .ended
  · simp only [if_pos ended]
    exact taken.uploadDone
  · simp only [if_neg ended]
    exact taken

theorem dropSource (h : Twin frames loud quiet) :
    Twin frames loud.dropSource quiet.dropSource := by
  unfold Desk.dropSource
  rw [h.source]
  cases loud.source with
  | none => exact h
  | some s => exact (h.withSource none).uploadDone

/-- **A deed** has the same answer at both desks. -/
theorem perform (h : Twin frames loud quiet) (deed : Deed) :
    (quiet.perform deed).1 = (loud.perform deed).1 ∧
      ∃ frames', Twin frames' (loud.perform deed).2 (quiet.perform deed).2 := by
  cases deed with
  | nothing => exact ⟨rfl, frames, h⟩
  | write f =>
    obtain ⟨sent, sends⟩ := h.sends.write f
    obtain ⟨kept, keeps⟩ := h.keeps.write f
    exact ⟨congrArg Answer.sent (kept.trans sent.symm), _, h.workshop, h.source, sends, keeps⟩
  | take =>
    simp only [Desk.perform, h.source]
    cases loud.source with
    | none => exact ⟨rfl, frames, h⟩
    | some s => exact ⟨rfl, frames, h.take s⟩
  | putAway => exact ⟨rfl, frames, h.dropSource⟩

/-- **A course** is the same at both desks. -/
theorem takes {κ : Type} (h : Twin frames loud quiet) {c : Course κ σ (Except BuildError String)}
    {m m' : Move κ (Except BuildError String)} {d d' : Desk σ (Noted τ)}
    (taken : loud.Takes c (m, d)) (taken' : quiet.Takes c (m', d')) :
    m' = m ∧ ∃ frames', Twin frames' d d' := by
  obtain ⟨answer, frames', after⟩ := h.perform c.deed
  unfold Desk.Takes at taken taken'
  rw [answer] at taken'
  split at taken
  · next outstanding =>
    rw [if_pos outstanding] at taken'
    cases taken
    cases taken'
    refine ⟨rfl, ?_⟩
    split
    · exact ⟨frames', after⟩
    · exact ⟨frames, h⟩
  · next answered =>
    rw [if_neg answered] at taken'
    cases taken
    cases taken'
    exact ⟨rfl, frames', after.inWorkshop _⟩

end Desk.Twin

/-! ## Two sessions -/

/-- **What was kept** goes first when a build fails. -/
theorem Session.flatten_lastFrames (frames : List Frame) (e : BuildError) :
    (lastFrames (some frames.toArray) (.error e)).flatten =
      (frames ++ lastFrames none (.error e)).flatten := by
  show ((if frames.flatten = [] then [] else [frames.flatten]) ++ [_]).flatten =
    (frames ++ ((if ([] : Frame) = [] then [] else [[]]) ++ [_])).flatten
  by_cases nothing : frames.flatten = []
  · simp [nothing]
  · simp [nothing]

namespace Sitting

def sent (y : Sitting ι σ (Noted τ)) : List Frame := y.desk.writer.sink.notes.taken

/-- A build has ended, and after what was sent these frames are left to be sent. -/
structure Ends (y : Sitting ι σ (Noted τ)) (result : Except BuildError String)
    (frames : List Frame) : Prop where
  result : y.result = some result
  stage : (∃ left sent, y.stage = .waiting (.closing left) ∧ y.desk.writer.Sends sent ∧
      frames = sent ++ left ∧ ∀ f ∈ left, f ≠ []) ∨
    (y.stage = .done (.ok ()) ∧ y.sent = frames)

/-- **The same request twice,** the second time quietly: the builds are as far, or they have
ended in the same way. -/
inductive Twins {κ : Type} (veil : ι → κ) (loud quiet : Sitting ι σ (Noted τ)) : Prop where
  | building {j j' : ι} {frames : List Frame} (stage : loud.stage = .waiting (.building j))
      (stage' : quiet.stage = .waiting (.building j')) (same : veil j' = veil j)
      (desks : Desk.Twin frames loud.desk quiet.desk) (result : loud.result = none)
      (result' : quiet.result = none)
  | ended {result : Except BuildError String} {frames : List Frame}
      (ends : loud.Ends result (frames ++ Session.lastFrames none result))
      (ends' : quiet.Ends result (Session.lastFrames (some frames.toArray) result))

theorem Twins.close {κ : Type} {veil : ι → κ} {frames : List Frame} {d d' : Desk σ (Noted τ)}
    (desks : Desk.Twin frames d d') (result : Except BuildError String) :
    Twins veil
      { stage := .waiting (Session.close (ι := ι) d result).1
        desk := (Session.close (ι := ι) d result).2, result := some result }
      { stage := .waiting (Session.close (ι := ι) d' result).1
        desk := (Session.close (ι := ι) d' result).2, result := some result } := by
  have dropped := desks.dropSource
  apply Twins.ended
  · refine ⟨rfl, .inl ⟨_, frames, rfl, ⟨rfl, dropped.sends.taken, dropped.sends.obliging⟩, ?_, ?_⟩⟩
    · rw [desks.sends.direct]
    · intro f
      exact Session.ne_nil_of_mem_lastFrames
  · refine ⟨rfl, .inl ⟨_, [], rfl, ⟨rfl, dropped.keeps.silent, dropped.keeps.obliging⟩, ?_, ?_⟩⟩
    · rw [desks.keeps.kept]
      rfl
    · intro f
      exact Session.ne_nil_of_mem_lastFrames

/-- **What happens meanwhile** happens to both. -/
theorem Twins.outside {κ : Type} {veil : ι → κ} {loud quiet : Sitting ι σ (Noted τ)}
    (h : Twins veil loud quiet) {f : Desk σ (Noted τ) → Desk σ (Noted τ)}
    (writer : ∀ d, (f d).writer = d.writer)
    (twin : ∀ frames d d', Desk.Twin frames d d' → Desk.Twin frames (f d) (f d')) :
    Twins veil { loud with desk := f loud.desk } { quiet with desk := f quiet.desk } := by
  have ends {y : Sitting ι σ (Noted τ)} {result : Except BuildError String} {frames : List Frame}
      (h : y.Ends result frames) : Ends { y with desk := f y.desk } result frames := by
    refine ⟨h.result, ?_⟩
    unfold sent
    rw [writer]
    exact h.stage
  cases h with
  | ended before before' => exact .ended (ends before) (ends before')
  | building stage stage' same desks result result' =>
    exact .building stage stage' same (twin _ _ _ desks) result result'

variable [Engine ι σ]

namespace Ends

variable {y : Sitting ι σ (Noted τ)} {result : Except BuildError String} {frames : List Frame}

theorem closing_cons (left : List Frame) {sent : List Frame} {f : Frame} {d : Desk σ (Noted τ)}
    (hf : f ≠ []) (sends : d.writer.Sends sent) :
    ∃ d', (Session.closing (f :: left) : Session ι).move d = (.go (.closing left), d') ∧
      d'.writer.Sends (sent ++ [f]) := by
  have full : f.isEmpty = false := by simpa using hf
  obtain ⟨accepted, after⟩ := sends.write f
  rw [withFrame, full, if_neg Bool.false_ne_true] at after
  refine ⟨{ d with writer := (d.writer.write f).2 }, ?_, after⟩
  have written : d.write f = (.accepted, { d with writer := (d.writer.write f).2 }) :=
    Prod.ext accepted rfl
  simp only [Session.move, written]

theorem move (h : y.Ends result frames) : y.move.Ends result frames := by
  obtain ⟨ended, ⟨left, sent, stage, sends, all, full⟩ | ⟨stage, all⟩⟩ := h
  · cases left with
    | nil =>
      have moved : y.move = { y with stage := .done (.ok ()) } := by
        unfold Sitting.move
        rw [stage]
        rfl
      rw [moved]
      refine ⟨ended, .inr ⟨rfl, ?_⟩⟩
      rw [all, List.append_nil]
      exact sends.taken
    | cons f left =>
      obtain ⟨d', go, sends'⟩ := closing_cons (ι := ι) left (full f List.mem_cons_self) sends
      have moved : y.move = { y with stage := .waiting (.closing left), desk := d' } := by
        unfold Sitting.move
        rw [stage]
        simp only [go]
        rfl
      rw [moved]
      refine ⟨ended, .inl ⟨left, sent ++ [f], rfl, sends', ?_, ?_⟩⟩
      · rw [all, List.append_assoc]
        rfl
      · intro g hg
        exact full g (List.mem_cons_of_mem _ hg)
  · have moved : y.move = y := by
      unfold Sitting.move
      rw [stage]
    rw [moved]
    exact ⟨ended, .inr ⟨stage, all⟩⟩

theorem run_closing {left sent : List Frame} (full : ∀ f ∈ left, f ≠ []) {d : Desk σ (Noted τ)}
    (sends : d.writer.Sends sent) :
    ∃ d', (Session.closing left : Session ι).run d = (.done (.ok ()), d') ∧
      d'.writer.sink.notes.taken = sent ++ left := by
  induction left generalizing sent d with
  | nil =>
    have stop : (Session.closing [] : Session ι).move d = (.stop (.ok ()), d) := rfl
    refine ⟨d, Session.run_stop stop, ?_⟩
    rw [List.append_nil]
    exact sends.taken
  | cons f left ih =>
    obtain ⟨d', go, sends'⟩ := closing_cons (ι := ι) left (full f List.mem_cons_self) sends
    obtain ⟨d'', run, taken⟩ := ih (fun g hg => full g (List.mem_cons_of_mem _ hg)) sends'
    refine ⟨d'', (Session.run_go go).trans run, ?_⟩
    rw [taken, List.append_assoc]
    rfl

/-- **What is left** is sent in the end. -/
theorem finish (h : y.Ends result frames) :
    ∃ d, y.finish = (.done (.ok ()), d) ∧ d.writer.sink.notes.taken = frames := by
  obtain ⟨-, ⟨left, sent, stage, sends, all, full⟩ | ⟨stage, all⟩⟩ := h
  · unfold Sitting.finish
    rw [stage, all]
    exact run_closing full sends
  · unfold Sitting.finish
    rw [stage]
    exact ⟨y.desk, rfl, all⟩

end Ends

/-- **A move** of both builds. -/
theorem Twins.move {κ : Type} {veil : ι → κ}
    (veiled : Engine.Veiled veil) {loud quiet : Sitting ι σ (Noted τ)} (h : Twins veil loud quiet) :
    Twins veil loud.move quiet.move := by
  cases h with
  | ended ends ends' => exact .ended ends.move ends'.move
  | @building j j' frames stage stage' same desks result result' =>
    obtain ⟨c, takes⟩ := veiled (veil j) loud.desk.glimpse
    obtain ⟨moves, frames', after⟩ :=
      desks.takes (takes j rfl loud.desk rfl) (takes j' same quiet.desk desks.glimpse)
    unfold Sitting.move
    rw [stage, stage']
    simp only [Session.move, Session.result?, result, result']
    rcases hm : Engine.move j loud.desk with ⟨m, d⟩
    rcases hm' : Engine.move j' quiet.desk with ⟨m', d'⟩
    rw [hm, hm'] at moves after
    cases m with
    | go next =>
      cases m' with
      | go next' => exact .building rfl rfl (Move.go.inj moves) after rfl rfl
      | wait | stop => cases moves
    | wait =>
      cases m' with
      | wait => exact .building rfl rfl same after rfl rfl
      | go | stop => cases moves
    | stop result =>
      cases m' with
      | stop result' =>
        cases moves
        exact Twins.close after result
      | go | wait => cases moves

theorem Twins.step {κ : Type} {veil : ι → κ} (veiled : Engine.Veiled veil)
    {loud quiet : Sitting ι σ (Noted τ)} (h : Twins veil loud quiet) (e : Happening σ) :
    Twins veil (loud.step e) (quiet.step e) := by
  have source (f : Source → Source) (frames : List Frame) (d d' : Desk σ (Noted τ))
      (desks : Desk.Twin frames d d') : Desk.Twin frames { d with source := d.source.map f }
        { d' with source := d'.source.map f } := by
    rw [desks.source]
    exact desks.withSource _
  cases e with
  | move => exact h.move veiled
  | change f =>
    apply h.outside (f := fun d => d.inWorkshop (f d.toWorkshop)) (fun _ => rfl)
    intro frames d d' desks
    rw [desks.workshop]
    exact desks.inWorkshop _
  | feed items =>
    exact h.outside (f := fun d => { d with source := d.source.map (·.feed items) })
      (fun _ => rfl) (source _)
  | complete =>
    exact h.outside (f := fun d => { d with source := d.source.map (·.close) })
      (fun _ => rfl) (source _)

theorem Twins.run {κ : Type} {veil : ι → κ} (veiled : Engine.Veiled veil)
    {loud quiet : Sitting ι σ (Noted τ)} (h : Twins veil loud quiet)
    (happenings : List (Happening σ)) :
    Twins veil (loud.run happenings) (quiet.run happenings) := by
  induction happenings generalizing loud quiet with
  | nil => exact h
  | cons e rest ih => exact ih (h.step veiled e)

/-- **The requests begin** as twins. -/
theorem Twins.start {κ : Type} {veil : ι → κ}
    (starts : ∀ (x : Context) (o : BuildOptions) (quiet : Bool),
      veil (Engine.start x { o with quiet }) = veil (Engine.start x o))
    (x : Context) (b : DecodedBuild) (w : Workshop σ) (source : Option Source) {sink : τ}
    (obliging : Obliging sink) (asked : Obliging (Sink.enableDuplex sink).2) :
    Twins veil (Sitting.start x (b.asking false) ⟨w, source, ⟨{ sink }, none⟩⟩)
      (Sitting.start x (b.asking true) ⟨w, source, ⟨{ sink }, none⟩⟩) := by
  have obliging : Obliging (if source.isSome
      then (Sink.enableDuplex ({ sink } : Noted τ)).2 else { sink }).sink := by
    split
    · exact asked
    · exact obliging
  have silent : (if source.isSome
      then (Sink.enableDuplex ({ sink } : Noted τ)).2 else { sink }).notes.taken = [] := by
    split <;> rfl
  have same := (starts (x.withVersion b.version) b.options true).trans
    (starts (x.withVersion b.version) b.options false).symm
  exact .building rfl rfl same ⟨rfl, rfl, ⟨rfl, silent, obliging⟩, ⟨rfl, silent, obliging⟩⟩ rfl rfl

end Sitting

/-- **Quiet builds lose nothing on failure.** Take an engine that does not look whether a build is
quiet, such as the context engine, a request that decodes, and one that is like it but for
being quiet. Let the same happen while both are served, with a client that takes everything.
Then the builds end in the same way or not at all. If they have ended, both sessions come
to their end. If the builds have failed, the frames that were sent are the same octets; if
they have succeeded, the quiet one has sent the line with its identifier and the
identifier, which is also the last frame of the other one. -/
theorem quiet_loses_nothing : Engine.QuietBlind ContextEngine.Job ∧
    ∀ {ι σ τ : Type} [Engine ι σ] [Sink τ], Engine.QuietBlind ι →
      ∀ {p : Policy} {r r' : BuildRequest} {b : DecodedBuild}, p.decode r = .ok b →
      r'.IsLike r → (Query.ofUri r.uri).flag "q" = false → (Query.ofUri r'.uri).flag "q" = true →
      ∃ b', p.decode r' = .ok b' ∧
      ∀ (x : Context) (w : Workshop σ) (source : Option Source) (sink : τ), Obliging sink →
      Obliging (Sink.enableDuplex sink).2 → ∀ happenings : List (Happening σ),
        let d : Desk σ (Noted τ) := ⟨w, source, ⟨{ sink }, none⟩⟩
        let loud := (Sitting.start (ι := ι) x b d).run happenings
        let quiet := (Sitting.start (ι := ι) x b' d).run happenings
        quiet.result = loud.result ∧ ∀ result, loud.result = some result →
          ∃ e e', loud.finish = (.done (.ok ()), e) ∧ quiet.finish = (.done (.ok ()), e') ∧
            let sent := e.writer.sink.notes.taken
            let sent' := e'.writer.sink.notes.taken
            match result with
            | .error _ => sent'.flatten = sent.flatten
            | .ok id => sent' = [(Message.line (id ++ "\n")).frame, (Message.imageId id).frame] ∧
                sent.getLast? = some (Message.imageId id).frame := by
  refine ⟨ContextEngine.quietBlind, ?_⟩
  intro ι σ τ _ _ blind p r r' b decodes like loudly quietly
  obtain ⟨κ, veil, starts, veiled⟩ := blind
  have decodes' : p.decode r' = .ok (b.asking true) := by
    rw [p.decode_asking like, decodes, quietly]
    rfl
  have loud_asked : b.asking false = b := by
    have itself : r.IsLike r := ⟨rfl, rfl, rfl, rfl⟩
    have again := p.decode_asking itself
    rw [decodes, loudly] at again
    exact (Except.ok.inj again).symm
  refine ⟨b.asking true, decodes', ?_⟩
  intro x w source sink obliging asked happenings d loud quiet
  have twins : Sitting.Twins veil loud quiet := by
    have started := Sitting.Twins.start starts x b w source obliging asked
    rw [loud_asked] at started
    exact started.run veiled happenings
  cases twins with
  | building stage stage' same desks result result' =>
    refine ⟨result'.trans result.symm, ?_⟩
    intro ended h
    rw [result] at h
    cases h
  | @ended result frames ends ends' =>
    refine ⟨ends'.result.trans ends.result.symm, ?_⟩
    intro ended h
    rw [ends.result] at h
    cases h
    obtain ⟨e, finish, sent⟩ := ends.finish
    obtain ⟨e', finish', sent'⟩ := ends'.finish
    refine ⟨e, e', finish, finish', ?_⟩
    rw [sent, sent']
    cases result with
    | ok id =>
      refine ⟨rfl, ?_⟩
      show (frames ++ ([] ++ [_])).getLast? = _
      rw [List.nil_append, List.getLast?_concat]
    | error e => exact Session.flatten_lastFrames frames e

/-- The desk of a build from an upload that is no archive. -/
def withoutArchive : Desk Store (Noted Recorder) :=
  ⟨⟨{}, {}⟩, some { upload := ⟨[.chunk ⟨#[0x61]⟩], true⟩ }, ⟨{ sink := {} }, none⟩⟩

/-- The build fails after it has reported what it received, and both clients get the same. -/
theorem quiet_loses_nothing_unreadable :
    let r : BuildRequest := { uri := ⟨[0x2F], none⟩, hasBody := true }
    let r' : BuildRequest := { uri := ⟨[0x2F], some [0x71, 0x3D, 0x31]⟩, hasBody := true }
    let serve (b : DecodedBuild) : Sitting ContextEngine.Job Store (Noted Recorder) :=
      (Sitting.start ⟨.newest, ⟨0, []⟩⟩ b withoutArchive).run (List.replicate 12 .move)
    ∃ b b' cause e e', Policy.decode {} r = .ok b ∧ Policy.decode {} r' = .ok b' ∧
      (serve b).result = some (.error cause) ∧
      (serve b).finish = (.done (.ok ()), e) ∧ (serve b').finish = (.done (.ok ()), e') ∧
      e'.writer.sink.notes.taken.flatten = e.writer.sink.notes.taken.flatten := by
  intro r r' serve
  have decodes : Policy.decode {} r = .ok ⟨.newest, {}⟩ := rfl
  have quietly : (Query.ofUri r'.uri).flag "q" = true := by decide +kernel
  have like : r'.IsLike r := ⟨rfl, by decide +kernel, rfl, rfl⟩
  obtain ⟨b', decodes', both⟩ := quiet_loses_nothing.2 (τ := Recorder)
    ContextEngine.quietBlind decodes like rfl quietly
  obtain ⟨-, ended⟩ := both ⟨.newest, ⟨0, []⟩⟩ ⟨{}, {}⟩
    (some { upload := ⟨[.chunk ⟨#[0x61]⟩], true⟩ }) {} (.recorder rfl) (.recorder rfl)
    (List.replicate 12 .move)
  have failed : (serve ⟨.newest, {}⟩).result.any (fun result => !result.isOk) = true := by
    decide +kernel
  obtain ⟨result, stopped, isError⟩ := (Option.any_eq_true ..).1 failed
  cases result with
  | ok id => cases isError
  | error cause =>
    obtain ⟨e, e', finish, finish', same⟩ := ended _ stopped
    exact ⟨_, b', cause, e, e', decodes, decodes', stopped, finish, finish', same⟩

end ImageBuild
