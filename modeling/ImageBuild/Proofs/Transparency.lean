import ImageBuild.Proofs.Archive
import ImageBuild.Proofs.Message
import ImageBuild.Proofs.Returning

/-!
# What does not matter to a build

A build over the same octets with the same options ends in the same way, however the
octets were cut into chunks, whatever else happens at the reception, and whether its
context is known or not. All that it tells is the same as well, but for the reports
on the way and the note that a known context is used (`transparent`).
-/

namespace ImageBuild
namespace ContextEngine

/-! ## Reading what is told -/

def line? (f : Frame) : Option String := (Message.ofFrame? f).bind (·.stream)

def begins (start text : String) : Bool := start.toList.isPrefixOf text.toList

/-- Whether a frame reports how much of the context has arrived. -/
def isReport (f : Frame) : Bool :=
  (Message.ofFrame? f).any fun m => m.status == some "Receiving build context"

/-- Whether a frame says that a known context is used. -/
def isCachedNote (f : Frame) : Bool := (line? f).any (begins "Using cached context ")

theorem ofFrame?_line (text : String) :
    Message.ofFrame? (Message.line text).frame = some (Message.line text) :=
  Message.ofFrame?_frame (Message.isReadable_of_aux_eq_none rfl)

theorem ofFrame?_report (n : Nat) :
    Message.ofFrame? (report n) = some
      { Message.ofStatus (some "context") "Receiving build context" with
        progressDetail := some { current := UInt64.ofNat n }
        progress := some (Text.ByteSize.text n) } :=
  Message.ofFrame?_frame (Message.isReadable_of_aux_eq_none rfl)

@[simp] theorem line?_line (text : String) : line? (Message.line text).frame = some text := by
  rw [line?, ofFrame?_line]
  rfl

@[simp] theorem line?_report (n : Nat) : line? (report n) = none := by
  rw [line?, ofFrame?_report]
  rfl

@[simp] theorem isReport_report (n : Nat) : isReport (report n) = true := by
  rw [isReport, ofFrame?_report]
  rfl

@[simp] theorem isReport_line (text : String) : isReport (Message.line text).frame = false := by
  rw [isReport, ofFrame?_line]
  rfl

@[simp] theorem isCachedNote_report (n : Nat) : isCachedNote (report n) = false := by
  rw [isCachedNote, line?_report]
  rfl

theorem isCachedNote_line (text : String) :
    isCachedNote (Message.line text).frame = begins "Using cached context " text := by
  rw [isCachedNote, line?_line]
  rfl

theorem begins_append (start rest : String) : begins start (start ++ rest) = true := by
  rw [begins, String.toList_append, List.isPrefixOf_iff_prefix]
  exact List.prefix_append ..

@[simp] theorem isCachedNote_cachedNote (content : ByteArray) :
    isCachedNote (cachedNote content) = true := by
  unfold cachedNote Plan.cachedLine
  rw [isCachedNote_line, String.append_assoc]
  generalize Digest.short (Digest.name content) ++ "\n" = rest
  exact begins_append _ rest

/-! ## The essential part of what is told -/

/-- Frames without the reports after which there is another one. -/
def withLastReport : List Frame → List Frame
  | [] => []
  | f :: rest =>
    if isReport f && rest.any isReport then withLastReport rest else f :: withLastReport rest

/-- Frames without the note that a known context is used and without the reports but
the last one. -/
def essential (frames : List Frame) : List Frame :=
  (withLastReport frames).filter fun f => !isCachedNote f

def lastReport? (frames : List Frame) : Option Frame := (frames.filter isReport).getLast?

section Essential

variable {frames : List Frame}

theorem withLastReport_of_none (h : ∀ f ∈ frames, isReport f = false) :
    withLastReport frames = frames := by
  induction frames with
  | nil => rfl
  | cons f rest ih =>
    rw [withLastReport, h f (List.mem_cons_self ..), Bool.false_and,
      ih fun g hg => h g (List.mem_cons_of_mem _ hg)]
    rfl

theorem withLastReport_reports (counts : List Nat) (h : frames.any isReport = true) :
    withLastReport (counts.map report ++ frames) = withLastReport frames := by
  induction counts with
  | nil => rfl
  | cons n rest ih =>
    have later : (rest.map report ++ frames).any isReport = true := by
      rw [List.any_append, h, Bool.or_true]
    rw [List.map_cons, List.cons_append, withLastReport, isReport_report, later]
    exact ih

/-- **What is essential** of what a build tells: the size of the context, and what comes
after its opening. -/
theorem essential_eq (counts : List Nat) (content : ByteArray) (isKnown : Bool)
    (h : ∀ f ∈ frames, isReport f = false ∧ isCachedNote f = false) :
    essential (counts.map report ++ (preamble content isKnown ++ frames)) =
        report content.size :: frames ∧
      lastReport? (counts.map report ++ (preamble content isKnown ++ frames)) =
        some (report content.size) := by
  let rest := (if isKnown then [cachedNote content] else []) ++ frames
  have opens : preamble content isKnown ++ frames = report content.size :: rest := rfl
  have none : ∀ f ∈ rest, isReport f = false := by
    intro f hf
    rcases List.mem_append.1 hf with hf | hf
    · split at hf
      · rw [List.mem_singleton.1 hf]
        exact isReport_line _
      · cases hf
    · exact (h f hf).1
  have cached : rest.filter (fun f => !isCachedNote f) = frames := by
    have kept : frames.filter (fun f => !isCachedNote f) = frames :=
      List.filter_eq_self.2 fun f hf => by rw [(h f hf).2]; rfl
    rw [List.filter_append, kept]
    cases isKnown with
    | true => simp
    | false => rfl
  rw [opens]
  constructor
  · have first : (report content.size :: rest).any isReport = true := by
      rw [List.any_cons, isReport_report, Bool.true_or]
    have only : rest.any isReport = false := List.any_eq_false.2 fun f hf => by simp [none f hf]
    rw [essential, withLastReport_reports counts first, withLastReport, only, Bool.and_false,
      withLastReport_of_none none, if_neg Bool.false_ne_true, List.filter_cons_of_pos (by simp),
      cached]
  · have last : (report content.size :: rest).filter isReport = [report content.size] := by
      rw [List.filter_cons_of_pos (isReport_report _),
        List.filter_eq_nil_iff.2 fun f hf => by simp [none f hf]]
    rw [lastReport?, List.filter_append, last, List.getLast?_append]
    rfl

end Essential

/-! ## The lines of a plan -/

def announced (instructions : List (List Char)) : List String :=
  instructions.zipIdx.map fun (x, i) => Plan.stepLine instructions.length i x

theorem texts_instructionSteps (instructions : List (List Char)) :
    (Plan.instructionSteps instructions).filterMap stepText? = announced instructions := by
  simp only [Plan.instructionSteps, announced, List.filterMap_flatMap, List.map_eq_flatMap]
  rfl

theorem texts_ofInstructions (o : BuildOptions) (c : ReceivedContext) (entries : Nat)
    (instructions : List (List Char)) :
    (Plan.ofInstructions o c entries instructions).steps.filterMap stepText? =
      Plan.contextLine c.size entries :: announced instructions ++
        ("Successfully built " ++ Digest.short (ImageId.ofContext c.digest o) ++ "\n") ::
          o.tags.map fun tag => "Successfully tagged " ++ tag ++ "\n" := by
  have tags : (o.tags.map fun tag =>
      PlanStep.line ("Successfully tagged " ++ tag ++ "\n")).filterMap stepText? =
        o.tags.map fun tag => "Successfully tagged " ++ tag ++ "\n" := by
    rw [List.filterMap_map, ← List.filterMap_eq_map]
    rfl
  simp only [Plan.ofInstructions, List.filterMap_append, List.filterMap_cons, stepText?,
    texts_instructionSteps, tags]

theorem head?_of_mem_texts {o : BuildOptions} {c : ReceivedContext} {entries : Nat}
    {instructions : List (List Char)} {text : String}
    (h : text ∈ (Plan.ofInstructions o c entries instructions).steps.filterMap stepText?) :
    text.toList.head? = some 'S' := by
  have front (a b : String) (ha : a.toList.head? = some 'S') :
      (a ++ b).toList.head? = some 'S' := by
    rw [String.toList_append, List.head?_append, ha]
    rfl
  have three (a b c : String) (ha : a.toList.head? = some 'S') :
      (a ++ b ++ c).toList.head? = some 'S' := front _ c (front a b ha)
  rw [texts_ofInstructions, List.mem_append, List.mem_cons, List.mem_cons] at h
  rcases h with (rfl | h) | rfl | h
  · exact three _ _ _ (three _ _ _ (by decide))
  · obtain ⟨⟨x, i⟩, -, rfl⟩ := List.mem_map.1 h
    exact front _ _ (three _ _ _ (three _ _ _ (front _ _ (by decide))))
  · exact three _ _ _ (by decide)
  · obtain ⟨tag, -, rfl⟩ := List.mem_map.1 h
    exact three _ _ _ (by decide)

theorem essential_of_mem_stepFrames {o : BuildOptions} {content : ByteArray} {plan : Plan}
    (h : verdict o content = .ok plan) :
    ∀ f ∈ stepFrames plan.steps, isReport f = false ∧ isCachedNote f = false := by
  obtain ⟨summary, text, -, -, rfl⟩ := plan_of_verdict h
  intro f hf
  obtain ⟨t, ht, rfl⟩ := List.mem_map.1 hf
  have first := head?_of_mem_texts ht
  refine ⟨isReport_line t, ?_⟩
  rw [isCachedNote_line, begins]
  cases htl : t.toList with
  | nil =>
    rw [htl] at first
    cases first
  | cons c rest =>
    rw [htl] at first
    cases first
    rfl

/-! ## Builds that nothing stands in the way of -/

/-- What is essential of what a build over a context tells. -/
def account (o : BuildOptions) (content : ByteArray) : List Frame :=
  report content.size ::
    match verdict o content with
    | .error _ => []
    | .ok plan => stepFrames plan.steps

/-- Whether the plan of a build or its failure depends on the cache. -/
theorem verdict_noCache (o : BuildOptions) (noCache : Bool) (content : ByteArray) :
    verdict { o with noCache } content = verdict o content := rfl

variable {τ τ' : Type} [Sink τ] [Sink τ']

/-- A build that nothing stands in the way of fails as the octets of its upload and its options
say, and then has told no line of a plan, or it returns the image of its plan, of which it has
told every line. -/
theorem told_of_returns {events : List (ReceptionEvent τ)} {i : Nat} {x : Return}
    {o : BuildOptions} {content : ByteArray} (h : (Reception.watch events).Returns i o content x) :
    ∃ (counts : List Nat) (isKnown : Bool),
      (∃ e, verdict o content = .error e ∧ x.result = .error e ∧
        x.notes.taken = counts.map report ++ preamble content isKnown) ∨
      (∃ plan, verdict o content = .ok plan ∧ x.result = .ok plan.id ∧
        x.notes.taken =
          counts.map report ++ (preamble content isKnown ++ stepFrames plan.steps)) := by
  obtain ⟨returns, rfl, whole, refused, sound, going⟩ := h
  have ended := ended_of_return returns
  clear returns
  obtain ⟨token, o, u, n, faults, result⟩ := x
  simp only at ended whole refused sound going ⊢
  subst sound
  have bytes := whole.bytes
  rw [going] at ended
  cases ended with
  | canceled h => cases h
  | refused h => rw [refused] at h; cases h
  | fault h => exact absurd h (whole.clean _)
  | unwritten h | unread h => cases h
  | @failed isKnown e h told =>
    rw [bytes] at h told
    obtain ⟨counts, taken⟩ := told.taken
    exact ⟨counts, isKnown, .inl ⟨e, h, rfl, taken⟩⟩
  | @done isKnown plan h told =>
    rw [bytes] at h told
    obtain ⟨counts, taken⟩ := told.taken
    exact ⟨counts, isKnown, .inr ⟨plan, h, rfl, taken⟩⟩

/-- **A build that nothing stands in the way of** returns what the octets of its upload
and its options say, and its account is theirs. -/
theorem result_of_returns {events : List (ReceptionEvent τ)} {i : Nat} {x : Return}
    {o : BuildOptions} {content : ByteArray} (h : (Reception.watch events).Returns i o content x) :
    x.result = (verdict o content).map (·.id) ∧ essential x.notes.taken = account o content ∧
      lastReport? x.notes.taken = some (report content.size) := by
  obtain ⟨counts, isKnown, ⟨e, he, result, taken⟩ | ⟨plan, hp, result, taken⟩⟩ := told_of_returns h
  · have eq := essential_eq counts content isKnown fun f (hf : f ∈ ([] : List Frame)) => by cases hf
    rw [List.append_nil, ← taken] at eq
    simp only [account, he]
    exact ⟨result, eq⟩
  · have eq := essential_eq counts content isKnown (essential_of_mem_stepFrames hp)
    rw [← taken] at eq
    simp only [account, hp]
    exact ⟨result, eq⟩

/-- Whether two builds over a context have returned alike: with the same result, and
with the same account, in which the last report is that of the whole context. -/
structure Alike (content : ByteArray) (x x' : Return) : Prop where
  result : x.result = x'.result
  account : essential x.notes.taken = essential x'.notes.taken
  size : lastReport? x.notes.taken = some (report content.size)
  size' : lastReport? x'.notes.taken = some (report content.size)

/-- **What does not matter to a build.** Two builds over the same octets, with options
that differ at most in the use of the cache, return alike if neither is cancelled and
no frame is refused: after any events, among any other builds, and however the octets
arrived. And from any two states in which they may arrive, both do return. -/
theorem transparent (events : List (ReceptionEvent τ)) (events' : List (ReceptionEvent τ'))
    (o : BuildOptions) (noCache noCache' : Bool) (content : ByteArray) :
    let z := Reception.watch events
    let z' := Reception.watch events'
    let p : BuildOptions := { o with noCache }
    let p' : BuildOptions := { o with noCache := noCache' }
    (∀ i i' x x', z.Returns i p content x → z'.Returns i' p' content x' → Alike content x x') ∧
    ∀ k k' u u' writer writer', z.Admits k p u content writer → z'.Admits k' p' u' content writer' →
      ∃ n n' x x',
        (Reception.watchBuild events k p u writer n).Returns z.present.length p content x ∧
        (Reception.watchBuild events' k' p' u' writer' n').Returns z'.present.length p' content x' ∧
        Alike content x x' := by
  intro z z' p p'
  have same : verdict p content = verdict p' content :=
    (verdict_noCache o noCache content).trans (verdict_noCache o noCache' content).symm
  have alike {es : List (ReceptionEvent τ)} {es' : List (ReceptionEvent τ')} {i i' : Nat}
      {x x' : Return} (h : (Reception.watch es).Returns i p content x)
      (h' : (Reception.watch es').Returns i' p' content x') : Alike content x x' := by
    obtain ⟨result, told, size⟩ := result_of_returns h
    obtain ⟨result', told', size'⟩ := result_of_returns h'
    have accounts : account p content = account p' content := by rw [account, account, same]
    exact ⟨result.trans (same ▸ result'.symm), told.trans (accounts.trans told'.symm), size, size'⟩
  refine ⟨fun i i' x x' h h' => alike h h', ?_⟩
  intro k k' u u' writer writer' admits admits'
  obtain ⟨n, x, h⟩ := exists_return events admits
  obtain ⟨n', x', h'⟩ := exists_return events' admits'
  exact ⟨n, n', x, x', h, h', alike h h'⟩

theorem admits_chunk (o : BuildOptions) (free : o.buildId = none) (content : ByteArray) :
    (Reception.watch [.request .newest]).Admits 0 o ⟨[.chunk content], true⟩ content
      (⟨{}, none⟩ : Writer Recorder) := by
  have whole : Upload.Whole ⟨[.chunk content], true⟩ content :=
    ⟨rfl, by simp, ByteArray.append_empty⟩
  exact ⟨⟨_, rfl, rfl⟩, by simp [free], whole, .recorder rfl, rfl⟩

theorem verdict_forked :
    let content := (Archive.archive Archive.forked).toByteArray
    let c : ReceivedContext := ⟨0, Digest.name content, content.size⟩
    verdict {} content = .ok (Plan.ofInstructions {} c 2 ["FROM a".toList]) ∧
      verdict { dockerfile := "Other" } content =
        .ok (Plan.ofInstructions { dockerfile := "Other" } c 2 ["FROM b".toList]) := by
  have a : Dockerfile.instructions "FROM a\n".toList = ["FROM a".toList] := by decide
  have b : Dockerfile.instructions "FROM b\n".toList = ["FROM b".toList] := by decide
  obtain ⟨usual, other⟩ := Archive.Summary.ofArchive_forked
  intro content c
  have first := verdict_eq (o := {}) usual (by rw [a]; simp) rfl
  have second := verdict_eq (o := { dockerfile := "Other" }) other (by rw [b]; simp) rfl
  rw [a] at first
  rw [b] at second
  exact ⟨first, second⟩

/-- Whole or in two parts with pauses and an empty chunk, and with or without the
cache, a context gives the same image. -/
theorem transparent_forked :
    let content := (Archive.archive Archive.forked).toByteArray
    let front := ((Archive.archive Archive.forked).take 600).toByteArray
    let back := ((Archive.archive Archive.forked).drop 600).toByteArray
    let u : Upload := ⟨[.chunk content], true⟩
    let u' : Upload := ⟨[.pause, .chunk front, .chunk .empty, .chunk back, .pause], true⟩
    let writer : Writer Recorder := ⟨{}, none⟩
    ∃ n n' x x',
      (Reception.watchBuild [.request .newest] 0 {} u writer n).Returns 0 {} content x ∧
      (Reception.watchBuild [.request .newest, .strike {}] 0 { noCache := true } u' writer
        n').Returns 0 { noCache := true } content x' ∧
      Alike content x x' ∧ x.result = .ok (ImageId.ofContext (Digest.name content) {}) := by
  intro content front back u u' writer
  have whole' : u'.Whole content := by
    refine ⟨rfl, by simp [u'], ?_⟩
    show front ++ (.empty ++ (back ++ .empty)) = content
    rw [ByteArray.append_empty, ByteArray.empty_append]
    apply ByteArray.ext
    apply Array.toList_inj.1
    simp [front, back, content]
  have admits : (Reception.watch [.request .newest]).Admits 0 {} u content writer :=
    admits_chunk {} rfl content
  have admits' : (Reception.watch [.request .newest, .strike {}]).Admits 0 { noCache := true } u'
      content writer :=
    ⟨⟨_, rfl, rfl⟩, by rintro id ⟨⟩, whole', .recorder rfl, rfl⟩
  obtain ⟨n, n', x, x', h, h', alike⟩ := (transparent [.request .newest]
    [.request .newest, .strike {}] {} false true content).2 0 0 u u' writer writer admits admits'
  refine ⟨n, n', x, x', h, h', alike, ?_⟩
  rw [(result_of_returns h).1]
  show (verdict {} content).map (·.id) = _
  rw [verdict_forked.1]
  rfl

end ContextEngine
end ImageBuild
