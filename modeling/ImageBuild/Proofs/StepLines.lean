import ImageBuild.Proofs.ImageId
import ImageBuild.Proofs.Transparency

/-!
# What an identifier says about the steps

The lines that announce instructions are those of the file that was taken from the
context. The identifier of an image covers the context, but not the choice of the
file. So two builds that return the same identifier may have announced different
instructions (`step_lines_forked`). They announced the same ones if their files are at
the same path, or else two digests collide (`step_lines_of_shared_id`).
-/

namespace ImageBuild

namespace Archive

theorem Summary.ofArchive_congr {a b : String} (h : normalPath a = normalPath b)
    (data : ByteArray) : Summary.ofArchive a data = Summary.ofArchive b data := by
  simp only [Summary.ofArchive, Summary.find?, h]

end Archive

/-- The octets that identify an image leave out the path of the Dockerfile. -/
theorem ImageId.ofBuild_dockerfile (content : ByteArray) (o : BuildOptions) (dockerfile : String) :
    ofBuild content { o with dockerfile } = ofBuild content o := rfl

namespace ContextEngine

def stepLines (frames : List Frame) : List String :=
  (frames.filterMap line?).filter (begins "Step ")

/-- The instructions of the file that a build takes from a context. -/
def chosen (o : BuildOptions) (content : ByteArray) : List (List Char) :=
  match Archive.Summary.ofArchive o.dockerfile content with
  | .ok ⟨_, some text⟩ => Dockerfile.instructions text.toList
  | _ => []

/-! ## Which lines announce instructions -/

section Lines

theorem begins_longer {start a : String} (long : start.toList.length ≤ a.toList.length)
    (b : String) : begins start (a ++ b) = begins start a := by
  rw [Bool.eq_iff_iff, begins, begins, String.toList_append, List.isPrefixOf_iff_prefix,
    List.isPrefixOf_iff_prefix]
  exact ⟨fun h => List.prefix_of_prefix_length_le h (List.prefix_append ..) long,
    fun h => h.trans (List.prefix_append ..)⟩

/-- A text that can be continued without announcing an instruction. -/
def IsOther (text : String) : Prop :=
  "Step ".toList.length ≤ text.toList.length ∧ begins "Step " text = false

theorem IsOther.append {a : String} (h : IsOther a) (b : String) : IsOther (a ++ b) := by
  refine ⟨?_, by rw [begins_longer h.1, h.2]⟩
  rw [String.toList_append, List.length_append]
  exact Nat.le_add_right_of_le h.1

theorem begins_stepLine (total i : Nat) (x : List Char) :
    begins "Step " (Plan.stepLine total i x) = true := by
  simp only [Plan.stepLine, String.append_assoc]
  exact begins_append ..

theorem filter_texts (o : BuildOptions) (c : ReceivedContext) (entries : Nat)
    (instructions : List (List Char)) :
    ((Plan.ofInstructions o c entries instructions).steps.filterMap stepText?).filter
      (begins "Step ") = announced instructions := by
  have context : IsOther (Plan.contextLine c.size entries) :=
    ((((show IsOther "Sending build context to builder " from ⟨by decide,
      by decide⟩).append _).append _).append _).append _
  have success (id : String) : IsOther ("Successfully built " ++ id ++ "\n") :=
    ((show IsOther "Successfully built " from ⟨by decide,
      by decide⟩).append _).append _
  have tagged (tag : String) : IsOther ("Successfully tagged " ++ tag ++ "\n") :=
    ((show IsOther "Successfully tagged " from ⟨by decide,
      by decide⟩).append _).append _
  have steps : (announced instructions).filter (begins "Step ") = announced instructions := by
    refine List.filter_eq_self.2 fun t ht => ?_
    obtain ⟨⟨x, i⟩, -, rfl⟩ := List.mem_map.1 ht
    exact begins_stepLine ..
  have tags : (o.tags.map fun tag => "Successfully tagged " ++ tag ++ "\n").filter
      (begins "Step ") = [] := by
    refine List.filter_eq_nil_iff.2 fun t ht => ?_
    obtain ⟨tag, -, rfl⟩ := List.mem_map.1 ht
    rw [(tagged tag).2]
    exact Bool.false_ne_true
  rw [texts_ofInstructions, List.filter_append, List.filter_cons, List.filter_cons, context.2,
    (success _).2, steps, tags]
  exact List.append_nil _

theorem stepLines_append (xs ys : List Frame) :
    stepLines (xs ++ ys) = stepLines xs ++ stepLines ys := by
  simp only [stepLines, List.filterMap_append, List.filter_append]

theorem stepLines_reports (counts : List Nat) : stepLines (counts.map report) = [] := by
  induction counts with
  | nil => rfl
  | cons n rest ih =>
    rw [stepLines, List.map_cons, List.filterMap_cons, line?_report]
    exact ih

theorem stepLines_cachedNote (content : ByteArray) : stepLines [cachedNote content] = [] := by
  have note : IsOther "Using cached context " := ⟨by decide, by decide⟩
  unfold stepLines cachedNote Plan.cachedLine
  rw [List.filterMap_cons, line?_line, String.append_assoc]
  generalize Digest.short (Digest.name content) ++ "\n" = rest
  exact List.filter_cons_of_neg (by rw [(note.append rest).2]; exact Bool.false_ne_true)

theorem stepLines_preamble (content : ByteArray) (isKnown : Bool) :
    stepLines (preamble content isKnown) = [] := by
  have size : stepLines [report content.size] = [] := stepLines_reports [content.size]
  cases isKnown with
  | false => exact size
  | true =>
    show stepLines ([report content.size] ++ [cachedNote content]) = []
    rw [stepLines_append, size, stepLines_cachedNote]
    rfl

theorem stepLines_stepFrames (steps : List PlanStep) :
    stepLines (stepFrames steps) = (steps.filterMap stepText?).filter (begins "Step ") := by
  have read (texts : List String) :
      (texts.map fun text => (Message.line text).frame).filterMap line? = texts := by
    rw [List.filterMap_map]
    exact (List.filterMap_congr fun text _ => line?_line text).trans List.filterMap_some
  rw [stepLines, stepFrames, read]

end Lines

/-! ## Announced instructions are read back -/

theorem stepLine_inj {total i : Nat} {x y : List Char}
    (h : Plan.stepLine total i x = Plan.stepLine total i y) : x = y := by
  have := congrArg String.toList h
  simpa [Plan.stepLine] using this

theorem announced_inj {xs ys : List (List Char)} (h : announced xs = announced ys) : xs = ys := by
  have length : xs.length = ys.length := by
    simpa only [announced, List.length_map, List.length_zipIdx] using congrArg List.length h
  refine List.ext_getElem length fun i hx hy => ?_
  have line := congrArg (·[i]?) h
  simp only [announced, List.getElem?_map, List.getElem?_zipIdx, List.getElem?_eq_getElem hx,
    List.getElem?_eq_getElem hy, Option.map_some, Option.some.injEq, length] at line
  exact stepLine_inj line

/-! ## Builds that share an identifier -/

/-- Whether two contents have the same digest though they differ. -/
def Collide (a b : ByteArray) : Prop := a ≠ b ∧ Sha256.hash a = Sha256.hash b

theorem chosen_eq {o : BuildOptions} {content : ByteArray} {entries : Nat} {text : String}
    (found : Archive.Summary.ofArchive o.dockerfile content = .ok ⟨entries, some text⟩) :
    chosen o content = Dockerfile.instructions text.toList := by
  rw [chosen, found]

variable {τ τ' : Type} [Sink τ] [Sink τ']

/-- **A build that returns an identifier** has announced the instructions of the file
that it took from its context, and the identifier is that of its context and its options. -/
theorem steps_of_return {events : List (ReceptionEvent τ)} {i : Nat} {x : Return} {id : String}
    (h : (Reception.watch events).return? i = some x) (built : x.result = .ok id) :
    stepLines x.notes.taken = announced (chosen x.options x.content) ∧
      id = Digest.name (ImageId.ofBuild x.content x.options).toByteArray := by
  have ended := ended_of_return h
  rw [built] at ended
  cases ended with
  | @done isKnown plan hp told =>
    obtain ⟨counts, taken⟩ := told.taken
    obtain ⟨⟨entries, file⟩, text, found, rfl, rfl⟩ := plan_of_verdict hp
    refine ⟨?_, rfl⟩
    rw [taken, stepLines_append, stepLines_append, stepLines_reports, stepLines_preamble,
      stepLines_stepFrames, filter_texts, Return.content, chosen_eq found]
    rfl

/-- **What an identifier says about the steps.** Two builds that return the same
identifier had the same context and took the same file from it if they asked for the
same path; then they announced the same instructions. If they asked for different paths,
they announced the same ones just if the two files have the same ones. All this holds unless
the octets that identify the two images, or the two contexts, collide. -/
theorem step_lines_of_shared_id {events : List (ReceptionEvent τ)}
    {events' : List (ReceptionEvent τ')} {i i' : Nat} {x x' : Return} {id : String}
    (h : (Reception.watch events).return? i = some x)
    (h' : (Reception.watch events').return? i' = some x')
    (built : x.result = .ok id) (built' : x'.result = .ok id) :
    Collide (ImageId.ofBuild x.content x.options).toByteArray
        (ImageId.ofBuild x'.content x'.options).toByteArray ∨
      Collide x.content x'.content ∨
      x.content = x'.content ∧
        (stepLines x.notes.taken = stepLines x'.notes.taken ↔
          chosen x.options x.content = chosen x'.options x'.content) ∧
        (Archive.normalPath x.options.dockerfile = Archive.normalPath x'.options.dockerfile →
          stepLines x.notes.taken = stepLines x'.notes.taken) := by
  obtain ⟨steps, hid⟩ := steps_of_return h built
  obtain ⟨steps', hid'⟩ := steps_of_return h' built'
  have names := hid.symm.trans hid'
  by_cases octets : ImageId.ofBuild x.content x.options = ImageId.ofBuild x'.content x'.options
  swap
  · refine .inl ⟨fun same => octets ?_, Digest.hash_of_name names⟩
    have := congrArg (·.data.toList) same
    simpa using this
  by_cases content : x.content = x'.content
  swap
  · exact .inr (.inl ⟨content, Digest.hash_of_name (ImageId.ofBuild_inj octets).1⟩)
  refine .inr (.inr ⟨content, ?_, fun path => ?_⟩)
  · rw [steps, steps']
    exact ⟨announced_inj, congrArg announced⟩
  · rw [steps, steps', content, chosen, chosen, Archive.Summary.ofArchive_congr path]

/-! ## Two builds over one context -/

def forkedBuild (o : BuildOptions) (moves : Nat) : Reception (Noted Recorder) :=
  Reception.watchBuild [.request .newest] 0 o
    ⟨[.chunk (Archive.archive Archive.forked).toByteArray], true⟩ ⟨{}, none⟩ moves

theorem exists_return_forked {o : BuildOptions} {plan : Plan} (free : o.buildId = none)
    (h : verdict o (Archive.archive Archive.forked).toByteArray = .ok plan) :
    ∃ n x, (forkedBuild o n).return? 0 = some x ∧ x.options = o ∧
      x.content = (Archive.archive Archive.forked).toByteArray ∧ x.result = .ok plan.id := by
  unfold forkedBuild
  generalize (Archive.archive Archive.forked).toByteArray = content at *
  obtain ⟨n, x, returns⟩ := exists_return [.request .newest] (admits_chunk o free content)
  refine ⟨n, x, returns.returns, returns.options, returns.whole.bytes, ?_⟩
  rw [(result_of_returns returns).1, h]
  rfl

/-- Two builds over the same context whose options differ in the path of the Dockerfile
share an identifier. -/
theorem shared_of_returns {events : List (ReceptionEvent τ)} {events' : List (ReceptionEvent τ')}
    {i i' : Nat} {x x' : Return} {id id' : String} {o : BuildOptions} {dockerfile : String}
    (h : (Reception.watch events).return? i = some x)
    (h' : (Reception.watch events').return? i' = some x') (built : x.result = .ok id)
    (built' : x'.result = .ok id') (content : x.content = x'.content) (options : x.options = o)
    (options' : x'.options = { o with dockerfile }) :
    ImageId.ofBuild x.content x.options = ImageId.ofBuild x'.content x'.options ∧
      x'.result = .ok id := by
  have same : ImageId.ofBuild x.content x.options = ImageId.ofBuild x'.content x'.options := by
    rw [content, options, options']
    exact (ImageId.ofBuild_dockerfile ..).symm
  refine ⟨same, ?_⟩
  rw [built', (steps_of_return h' built').2, ← same, ← (steps_of_return h built).2]

/-- A path may be spelled in two ways. -/
theorem step_lines_of_shared_id_spelled :
    let o' : BuildOptions := { dockerfile := "./Dockerfile" }
    ∃ n n' x x', (forkedBuild {} n).return? 0 = some x ∧
      (forkedBuild o' n').return? 0 = some x' ∧ x'.options = o' ∧
      (∃ id, x.result = .ok id ∧ x'.result = .ok id) ∧
      stepLines x.notes.taken = stepLines x'.notes.taken := by
  intro o'
  have path : Archive.normalPath "Dockerfile" = Archive.normalPath o'.dockerfile := by
    decide
  have given : Dockerfile.instructions "FROM a\n".toList ≠ [] := by decide
  have plan := verdict_eq (o := o') ((Archive.Summary.ofArchive_congr path.symm _).trans
    Archive.Summary.ofArchive_forked.1) given rfl
  obtain ⟨n, x, h, options, content, built⟩ := exists_return_forked rfl verdict_forked.1
  obtain ⟨n', x', h', options', content', built'⟩ := exists_return_forked rfl plan
  have content := content.trans content'.symm
  obtain ⟨same, shared⟩ := shared_of_returns h h' built built' content options options'
  refine ⟨n, n', x, x', h, h', options', ⟨_, built, shared⟩, ?_⟩
  rcases step_lines_of_shared_id h h' built shared with ⟨ne, -⟩ | ⟨ne, -⟩ | ⟨-, -, steps⟩
  · exact absurd (congrArg _ same) ne
  · exact absurd content ne
  · exact steps (by rw [options, options', path])

/-- **Two builds share an identifier** though they announce different instructions: they
take different files from the same context. -/
theorem step_lines_forked :
    let o' : BuildOptions := { dockerfile := "Other" }
    ∃ n n' x x' id, (forkedBuild {} n).return? 0 = some x ∧
      (forkedBuild o' n').return? 0 = some x' ∧ x.result = .ok id ∧ x'.result = .ok id ∧
      x.content = x'.content ∧
      ImageId.ofBuild x.content x.options = ImageId.ofBuild x'.content x'.options ∧
      stepLines x.notes.taken = ["Step 1/1 : FROM a\n"] ∧
      stepLines x'.notes.taken = ["Step 1/1 : FROM b\n"] := by
  intro o'
  have a : announced (Dockerfile.instructions "FROM a\n".toList) = ["Step 1/1 : FROM a\n"] := by
    decide +kernel
  have b : announced (Dockerfile.instructions "FROM b\n".toList) = ["Step 1/1 : FROM b\n"] := by
    decide +kernel
  have usual := chosen_eq (o := {}) Archive.Summary.ofArchive_forked.1
  have other := chosen_eq (o := o') Archive.Summary.ofArchive_forked.2
  obtain ⟨n, x, h, options, content, built⟩ := exists_return_forked rfl verdict_forked.1
  obtain ⟨n', x', h', options', content', built'⟩ := exists_return_forked rfl verdict_forked.2
  have steps := (steps_of_return h built).1
  have steps' := (steps_of_return h' built').1
  rw [options, content, usual, a] at steps
  rw [options', content', other, b] at steps'
  have content := content.trans content'.symm
  obtain ⟨same, shared⟩ := shared_of_returns h h' built built' content options options'
  exact ⟨n, n', x, x', _, h, h', built, shared, content, same, steps, steps'⟩

end ContextEngine
end ImageBuild
