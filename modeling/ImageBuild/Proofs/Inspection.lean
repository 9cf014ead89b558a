import ImageBuild.Proofs.Contents
import ImageBuild.Proofs.Paths
import ImageBuild.Proofs.Transparency

/-!
# Looking through an archive

What a build makes of an uploaded archive: a fault anywhere in it, or a wanted file that is
missing, no text, or without instructions makes the build fail before it announces anything.
Otherwise it announces all of the entries and the instructions of the first entry at the wanted
path, of which every octet has been read (`inspected`).
-/

namespace ImageBuild

namespace Archive

def Entry.text? (data : ByteArray) (e : Entry) : Option String :=
  String.fromUTF8? (e.layout.read data)

end Archive

open Archive

namespace ContextEngine

/-! ## What is found in an archive -/

section Verdict

variable {o : BuildOptions} {content : ByteArray} {e : Entry}

/-- **A fault in an archive** is the end of the build, wherever it is. -/
theorem verdict_fault (h : (Listing.ofArchive content).fault ≠ none) :
    ∃ reason, verdict o content = .error (.invalidContext reason) := by
  obtain ⟨fault, hf⟩ := Option.ne_none_iff_exists'.1 h
  have failed : ∃ f, Summary.ofArchive o.dockerfile content = .error f := by
    simp only [Summary.ofArchive, hf]
    split
    · exact ⟨_, rfl⟩
    · split
      · exact ⟨_, rfl⟩
      · exact ⟨_, rfl⟩
  obtain ⟨f, hf⟩ := failed
  exact ⟨f.message, by rw [verdict, hf]⟩

theorem verdict_missing
    (h : ∀ e ∈ (Listing.ofArchive content).entries, normalPath e.path ≠ normalPath o.dockerfile) :
    ∃ reason, verdict o content = .error (.invalidContext reason) := by
  simp only [verdict, Summary.ofArchive, find?_eq_none_iff.2 h]
  cases (Listing.ofArchive content).fault with
  | some fault => exact ⟨_, rfl⟩
  | none => exact ⟨_, rfl⟩

theorem verdict_notText (first : IsFirst o.dockerfile (Listing.ofArchive content).entries e)
    (notText : e.text? content = none) :
    ∃ reason, verdict o content = .error (.invalidContext reason) := by
  rw [Entry.text?] at notText
  simp only [verdict, Summary.ofArchive, find?_eq_some_iff.2 first, notText]
  exact ⟨_, rfl⟩

/-- **An archive without a fault** whose wanted file is text. -/
theorem verdict_text {text : String} (faultless : (Listing.ofArchive content).fault = none)
    (first : IsFirst o.dockerfile (Listing.ofArchive content).entries e)
    (isText : e.text? content = some text) :
    verdict o content = Plan.ofSummary o ⟨0, Digest.name content, content.size⟩
      ⟨(Listing.ofArchive content).entries.length, some text⟩ := by
  rw [Entry.text?] at isText
  simp only [verdict, Summary.ofArchive, find?_eq_some_iff.2 first, isText, faultless]

theorem ofSummary_text (o : BuildOptions) (c : ReceivedContext) (entries : Nat) {text : String}
    (given : Dockerfile.instructions text.toList ≠ []) :
    let instructions := Dockerfile.instructions text.toList
    let isDeclared := o.target.all fun stage => Dockerfile.declares stage instructions
    (isDeclared = true → Plan.ofSummary o c ⟨entries, some text⟩ =
      .ok (Plan.ofInstructions o c entries instructions)) ∧
    (isDeclared = false → ∃ reason, Plan.ofSummary o c ⟨entries, some text⟩ =
      .error (.invalidArgument reason)) := by
  intro instructions isDeclared
  simp only [Plan.ofSummary, if_neg given, isDeclared]
  cases o.target with
  | none =>
    constructor
    · intro _
      rfl
    · intro undeclared
      cases undeclared
  | some stage =>
    constructor
    · intro declared
      exact if_pos declared
    · intro undeclared
      exact ⟨_, if_neg (Bool.eq_false_iff.1 undeclared)⟩

end Verdict

/-! ## What is told of it -/

/-- The line that a build tells at first if its context is known. -/
def cachedLines (content : ByteArray) (isKnown : Bool) : List String :=
  if isKnown then [Plan.cachedLine (Digest.name content)] else []

/-- The lines that a build tells of its archive, its instructions and its image. -/
def planLines (o : BuildOptions) (content : ByteArray) (entries : Nat)
    (instructions : List (List Char)) : List String :=
  Plan.contextLine content.size entries :: announced instructions ++
    ("Successfully built " ++ Digest.short (ImageId.ofContext (Digest.name content) o) ++ "\n") ::
      o.tags.map fun tag => "Successfully tagged " ++ tag ++ "\n"

theorem lines_reports (counts : List Nat) : (counts.map report).filterMap line? = [] := by
  rw [List.filterMap_map]
  exact List.filterMap_eq_nil_iff.2 fun n _ => line?_report n

theorem lines_preamble (content : ByteArray) (isKnown : Bool) :
    (preamble content isKnown).filterMap line? = cachedLines content isKnown := by
  rw [preamble, List.filterMap_cons_none (line?_report _)]
  cases isKnown with
  | false => rfl
  | true => exact List.filterMap_cons_some (line?_line _)

theorem lines_stepFrames (steps : List PlanStep) :
    (stepFrames steps).filterMap line? = steps.filterMap stepText? := by
  rw [stepFrames, List.filterMap_map]
  exact (List.filterMap_congr fun text _ => line?_line text).trans List.filterMap_some

theorem not_begins {start text : String} {a b : Char} (ha : start.toList.head? = some a)
    (hb : text.toList.head? = some b) (apart : a ≠ b) : begins start text = false := by
  obtain ⟨s, hs⟩ := List.head?_eq_some_iff.1 ha
  obtain ⟨t, ht⟩ := List.head?_eq_some_iff.1 hb
  rw [begins, hs, ht, List.isPrefixOf, beq_eq_false_iff_ne.2 apart, Bool.false_and]

theorem begins_cachedLine (digest : String) :
    begins "Sending build context" (Plan.cachedLine digest) = false ∧
      begins "Step " (Plan.cachedLine digest) = false := by
  have literal : "Using cached context ".toList.head? = some 'U' := by decide
  have longer (rest : String) : ("Using cached context " ++ rest).toList.head? = some 'U' := by
    rw [String.toList_append, List.head?_append, literal, Option.some_or]
  have first : (Plan.cachedLine digest).toList.head? = some 'U' := by
    unfold Plan.cachedLine
    generalize Digest.short digest = short
    rw [String.append_assoc]
    exact longer (short ++ "\n")
  exact ⟨not_begins (a := 'S') (by decide) first (by decide),
    not_begins (a := 'S') (by decide) first (by decide)⟩

def Return.IsInvalid (x : Return) : Prop := ∃ reason, x.result = .error (.invalidContext reason)

/-- Whether a build has announced nothing of its archive. -/
def Return.IsSilent (x : Return) : Prop :=
  ∀ text ∈ x.notes.taken.filterMap line?,
    begins "Sending build context" text = false ∧ begins "Step " text = false

variable {τ : Type} [Sink τ]

section Returns

variable {events : List (ReceptionEvent τ)} {i : Nat} {x : Return} {o : BuildOptions}
  {content : ByteArray}

theorem isInvalid_of_verdict (h : (Reception.watch events).Returns i o content x)
    (failed : ∃ reason, verdict o content = .error (.invalidContext reason)) : x.IsInvalid := by
  obtain ⟨reason, hv⟩ := failed
  refine ⟨reason, ?_⟩
  rw [(result_of_returns h).1, hv]
  rfl

/-- **A build that fails** has announced nothing. -/
theorem isSilent_of_error (h : (Reception.watch events).Returns i o content x) {e : BuildError}
    (failed : x.result = .error e) : x.IsSilent := by
  obtain ⟨counts, isKnown, ⟨-, -, -, taken⟩ | ⟨plan, -, result, -⟩⟩ := told_of_returns h
  · intro text told
    rw [taken, List.filterMap_append, lines_reports, lines_preamble, List.nil_append] at told
    cases isKnown with
    | false => cases told
    | true =>
      rw [List.mem_singleton.1 told]
      exact begins_cachedLine _
  · rw [result] at failed
    cases failed

theorem lines_of_verdict (h : (Reception.watch events).Returns i o content x) {plan : Plan}
    (planned : verdict o content = .ok plan) :
    x.result = .ok plan.id ∧ ∃ isKnown, x.notes.taken.filterMap line? =
      cachedLines content isKnown ++ plan.steps.filterMap stepText? := by
  obtain ⟨counts, isKnown, ⟨e, failed, -⟩ | ⟨plan', planned', result, taken⟩⟩ := told_of_returns h
  · rw [planned] at failed
    cases failed
  · rw [planned] at planned'
    cases planned'
    refine ⟨result, isKnown, ?_⟩
    rw [taken, List.filterMap_append, List.filterMap_append, lines_reports, lines_preamble,
      lines_stepFrames, List.nil_append]

end Returns

/-- **Looking through an archive:** after any events and among any other builds, a build that is
not cancelled and of which no frame is refused fails for its context if there is a fault anywhere
in the archive, if there is no entry at the wanted path, or if the first one is no text or has no
instructions. Otherwise the octets of the first entry at the path are all there, as many as are told
in the archive, and if the stage that is asked for is declared, the build tells the number of all
entries and the instructions of that entry, and returns the image. A build that fails has announced
nothing of this. And wherever such a build may arrive, it does return. -/
theorem inspected (events : List (ReceptionEvent τ)) (o : BuildOptions) (content : ByteArray) :
    let z := Reception.watch events
    let listing := Listing.ofArchive content
    (∀ i x, z.Returns i o content x →
      (listing.fault ≠ none → x.IsInvalid) ∧
      ((∀ e ∈ listing.entries, normalPath e.path ≠ normalPath o.dockerfile) → x.IsInvalid) ∧
      (∀ e, IsFirst o.dockerfile listing.entries e →
        (e.text? content = none → x.IsInvalid) ∧
        ∀ text, e.text? content = some text → listing.fault = none →
          let instructions := Dockerfile.instructions text.toList
          let isDeclared := o.target.all fun stage => Dockerfile.declares stage instructions
          (e.layout.read content).size = e.layout.size ∧
          (∃ m, Member.IsListedAs content m e ∧ m.toldSize = .ok e.layout.size) ∧
          (instructions = [] → x.IsInvalid) ∧
          (instructions ≠ [] → isDeclared = false →
            ∃ reason, x.result = .error (.invalidArgument reason)) ∧
          (instructions ≠ [] → isDeclared = true →
            x.result = .ok (ImageId.ofContext (Digest.name content) o) ∧
            ∃ isKnown, x.notes.taken.filterMap line? = cachedLines content isKnown ++
              planLines o content listing.entries.length instructions)) ∧
      (∀ e, x.result = .error e → x.IsSilent)) ∧
    ∀ k u writer, z.Admits k o u content writer →
      ∃ n x, (Reception.watchBuild events k o u writer n).Returns z.present.length o content x := by
  intro z listing
  refine ⟨?_, fun k u writer admits => exists_return events admits⟩
  intro i x h
  refine ⟨fun fault => isInvalid_of_verdict h (verdict_fault fault),
    fun missing => isInvalid_of_verdict h (verdict_missing missing), ?_,
    fun e failed => isSilent_of_error h failed⟩
  intro e first
  refine ⟨fun notText => isInvalid_of_verdict h (verdict_notText first notText), ?_⟩
  intro text isText faultless instructions isDeclared
  have found := verdict_text faultless first isText
  refine ⟨size_read_of_mem faultless first.mem, exists_member_of_mem first.mem, ?_, ?_, ?_⟩
  · intro empty
    exact isInvalid_of_verdict h ⟨_, found.trans (if_pos empty)⟩
  · intro given undeclared
    obtain ⟨reason, refused⟩ := (ofSummary_text o _ _ given).2 undeclared
    refine ⟨reason, ?_⟩
    rw [(result_of_returns h).1, found, refused]
    rfl
  · intro given declared
    have planned := found.trans ((ofSummary_text o _ _ given).1 declared)
    obtain ⟨result, isKnown, told⟩ := lines_of_verdict h planned
    rw [texts_ofInstructions] at told
    exact ⟨result, isKnown, told⟩

theorem isPlain_dockerfile :
    IsPlain (headerBlock "Dockerfile" "7" "2457") (Text.encode "FROM c\n").length := by
  constructor <;> decide +kernel

/-- A context with two entries at one path and another one between them. -/
def doubled : List PlainFile :=
  forked ++ [⟨headerBlock "Dockerfile" "7" "2457", Text.encode "FROM c\n", isPlain_dockerfile⟩]

/-- Of two entries at one path the first one counts, however the path is spelled, and octets that
are no archive make a build fail. -/
theorem inspected_doubled :
    let o : BuildOptions := { dockerfile := "./Dockerfile" }
    let content := (archive doubled).toByteArray
    let garbage : ByteArray := [0xAB].toByteArray
    let build (content : ByteArray) (moves : Nat) : Reception (Noted Recorder) :=
      Reception.watchBuild [.request .newest] 0 o ⟨[.chunk content], true⟩ ⟨{}, none⟩ moves
    (∃ n x isKnown, (build content n).return? 0 = some x ∧
      x.notes.taken.filterMap line? =
        cachedLines content isKnown ++ planLines o content 3 ["FROM a".toList]) ∧
    ∃ n x, (build garbage n).return? 0 = some x ∧ x.IsInvalid ∧ x.IsSilent := by
  intro o content garbage build
  constructor
  · obtain ⟨f, rest, files, path, text⟩ : ∃ f rest, doubled = f :: rest ∧
        normalPath f.path = normalPath o.dockerfile ∧
        String.fromUTF8? f.content.toByteArray = some "FROM a\n" :=
      ⟨_, _, rfl, by decide +kernel, by decide +kernel⟩
    have listed : Listing.ofArchive content = ⟨entriesFrom 0 doubled, none⟩ :=
      ofArchive_archive doubled (by decide +kernel)
    have first : IsFirst o.dockerfile (Listing.ofArchive content).entries (f.entry 0) := by
      rw [listed, files]
      exact ⟨[], _, rfl, path, nofun⟩
    have isText : (f.entry 0).text? content = some "FROM a\n" := by
      have read := read_entry f [] (archive rest)
      rw [Entry.text?, show content = ([] ++ (f.octets ++ archive rest)).toByteArray from
        congrArg (List.toByteArray <| archive ·) files]
      exact (congrArg String.fromUTF8? read).trans text
    have steps : Dockerfile.instructions "FROM a\n".toList = ["FROM a".toList] := by
      decide +kernel
    obtain ⟨n, x, returns⟩ := (inspected [.request .newest] o content).2 0 _ _
      (admits_chunk o rfl content)
    obtain ⟨-, -, found, -⟩ := (inspected _ o content).1 0 x returns
    obtain ⟨-, -, -, -, told⟩ := (found _ first).2 _ isText (by rw [listed])
    rw [steps, listed, length_entriesFrom] at told
    obtain ⟨-, isKnown, lines⟩ := told (List.cons_ne_nil _ _) rfl
    exact ⟨n, x, isKnown, returns.returns, lines⟩
  · obtain ⟨n, x, returns⟩ := (inspected [.request .newest] o garbage).2 0 _ _
      (admits_chunk o rfl garbage)
    obtain ⟨fault, -, -, silent⟩ := (inspected _ o garbage).1 0 x returns
    obtain ⟨reason, failed⟩ := fault (by decide +kernel)
    exact ⟨n, x, returns.returns, ⟨reason, failed⟩, silent _ failed⟩

end ContextEngine
end ImageBuild
