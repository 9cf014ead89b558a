import ImageBuild.Proofs.StepLines

/-!
# The line of the last instruction

A plan looks at the cancellation before each line that announces an instruction, and
nowhere after the last of these lines. The lines that tell of success come after it
(`Plan.Turns`). So a build with a look ahead has not told of success, and a build that
has told of success has announced its last instruction before (`ordered_watch`).
-/

namespace ImageBuild
namespace ContextEngine

/-- Whether a text tells that an image was built or tagged. -/
def isSuccess (text : String) : Bool :=
  begins "Successfully built" text || begins "Successfully tagged" text

/-- Whether a frame is a line that tells of success. -/
def tellsSuccess (f : Frame) : Bool := (line? f).any isSuccess

/-- The line of an instruction that is the last one: `Step N/N`. -/
def IsLastStep (text : String) : Prop :=
  ∃ n instruction, text = Plan.stepLine (n + 1) n instruction

/-! ## Which texts tell of success -/

theorem tellsSuccess_line (text : String) :
    tellsSuccess (Message.line text).frame = isSuccess text := by
  rw [tellsSuccess, line?_line]
  rfl

theorem tellsSuccess_report (n : Nat) : tellsSuccess (report n) = false := by
  rw [tellsSuccess, line?_report]
  rfl

theorem isSuccess_append {a : String} (long : "Su".toList.length ≤ a.toList.length)
    (other : begins "Su" a = false) (b : String) : isSuccess (a ++ b) = false := by
  have begun : begins "Su" (a ++ b) = false := (begins_longer long b).trans other
  have start {s : String} (hs : "Su".toList <+: s.toList) : begins s (a ++ b) = false := by
    refine Bool.eq_false_iff.2 fun h => ?_
    have whole := hs.trans (List.isPrefixOf_iff_prefix.1 h)
    rw [begins, List.isPrefixOf_iff_prefix.2 whole] at begun
    cases begun
  exact Bool.or_eq_false_iff.2 ⟨start (by decide), start (by decide)⟩

theorem isSuccess_contextLine (size entries : Nat) :
    isSuccess (Plan.contextLine size entries) = false := by
  have long : "Su".toList.length ≤ "Sending build context to builder ".toList.length := by
    decide
  unfold Plan.contextLine
  generalize Text.ByteSize.text size = size
  simp only [String.append_assoc]
  exact isSuccess_append long (by decide) _

theorem isSuccess_stepLine (total i : Nat) (x : List Char) :
    isSuccess (Plan.stepLine total i x) = false := by
  have long : "Su".toList.length ≤ "Step ".toList.length := by decide
  simp only [Plan.stepLine, String.append_assoc]
  exact isSuccess_append long (by decide) _

theorem isSuccess_cachedLine (digest : String) : isSuccess (Plan.cachedLine digest) = false := by
  have long : "Su".toList.length ≤ "Using cached context ".toList.length := by decide
  unfold Plan.cachedLine
  generalize Digest.short digest = name
  rw [String.append_assoc]
  exact isSuccess_append long (by decide) _

/-! ## Where a plan turns to success -/

/-- **A plan turns** at the line of its last instruction: before it nothing tells of success,
and after it nobody looks at the cancellation. -/
structure Turns (steps front : List PlanStep) (last : String) (tail : List PlanStep) : Prop where
  steps_eq : steps = (front ++ [.check]) ++ .line last :: tail
  isLast : IsLastStep last
  early : ∀ text, .line text ∈ front → isSuccess text = false
  unseen : .check ∉ tail

theorem turns_ofInstructions (o : BuildOptions) (c : ReceivedContext) (entries : Nat)
    {instructions : List (List Char)} (h : instructions ≠ []) :
    ∃ front last tail,
      Turns (Plan.ofInstructions o c entries instructions).steps front last tail := by
  obtain ⟨xs, x, rfl⟩ := List.eq_nil_or_concat' instructions |>.resolve_left h
  let announce (y : List Char × Nat) : List PlanStep :=
    [.check, .line (Plan.stepLine (xs.length + 1) y.2 y.1)]
  refine ⟨.line (Plan.contextLine c.size entries) :: xs.zipIdx.flatMap announce,
    Plan.stepLine (xs.length + 1) xs.length x,
    .line ("Successfully built " ++ Digest.short (ImageId.ofContext c.digest o) ++ "\n") ::
      o.tags.map fun tag => .line ("Successfully tagged " ++ tag ++ "\n"), ?_, ⟨_, _, rfl⟩, ?_, ?_⟩
  · simp only [Plan.ofInstructions, Plan.instructionSteps, List.zipIdx_append, List.flatMap_append,
      List.length_append, List.length_singleton, List.zipIdx_singleton, List.flatMap_singleton,
      Nat.zero_add, announce]
    simp only [List.cons_append, List.append_assoc, List.nil_append]
  · intro text mem
    rcases List.mem_cons.1 mem with he | mem
    · cases he
      exact isSuccess_contextLine ..
    · obtain ⟨y, -, hy⟩ := List.mem_flatMap.1 mem
      simp only [announce, List.mem_cons, List.not_mem_nil, or_false, reduceCtorEq, false_or] at hy
      cases hy
      exact isSuccess_stepLine ..
  · simp

namespace Turns

variable {steps past rest front tail : List PlanStep} {last text : String}

theorem cases_of_append (h : Turns (past ++ steps) front last tail) :
    (∃ m, front ++ [.check] = past ++ m ∧ steps = m ++ .line last :: tail) ∨
      ∃ m, past = front ++ [.check] ++ m ∧ .line last :: tail = m ++ steps :=
  List.append_eq_append_iff.1 h.steps_eq

theorem of_no_check (h : Turns (past ++ steps) front last tail) (none : .check ∉ steps) :
    .line last ∈ past ∨ ∃ rest, steps = .line last :: rest := by
  rcases h.cases_of_append with ⟨m, hm, rfl⟩ | ⟨m, rfl, hm⟩
  · rcases List.eq_nil_or_concat' m with rfl | ⟨m, s, rfl⟩
    · exact .inr ⟨tail, rfl⟩
    · -- the look before that line would be ahead
      rw [← List.append_assoc] at hm
      have look : PlanStep.check = s := (List.append_inj' hm rfl).2 |> List.singleton_inj.1
      simp [← look] at none
  · cases m with
    | nil => exact .inr ⟨tail, hm.symm⟩
    | cons s m =>
      obtain ⟨rfl, -⟩ := List.cons.inj hm
      exact .inl (by simp)

theorem not_isSuccess (h : Turns (past ++ .line text :: rest) front last tail)
    (look : .check ∈ rest) : isSuccess text = false := by
  rcases h.cases_of_append with ⟨m, hm, hs⟩ | ⟨m, rfl, hm⟩
  · cases m with
    | nil =>
      obtain ⟨-, rfl⟩ := List.cons.inj hs
      exact absurd look h.unseen
    | cons s m =>
      obtain ⟨rfl, -⟩ := List.cons.inj hs
      have mem : .line text ∈ front ++ [.check] := by simp [hm]
      exact h.early text (by simpa using mem)
  · have late : .check ∈ PlanStep.line last :: tail := by
      rw [hm]
      exact List.mem_append_right _ (List.mem_cons_of_mem _ look)
    exact absurd ((List.mem_cons.1 late).resolve_left (by simp)) h.unseen

/-- **A line that tells of success** comes after that of the last instruction. -/
theorem mem_of_isSuccess (h : Turns (past ++ .line text :: rest) front last tail)
    (success : isSuccess text = true) : .line last ∈ past := by
  have ne : text ≠ last := by
    rintro rfl
    obtain ⟨n, x, rfl⟩ := h.isLast
    rw [isSuccess_stepLine] at success
    cases success
  rcases h.cases_of_append with ⟨m, hm, hs⟩ | ⟨m, rfl, hm⟩
  · cases m with
    | nil =>
      obtain ⟨he, -⟩ := List.cons.inj hs
      cases he
      exact absurd rfl ne
    | cons s m =>
      obtain ⟨rfl, -⟩ := List.cons.inj hs
      have mem : .line text ∈ front ++ [.check] := by simp [hm]
      rw [h.early text (by simpa using mem)] at success
      cases success
  · cases m with
    | nil =>
      obtain ⟨he, -⟩ := List.cons.inj hm
      cases he
      exact absurd rfl ne
    | cons s m =>
      obtain ⟨rfl, -⟩ := List.cons.inj hm
      simp

end Turns

/-- Every plan that a build follows turns somewhere. -/
theorem turns_of_verdict {o : BuildOptions} {content : ByteArray} {plan : Plan}
    (h : verdict o content = .ok plan) : ∃ front last tail, Turns plan.steps front last tail := by
  have given : ∀ summary text, Archive.Summary.ofArchive o.dockerfile content = .ok summary →
      summary.file = some text → Dockerfile.instructions text.toList ≠ [] := by
    intro summary text hs ht none
    simp [verdict, hs, Plan.ofSummary, ht, none] at h
  obtain ⟨summary, text, hs, ht, rfl⟩ := plan_of_verdict h
  exact turns_ofInstructions o _ _ (given summary text hs ht)

theorem mem_stepFrames {steps : List PlanStep} {text : String} (h : .line text ∈ steps) :
    (Message.line text).frame ∈ stepFrames steps := by
  have mem : text ∈ steps.filterMap stepText? := List.mem_filterMap.2 ⟨_, h, rfl⟩
  exact List.mem_map_of_mem mem

/-! ## The order of what is told -/

/-- Whether the line of a last instruction is among frames. -/
def AnnouncesLast (frames : List Frame) : Prop :=
  ∃ text, IsLastStep text ∧ (Message.line text).frame ∈ frames

/-- Success is told after the last instruction was announced. -/
def Ordered (frames : List Frame) : Prop :=
  (∃ f ∈ frames, tellsSuccess f = true) → AnnouncesLast frames

theorem AnnouncesLast.append {frames : List Frame} (h : AnnouncesLast frames)
    (more : List Frame) : AnnouncesLast (frames ++ more) := by
  obtain ⟨text, last, mem⟩ := h
  exact ⟨text, last, List.mem_append_left _ mem⟩

theorem Ordered.add {n : Notes} (h : Ordered n.taken) {f : Frame}
    (turn : tellsSuccess f = true → AnnouncesLast n.taken) (sent : Sent) :
    Ordered (n.add f sent).taken := by
  cases sent with
  | accepted =>
    rintro ⟨g, mem, success⟩
    refine AnnouncesLast.append ?_ [f]
    rcases List.mem_append.1 mem with mem | mem
    · exact h ⟨g, mem, success⟩
    · rw [List.mem_singleton.1 mem] at success
      exact turn success
  | blocked => exact h
  | failed e => exact h

variable {τ : Type} [Sink τ]

/-- The frame that a phase writes, if it writes one. -/
def Phase.frame? (p : Phase) (d : Desk Store (Noted τ)) : Option Frame :=
  match p with
  | .reporting .. | .totalling _ => some (report (received d))
  | .noting c => some (Message.line (Plan.cachedLine c.digest)).frame
  | .telling _ _ (.line text :: _) _ => some (Message.line text).frame
  | _ => none

theorem notes_offer (d : Desk Store (Noted τ)) (m : Message) (next : Phase)
    (failed : SinkError → Phase) :
    ∃ sent, (d.offer m.frame next fun e =>
        (.go (failed e) : Move Phase (Except BuildError String))).2.writer.notes =
      d.writer.notes.add m.frame sent := by
  rcases d.noted_offer m.frame_ne_nil next
    (fun e => (.go (failed e) : Move Phase (Except BuildError String)))
    with ⟨d', moved, -, -, notes⟩ | ⟨d', moved, -, -, notes⟩ | ⟨e, d', moved, -, -, notes⟩ <;>
    rw [moved]
  · exact ⟨.accepted, notes⟩
  · exact ⟨.blocked, notes⟩
  · exact ⟨.failed e, notes⟩

theorem notes_receive (token : Token) (file threshold : Nat) (d : Desk Store (Noted τ)) :
    (receive token file threshold d).2.writer.notes = d.writer.notes := by
  rcases receive_cases token file threshold d with
    ⟨-, h⟩ | ⟨-, h⟩ | ⟨s, -, ⟨-, h⟩ | ⟨-, h⟩⟩ <;> rw [h]
  exact d.notes_take s

/-- **A move** writes the frame of its phase, or nothing. -/
theorem Phase.notes_move (token : Token) (o : BuildOptions) (p : Phase) (d : Desk Store (Noted τ)) :
    (p.move token o d).2.writer.notes = d.writer.notes ∨
      ∃ f sent, p.frame? d = some f ∧
        (p.move token o d).2.writer.notes = d.writer.notes.add f sent := by
  have offered (m : Message) (next : Phase) (failed : SinkError → Phase)
      (hf : p.frame? d = some m.frame)
      (hm : p.move token o d = d.offer m.frame next fun e => .go (failed e)) :
      ∃ f sent, p.frame? d = some f ∧
        (p.move token o d).2.writer.notes = d.writer.notes.add f sent := by
    obtain ⟨sent, notes⟩ := notes_offer d m next failed
    exact ⟨m.frame, sent, hf, hm ▸ notes⟩
  cases p with
  | receiving file threshold => exact .inl (notes_receive token file threshold d)
  | reporting | totalling | noting => exact .inr (offered _ _ _ rfl rfl)
  | looking file =>
    left
    simp only [Phase.move]
    split <;> exact d.notes_dropSource
  | telling c isKnown steps id =>
    cases steps with
    | nil => exact .inl rfl
    | cons step rest =>
      cases step with
      | check => exact .inl rfl
      | line text => exact .inr (offered _ _ _ rfl rfl)
  | opening | writing | flushing | inspecting | concluding | discarding | leaving =>
    exact .inl rfl

/-- **A move keeps the order** of what is told. -/
theorem Phase.Tells.ordered {p : Phase} {o : BuildOptions} {u : Upload} {faults : List String}
    {isCancelled : Bool} {d : Desk Store (Noted τ)}
    (h : p.Tells o u d.writer.notes faults isCancelled)
    (ordered : Ordered d.writer.notes.taken) (token : Token) :
    Ordered (p.move token o d).2.writer.notes.taken := by
  rcases p.notes_move token o d with notes | ⟨f, sent, hf, notes⟩ <;> rw [notes]
  · exact ordered
  · refine ordered.add (fun success => ?_) sent
    cases p with
    | reporting | totalling =>
      cases hf
      rw [tellsSuccess_report] at success
      cases success
    | noting c =>
      cases hf
      rw [tellsSuccess_line, isSuccess_cachedLine] at success
      cases success
    | telling c isKnown steps id =>
      obtain ⟨plan, past, hplan, -, hs, told⟩ := h
      match steps with
      | .line text :: rest =>
        cases hf
        rw [tellsSuccess_line] at success
        obtain ⟨front, last, tail, turns⟩ := turns_of_verdict hplan
        rw [hs] at turns
        obtain ⟨counts, taken⟩ := told.taken
        refine ⟨last, turns.isLast, ?_⟩
        rw [taken]
        have mem := mem_stepFrames (turns.mem_of_isSuccess success)
        exact List.mem_append_right _ (List.mem_append_right _ mem)
    | _ => cases hf

/-- What a build that is at a watched reception has told is in order. -/
def Reception.Ordered (z : Reception (Noted τ)) : Prop :=
  ∀ (i : Nat) (seat : Seat (Noted τ)) (v : Visit), z.floor.seats[i]? = some seat →
    z.present[i]? = some v → ContextEngine.Ordered seat.writer.notes.taken

theorem Seat.Tells.ordered {y : Floor (Noted τ)} {seat : Seat (Noted τ)} {v : Visit}
    (h : seat.Tells y.workshop.tokens v) (ordered : Ordered seat.writer.notes.taken) :
    Ordered (seat.job.move (y.desk seat)).2.writer.notes.taken := by
  obtain ⟨job, source, writer⟩ := seat
  cases job with
  | arriving context o =>
    have unwritten : ((Job.arriving context o).move (y.desk ⟨.arriving context o, source,
        writer⟩)).2.writer = writer := by
      simp only [Job.move, arrive_eq]
      split <;> rfl
    rw [unwritten]
    exact ordered
  | running token o p =>
    obtain ⟨u, -, tells⟩ := h
    have moved := tells.ordered (d := y.desk ⟨.running token o p, source, writer⟩) ordered token
    simp only [Job.move]
    rcases hp : p.move token o (y.desk ⟨.running token o p, source, writer⟩) with ⟨m, d⟩
    rw [hp] at moved
    cases m <;> exact moved

theorem Reception.Ordered.step {z : Reception (Noted τ)} (h : z.Ordered) (recorded : Recorded z)
    (tells : z.Tells) (e : ReceptionEvent τ) : (z.step (z.noting e)).Ordered := by
  intro j seat v hs hv
  have comes := comes_step recorded.seated hs hv
  clear hs hv
  cases comes with
  | arrive he hx =>
    obtain ⟨w, rfl⟩ := Reception.writer_of_noting he
    rintro ⟨f, mem, -⟩
    rw [w.notes_noting] at mem
    cases mem
  | stay hs hv => exact h _ _ _ hs hv
  | go hs hv he hm =>
    have moved := (tells _ _ _ hs hv).ordered (h _ _ _ hs hv)
    rwa [hm] at moved
  | wait hs hv he hm =>
    have moved := (tells _ _ _ hs hv).ordered (h _ _ _ hs hv)
    rwa [hm] at moved
  | @feed i seat v _ hs hv => exact h i seat v hs hv
  | @complete i seat v hs hv => exact h i seat v hs hv
  | respond hs hv he =>
    have notes := Writer.notes_respond _ (Reception.notes_of_noting he hs)
    rw [notes]
    exact h _ _ _ hs hv

/-- **Success is told last**, by every build of every watched reception. -/
theorem ordered_watch (events : List (ReceptionEvent τ)) : (Reception.watch events).Ordered := by
  induction events using List.reverseRecOn with
  | nil => rintro i seat v ⟨⟩
  | append_singleton events e ih =>
    rw [Reception.watch_snoc]
    exact ih.step (Reception.recorded_watch events) (tells_watch events) e

end ContextEngine
end ImageBuild
