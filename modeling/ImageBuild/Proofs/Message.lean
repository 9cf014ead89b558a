import ImageBuild.BuildError
import ImageBuild.Message
import ImageBuild.Proofs.Json.Reads

/-!
# Frames are read back

A message whose payload can be read back is read back from its frame
(`reads_print`), and the messages of a sequence of frames are read back in their
order (`ofFrames?_frames`). The payload that names an image can be read back
whatever the identifier is.
-/

namespace ImageBuild

open Json Reader Shape

namespace Message

theorem Transfer.reads_print (t : Transfer) : Transfer.shape.reader.Reads t.print t := by
  refine reads_object t (given "total" t.total ++ ["current"]) ?_ ?_
  · have current := folds_field (k := Transfer.shape) { current := 0 } [] "current" rfl (by simp)
      (reads_u64 t.current)
    have total := folds_field? (k := Transfer.shape) { current := t.current } ["current"] "total"
      t.total rfl (by simp) (fun v _ => ⟨reads_u64 v, isGiven_nat _⟩) rfl
    exact current.append total
  · cases t.total <;> rfl

theorem ErrorDetail.reads_print (d : ErrorDetail) :
    ErrorDetail.shape.reader.Reads d.print d := by
  refine reads_object d ("message" :: (given "code" d.code ++ [])) ?_ ?_
  · have code := folds_field? (k := ErrorDetail.shape) { message := "" } [] "code" d.code rfl
      (by simp) (fun v _ => ⟨reads_u16 v, isGiven_nat _⟩) rfl
    exact code.append (folds_field (k := ErrorDetail.shape) _ _ "message" rfl (by simp)
      (reads_string d.message))
  · cases d.code <;> rfl

def members (m : Message) : List (String × Octets) :=
  Json.Print.field? "stream" Json.Print.string m.stream ++
    Json.Print.field? "status" Json.Print.string m.status ++
    Json.Print.field? "id" Json.Print.string m.id ++
    Json.Print.field? "progressDetail" Transfer.print m.progressDetail ++
    Json.Print.field? "progress" Json.Print.string m.progress ++
    Json.Print.field? "errorDetail" ErrorDetail.print m.errorDetail ++
    Json.Print.field? "error" Json.Print.string m.error

theorem print_eq (m : Message) :
    m.print = Json.Print.object
      (m.members ++ Json.Print.field? "aux" Json.Value.print m.aux) := rfl

theorem folds_members (m : Message) :
    ∃ names, "aux" ∉ names ∧
      Folds shape.take (shape.initial, []) m.members ({ m with aux := none }, names) := by
  have string {s : String} : Reader.string.Reads (Print.string s) s ∧ IsGiven (Print.string s) :=
    ⟨reads_string s, isGiven_string s⟩
  -- what has been read after each field, and the names that were given
  let m₁ : Message := { stream := m.stream }
  let m₂ : Message := { m₁ with status := m.status }
  let m₃ : Message := { m₂ with id := m.id }
  let m₄ : Message := { m₃ with progressDetail := m.progressDetail }
  let m₅ : Message := { m₄ with progress := m.progress }
  let m₆ : Message := { m₅ with errorDetail := m.errorDetail }
  let names₁ := given "stream" m.stream ++ []
  let names₂ := given "status" m.status ++ names₁
  let names₃ := given "id" m.id ++ names₂
  let names₄ := given "progressDetail" m.progressDetail ++ names₃
  let names₅ := given "progress" m.progress ++ names₄
  let names₆ := given "errorDetail" m.errorDetail ++ names₅
  have stream := folds_field? (k := shape) {} [] "stream" m.stream rfl (by simp)
    (fun _ _ => string) rfl
  have status := folds_field? (k := shape) m₁ names₁ "status" m.status rfl (by simp [names₁])
    (fun _ _ => string) rfl
  have id := folds_field? (k := shape) m₂ names₂ "id" m.id rfl (by simp [names₂, names₁])
    (fun _ _ => string) rfl
  have detail := folds_field? (k := shape) m₃ names₃ "progressDetail" m.progressDetail rfl
    (by simp [names₃, names₂, names₁]) (fun t _ => ⟨t.reads_print, isGiven_object _⟩) rfl
  have progress := folds_field? (k := shape) m₄ names₄ "progress" m.progress rfl
    (by simp [names₄, names₃, names₂, names₁]) (fun _ _ => string) rfl
  have errorDetail := folds_field? (k := shape) m₅ names₅ "errorDetail" m.errorDetail rfl
    (by simp [names₅, names₄, names₃, names₂, names₁])
    (fun d _ => ⟨d.reads_print, isGiven_object _⟩) rfl
  have error := folds_field? (k := shape) m₆ names₆ "error" m.error rfl
    (by simp [names₆, names₅, names₄, names₃, names₂, names₁]) (fun _ _ => string) rfl
  refine ⟨given "error" m.error ++ names₆, ?_, ?_⟩
  · simp [names₆, names₅, names₄, names₃, names₂, names₁]
  · exact (((((stream.append status).append id).append detail).append progress).append
      errorDetail).append error

def IsReadable (m : Message) : Prop :=
  ∀ v ∈ m.aux, (value payloadDepth).Reads v.print v ∧ IsGiven v.print

/-- **A message** is read back from its text. -/
theorem reads_print {m : Message} (h : m.IsReadable) : shape.reader.Reads m.print m := by
  obtain ⟨names, once, before⟩ := m.folds_members
  have aux := folds_field? (k := shape) { m with aux := none } names "aux" m.aux rfl once h rfl
  rw [print_eq]
  exact reads_object m _ (before.append aux) rfl

/-- **A single frame** is read back. -/
theorem ofFrame?_frame {m : Message} (h : m.IsReadable) : ofFrame? m.frame = some m := by
  unfold ofFrame? frame Reader.parse
  rw [reads_print h [0x0A] (ends_cons (by decide))]
  rfl

/-! ## Sequences of frames -/

theorem isGiven_print (m : Message) : IsGiven m.print := isGiven_object _

def frames (ms : List Message) : Octets := ms.flatMap frame

theorem frames_append (ms ns : List Message) : frames (ms ++ ns) = frames ms ++ frames ns := by
  simp [frames]

/-- **The first frame** of a sequence. -/
theorem ofFrames?_frame {m : Message} (h : m.IsReadable) (s : Octets) :
    ofFrames? (m.frame ++ s) = (ofFrames? s).map (m :: ·) := by
  unfold ofFrames? frame
  rw [List.append_assoc, List.singleton_append,
    stream_append (reads_print h) m.isGiven_print (ends_cons (by decide)),
    stream_blank (passesBlanks_shape shape) (by decide)]

/-- **A sequence of frames** is read back. -/
theorem ofFrames?_frames {ms : List Message} (h : ∀ m ∈ ms, m.IsReadable) :
    ofFrames? (frames ms) = .ok ms := by
  induction ms with
  | nil =>
    show shape.reader.stream [] = .ok []
    rw [Reader.stream]
    rfl
  | cons m ms ih =>
    have hms := ih fun n hn => h n (List.mem_cons_of_mem _ hn)
    show ofFrames? (m.frame ++ frames ms) = _
    rw [ofFrames?_frame (h m (List.mem_cons_self ..)), hms]
    rfl

/-! ## The messages of a build -/

theorem isReadable_of_aux_eq_none {m : Message} (h : m.aux = none) : m.IsReadable := by
  intro v hv
  rw [h] at hv
  cases hv

/-- **An identifier** can be read back, whatever its characters are. -/
theorem isReadable_imageId (id : String) : (imageId id).IsReadable := by
  rintro _ ⟨⟩
  refine ⟨?_, isGiven_object _⟩
  refine reads_value_object (d := Dict.empty.insert "ID" (.string id)) ?_
  exact .cons rfl ((reads_value_string _ id).map _) .nil

@[simp] theorem kind_line (text : String) : (line text).kind = .progress := rfl

@[simp] theorem kind_imageId (id : String) : (imageId id).kind = .success id := rfl

@[simp] theorem kind_failure (text : String) : (failure text).kind = .error text := rfl

/-- The message that tells how a build ended. -/
def ofResult : Except BuildError String → Message
  | .ok id => imageId id
  | .error e => failure e.message

theorem isReadable_ofResult (result : Except BuildError String) : (ofResult result).IsReadable := by
  cases result with
  | ok id => exact isReadable_imageId id
  | error e => exact isReadable_of_aux_eq_none rfl

end Message
end ImageBuild
