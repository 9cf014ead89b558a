import ImageBuild.Proofs.Json.Delimited
import ImageBuild.Proofs.Message

/-!
# Frames in chunks

What is decoded of a buffer does not depend on what follows it (`ofFrames?_append`): a message
ends with its last bracket, whoever wrote it, and so do the records inside it. A client that
cuts a response between frames decodes its chunks to the messages of the whole.
-/

namespace ImageBuild.Message

open Json Reader

/-! ## Readers of records -/

theorem isSteady_u64 : u64.IsSteady := isSteady_integer _ _

theorem isSteady_u16 : u16.IsSteady := isSteady_integer _ _

theorem Transfer.isClosed_reader : Transfer.shape.reader.IsClosed := by
  apply Shape.isClosed_reader
  simp only [Transfer.shape, List.forall_mem_cons]
  exact ⟨isSteady_field isSteady_u64, isSteady_field isSteady_u64.option, List.forall_mem_nil _⟩

theorem ErrorDetail.isClosed_reader : ErrorDetail.shape.reader.IsClosed := by
  apply Shape.isClosed_reader
  simp only [ErrorDetail.shape, List.forall_mem_cons]
  exact ⟨isSteady_field isSteady_u16.option, isSteady_field isClosed_string.isSteady,
    List.forall_mem_nil _⟩

/-- **A message** ends with its last bracket. -/
theorem isClosed_reader : shape.reader.IsClosed := by
  have text : (Reader.option string).IsSteady := isClosed_string.isSteady.option
  have transfer := Transfer.isClosed_reader.isSteady.option
  have detail := ErrorDetail.isClosed_reader.isSteady.option
  have payload := (isSteady_value payloadDepth).option
  apply Shape.isClosed_reader
  simp only [shape, List.forall_mem_cons]
  exact ⟨isSteady_field text, isSteady_field text, isSteady_field text, isSteady_field transfer,
    isSteady_field text, isSteady_field detail, isSteady_field text, isSteady_field payload,
    List.forall_mem_nil _⟩

/-! ## Chunks -/

/-- The messages of chunks that are decoded one after another. -/
def ofChunks? : List Octets → Except Fault (List Message)
  | [] => .ok []
  | c :: chunks =>
    match ofFrames? c with
    | .error f => .error f
    | .ok x => (ofChunks? chunks).map (x ++ ·)

/-- **Decoding distributes over concatenation:** behind a buffer that is decoded, any octets
are decoded as they are alone, with the same fault if they are not. So a response that is cut
behind such buffers is decoded chunk by chunk as it is at once. -/
theorem ofFrames?_append :
    (∀ a b x, ofFrames? a = .ok x → ofFrames? (a ++ b) = (ofFrames? b).map (x ++ ·)) ∧
      ∀ chunks b, (∀ c ∈ chunks, ∃ x, ofFrames? c = .ok x) →
        ofFrames? (chunks.flatten ++ b) = ofChunks? (chunks ++ [b]) := by
  have apart (a b : Octets) (x : List Message) (h : ofFrames? a = .ok x) :
      ofFrames? (a ++ b) = (ofFrames? b).map (x ++ ·) := stream_extend isClosed_reader h b
  refine ⟨apart, ?_⟩
  intro chunks b decoded
  induction chunks with
  | nil =>
    rw [List.flatten_nil, List.nil_append, List.nil_append, ofChunks?]
    cases ofFrames? b with
    | error f => rfl
    | ok x => exact congrArg Except.ok (List.append_nil x).symm
  | cons c chunks ih =>
    obtain ⟨⟨x, hx⟩, later⟩ := List.forall_mem_cons.1 decoded
    rw [List.flatten_cons, List.append_assoc, apart c _ x hx, ih later, List.cons_append,
      ofChunks?, hx]

/-- A message that is an array, with blanks around it, and an object that ends without a
newline: behind them a frame is decoded, and then one that is cut short is not. -/
theorem ofFrames?_append_unwritten :
    let a := Text.encode
      "\r\n [ \"a\\u0041\", null] \x7b\"aux\":[-1.5e3,\x7b\x7d],\"id\":null\x7d"
    let cut := Text.encode "\x7b\"id\":\"0\""
    ∃ x, ofFrames? a = .ok x ∧ x.map (·.stream) = [some "aA", none] ∧
      ofFrames? (a ++ (line "0").frame) = .ok (x ++ [line "0"]) ∧
      ofFrames? ([a, (line "0").frame].flatten ++ cut) =
        ofChunks? [a, (line "0").frame, cut] ∧
      (ofChunks? [a, (line "0").frame, cut]).isOk = false := by
  intro a cut
  have streams : (ofFrames? a).toOption.map (·.map (·.stream)) = some [some "aA", none] := by
    decide +kernel
  have frame : ofFrames? (line "0").frame = .ok [line "0"] := by
    have readable : (line "0").IsReadable := isReadable_of_aux_eq_none rfl
    have read := ofFrames?_frames (List.forall_mem_singleton.2 readable)
    rwa [frames, List.flatMap_singleton] at read
  cases hx : ofFrames? a with
  | error f =>
    rw [hx] at streams
    cases streams
  | ok x =>
    rw [hx] at streams
    refine ⟨x, rfl, Option.some.inj streams, ?_, ?_, by decide +kernel⟩
    · rw [ofFrames?_append.1 a _ x hx, frame]
      rfl
    · refine ofFrames?_append.2 [a, (line "0").frame] cut ?_
      exact List.forall_mem_cons.2 ⟨⟨x, hx⟩, List.forall_mem_singleton.2 ⟨_, frame⟩⟩

end ImageBuild.Message
