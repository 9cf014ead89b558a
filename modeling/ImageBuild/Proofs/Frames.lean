import ImageBuild.Proofs.Json.Values
import ImageBuild.Proofs.Message

/-!
# Frames with blanks between them

Frames may lose their newlines and gain blanks between them, and their messages are
still read back in their order (`ofFrames?_spaced`): a message ends with its last bracket,
so no newline is needed to tell where the next one begins. A payload may be any value that
the reader goes deep enough for; one that is a null is read back as no payload, and the
message tells the same about the build without it.
-/

namespace ImageBuild

open Json Reader Shape

/-! ## Blanks -/

namespace Json

theorem isPart_of_isBlank {b : UInt8} (h : isBlank b = true) : Numeral.isPart b = false := by
  simp only [isBlank, Bool.or_eq_true, beq_iff_eq] at h
  rcases h with ((rfl | rfl) | rfl) | rfl <;> rfl

theorem ends_append {gap s : Octets} (h : gap.all isBlank = true) (hs : Ends s) :
    Ends (gap ++ s) := by
  cases gap with
  | nil => exact hs
  | cons b gap => exact ends_cons (isPart_of_isBlank (List.all_eq_true.1 h b (List.mem_cons_self ..)))

end Json

namespace Message

/-! ## Payloads -/

/-- The payload that is read back: a null stands for none. -/
def given? : Option Value → Option Value
  | some .null => none
  | aux => aux

/-- **A message as it is read back.** -/
def asRead (m : Message) : Message := { m with aux := given? m.aux }

/-- Whether the payload of a message, if there is one, is within the depth of the reader. -/
def fits (m : Message) : Bool := m.aux.all (·.fits payloadDepth)

/-- **The reader's view** of a message tells the same about the build. -/
theorem kind_asRead (m : Message) : m.asRead.kind = m.kind := by
  obtain ⟨-, -, -, -, -, detail, error, aux⟩ := m
  cases aux with
  | none => rfl
  | some v => cases v <;> rfl

theorem isReadable_of_fits {m : Message} (h : m.fits = true) (hn : m.aux ≠ some .null) :
    m.IsReadable := by
  intro v hv
  have fits : v.fits payloadDepth = true := by
    rw [Option.mem_def] at hv
    rwa [Message.fits, hv] at h
  obtain ⟨b, t, hb, blank, -, null⟩ := Value.begins_print fits
  refine ⟨Value.reads_print fits, b, t, hb, blank, ?_⟩
  intro hb
  exact hn (null hb ▸ hv)

/-- **A message with any payload** is read back from its text. -/
theorem reads_print_asRead {m : Message} (h : m.fits = true) :
    shape.reader.Reads m.print m.asRead := by
  by_cases hn : m.aux = some .null
  · obtain ⟨names, once, before⟩ := m.folds_members
    have aux := folds_field (k := shape) { m with aux := none } names "aux" rfl once
      (reads_null_option (value payloadDepth))
    have same : m.asRead = { m with aux := none } := by rw [asRead, hn]; rfl
    rw [print_eq, hn, same]
    exact reads_object _ _ (before.append aux) rfl
  · have same : m.asRead = m := by
      have kept : given? m.aux = m.aux := by
        unfold given?
        split
        · next h => exact absurd h hn
        · rfl
      rw [asRead, kept]
    rw [same]
    exact reads_print (isReadable_of_fits h hn)

/-! ## Spaced frames -/

/-- A message on its way: its frame with or without the newline, and blanks behind it. -/
structure Spaced where
  message : Message
  newline : Bool := true
  blanks : Octets := []
  all_blank : blanks.all isBlank = true := by decide

namespace Spaced

/-- What is sent of a message. -/
def octets (x : Spaced) : Octets :=
  (if x.newline then x.message.frame else x.message.frame.dropLast) ++ x.blanks

/-- What stands between the text of a message and the next one. -/
def gap (x : Spaced) : Octets := (if x.newline then [0x0A] else []) ++ x.blanks

theorem octets_eq (x : Spaced) : x.octets = x.message.print ++ x.gap := by
  unfold octets gap frame
  cases x.newline <;> simp

theorem all_isBlank_gap (x : Spaced) : x.gap.all isBlank = true := by
  have newline : isBlank 0x0A = true := by decide
  unfold gap
  cases x.newline <;> simp [newline, x.all_blank, -List.all_eq_true]

theorem ends_octets (xs : List Spaced) : Ends (xs.flatMap octets) := by
  cases xs with
  | nil =>
    intro b hb
    cases hb
  | cons x xs =>
    rw [List.flatMap_cons, octets_eq]
    exact ends_cons (by decide)

end Spaced

/-- **The frames of any messages**, with or without their newlines and with blanks between
them, are read back in their order. Only a payload that is a null is not read back, and what a
message tells about the build stays the same. -/
theorem ofFrames?_spaced (xs : List Spaced) (h : ∀ x ∈ xs, x.message.fits = true) :
    ofFrames? (xs.flatMap Spaced.octets) = .ok (xs.map (·.message.asRead)) ∧
      ∀ x ∈ xs, x.message.asRead.kind = x.message.kind := by
  refine ⟨?_, fun x _ => x.message.kind_asRead⟩
  induction xs with
  | nil =>
    show shape.reader.stream [] = .ok []
    rw [Reader.stream]
    rfl
  | cons x xs ih =>
    have first := reads_print_asRead (h x (List.mem_cons_self ..))
    have later := ih fun y hy => h y (List.mem_cons_of_mem _ hy)
    have ends : Ends (x.gap ++ xs.flatMap Spaced.octets) :=
      ends_append x.all_isBlank_gap (Spaced.ends_octets xs)
    rw [List.flatMap_cons, Spaced.octets_eq, List.append_assoc]
    calc ofFrames? (x.message.print ++ (x.gap ++ xs.flatMap Spaced.octets))
      _ = (ofFrames? (x.gap ++ xs.flatMap Spaced.octets)).map (x.message.asRead :: ·) :=
        stream_append first x.message.isGiven_print ends
      _ = (ofFrames? (xs.flatMap Spaced.octets)).map (x.message.asRead :: ·) := by
        unfold ofFrames?
        rw [stream_blanks (passesBlanks_shape shape) x.all_isBlank_gap]
      _ = .ok ((x :: xs).map (·.message.asRead)) := by
        rw [later]
        rfl

/-- Three messages with one newline among them: the payload of the second one is nested and
has the smallest and the largest integer, and that of the third one is a null. -/
theorem ofFrames?_spaced_back_to_back :
    let nested : Value :=
      .object [("ID", .string "\"0\"\u0000"),
        ("sizes", .array [.number (.whole ⟨-0x8000000000000000, by decide, by decide⟩), .null,
          .array [.number (.whole ⟨0xFFFFFFFFFFFFFFFF, by decide, by decide⟩), .object []]])]
    let transfer : Transfer := ⟨0xFFFFFFFFFFFFFFFF, some 0⟩
    let detail : ErrorDetail := ⟨some 0xFFFF, "no \\ \u001F"⟩
    let xs : List Spaced :=
      [{ message := { stream := some "ünï\t\n", progressDetail := some transfer }
         newline := false },
        { message := payload nested, newline := false, blanks := [0x0D, 0x20] },
        { message := { errorDetail := some detail, aux := some .null } }]
    (∀ x ∈ xs, x.message.fits = true) ∧
    ofFrames? (xs.flatMap Spaced.octets) =
      .ok [{ stream := some "ünï\t\n", progressDetail := some transfer }, payload nested,
        { errorDetail := some detail }] ∧
    (payload nested).asRead.kind = .success "\"0\"\u0000" := by
  intro nested transfer detail xs
  have fits : ∀ x ∈ xs, x.message.fits = true := by decide
  obtain ⟨read, kinds⟩ := ofFrames?_spaced xs fits
  refine ⟨fits, read, ?_⟩
  exact kinds { message := payload nested, newline := false, blanks := [0x0D, 0x20] } (by simp [xs])

end Message
end ImageBuild
