import ImageBuild.Proofs.Net.Address
import ImageBuild.Proofs.Toml.Sections
import ImageBuild.Settings

/-!
# Settings survive being written

A file with settings has four sections (`sections`), whose text is read back as the table of
them (`Toml.parse?_sections`) and from there as the settings (`ofFile?_sections`). The numbers
that a file gives can be written again (`writable_of_ofFile?`), so settings that have been read
are read back from the file that is written for them (`parse_written`).
-/

namespace ImageBuild.Settings

open Toml

/-- Whether the numbers of settings can stand in a file. -/
def Writable (s : Settings) : Prop :=
  s.progressBuffer ≤ Text.Integer.maxI64 ∧ ∀ n ∈ s.timeoutSeconds, n ≤ Text.Integer.maxI64

variable {s : Settings}

theorem text?_eq_some (h : s.Writable) : s.text? = some s.text := by
  have timeout : s.timeoutSeconds.all isWritable = true := by
    cases hs : s.timeoutSeconds with
    | none => rfl
    | some n => exact decide_eq_true (h.2 n hs)
  have buffer : isWritable s.progressBuffer = true := decide_eq_true h.1
  rw [text?, buffer, timeout]
  rfl

/-! ## The sections of a file -/

def sections (s : Settings) : List (String × List (String × Value)) :=
  [("server", [("listen", .string s.listen.text)]),
    ("api", [("default_version", .string s.defaultVersion.text),
      ("min_version", .string s.minVersion.text)]),
    ("build", ("full_duplex", .bool s.fullDuplex) ::
      ("progress_buffer", .integer (.ofNat s.progressBuffer)) ::
        s.timeoutSeconds.toList.map fun n => ("timeout_secs", .integer (.ofNat n))),
    ("backend", s.spoolDirectory.toList.map fun path => ("spool_dir", .string path))]

theorem lines_line {name : String} {v t : List Char} {x : Value} {ps : List (String × Value)}
    (isName : IsName name) (written : IsWritten v x) (new : name ∉ ps.map (·.1))
    (later : Lines t ps) : Lines (line name v ++ t) ((name, x) :: ps) := by
  have := Lines.pair isName written new later
  simpa [line] using this

theorem lines_last {name : String} {v : List Char} {x : Value} (isName : IsName name)
    (written : IsWritten v x) : Lines (line name v) [(name, x)] := by
  have := lines_line isName written (by simp) .nil
  rwa [List.append_nil] at this

theorem isWritten_boolChars (b : Bool) : IsWritten (boolChars b) (.bool b) := by
  cases b with
  | true => exact isWritten_true
  | false => exact isWritten_false

theorem lines_optionLine {α : Type} {name : String} {write : α → List Char} {value : α → Value}
    {o : Option α} (isName : IsName name) (written : ∀ a ∈ o, IsWritten (write a) (value a)) :
    Lines (optionLine name write o) (o.toList.map fun a => (name, value a)) := by
  cases o with
  | none => exact .nil
  | some a => exact lines_last isName (written a rfl)

theorem chars_eq (s : Settings) : s.chars =
    '[' :: ("server".toList ++ ']' :: '\n' ::
      (line "listen" (Print.string s.listen.text) ++
    '\n' :: '[' :: ("api".toList ++ ']' :: '\n' ::
      (line "default_version" (Print.string s.defaultVersion.text) ++
        line "min_version" (Print.string s.minVersion.text) ++
    '\n' :: '[' :: ("build".toList ++ ']' :: '\n' ::
      (line "full_duplex" (boolChars s.fullDuplex) ++
        (line "progress_buffer" (Text.Decimal.chars s.progressBuffer) ++
          optionLine "timeout_secs" Text.Decimal.chars s.timeoutSeconds) ++
    '\n' :: '[' :: ("backend".toList ++ ']' :: '\n' ::
      (optionLine "spool_dir" Print.string s.spoolDirectory ++ [])))))))) := by
  have server : "[server]\n".toList = '[' :: ("server".toList ++ [']', '\n']) := by decide
  have api : "\n[api]\n".toList = '\n' :: '[' :: ("api".toList ++ [']', '\n']) := by decide
  have build : "\n[build]\n".toList = '\n' :: '[' :: ("build".toList ++ [']', '\n']) := by decide
  have backend :
      "\n[backend]\n".toList = '\n' :: '[' :: ("backend".toList ++ [']', '\n']) := by decide
  unfold chars
  simp only [server, api, build, backend, List.append_assoc, List.cons_append, List.nil_append,
    List.append_nil]

/-- **The text of settings** has their sections. -/
theorem sections_chars (h : s.Writable) : Sections s.chars s.sections := by
  have timeout : ∀ n ∈ s.timeoutSeconds, IsWritten (Text.Decimal.chars n) (.integer (.ofNat n)) :=
    fun n hn => isWritten_chars (h.2 n hn)
  have spool : ∀ path ∈ s.spoolDirectory, IsWritten (Print.string path) (.string path) :=
    fun path _ => isWritten_string path
  rw [chars_eq]
  refine .header (by decide) ?server (by simp) (.blank (.header (by decide) ?api (by simp)
    (.blank (.header (by decide) ?build (by simp) (.blank (.header (by decide) ?backend (by simp)
      .nil))))))
  case server => exact lines_last (by decide) (isWritten_string _)
  case api =>
    exact lines_line (by decide) (isWritten_string _) (by simp)
      (lines_last (by decide) (isWritten_string _))
  case build =>
    exact lines_line (by decide) (isWritten_boolChars _) (by simp)
      (lines_line (by decide) (isWritten_chars h.1) (by simp)
        (lines_optionLine (by decide) timeout))
  case backend => exact lines_optionLine (by decide) spool

theorem natural?_ofNat {n : Nat} (h : n ≤ Text.Integer.maxI64) :
    Value.natural? (.integer (.ofNat n)) = some n := by
  have same : (Int64.ofNat n).toInt = n := Int64.toInt_ofNat_of_lt (Nat.lt_succ_of_le h)
  rw [Value.natural?, same]
  simp

section Reading

variable {d : Settings}

theorem readServer_table (s d : Settings) :
    readServer d (.table [("listen", .string s.listen.text)]) =
      some { d with listen := s.listen } := by
  simp [readServer, Value.fields?, Value.lookup, field, Value.string?,
    Net.SocketAddress.parse?_text]

theorem readApi_table (s d : Settings) :
    readApi d (.table [("default_version", .string s.defaultVersion.text),
      ("min_version", .string s.minVersion.text)]) =
      some { d with defaultVersion := s.defaultVersion, minVersion := s.minVersion } := by
  simp [readApi, Value.fields?, Value.lookup, field, version?, Value.string?,
    Version.parse?_text]

theorem readBuild_table (h : s.Writable) (unset : d.timeoutSeconds = none) :
    readBuild d (.table (("full_duplex", .bool s.fullDuplex) ::
      ("progress_buffer", .integer (.ofNat s.progressBuffer)) ::
        s.timeoutSeconds.toList.map fun n => ("timeout_secs", .integer (.ofNat n)))) =
      some { d with
        fullDuplex := s.fullDuplex
        progressBuffer := s.progressBuffer
        timeoutSeconds := s.timeoutSeconds } := by
  have buffer := natural?_ofNat h.1
  cases hs : s.timeoutSeconds with
  | none =>
    simp [readBuild, Value.fields?, Value.lookup, field, Value.bool?, buffer, unset]
  | some n =>
    have timeout := natural?_ofNat (h.2 n hs)
    simp [readBuild, Value.fields?, Value.lookup, field, Value.bool?, buffer, timeout]

theorem readBackend_table (s : Settings) (unset : d.spoolDirectory = none) :
    readBackend d (.table (s.spoolDirectory.toList.map fun path => ("spool_dir", .string path))) =
      some { d with spoolDirectory := s.spoolDirectory } := by
  cases s.spoolDirectory with
  | none => simp [readBackend, Value.fields?, Value.lookup, field, unset]
  | some path => simp [readBackend, Value.fields?, Value.lookup, field, Value.string?]

end Reading

/-- **The sections of settings** are read as these settings. -/
theorem ofFile?_sections (h : s.Writable) :
    ofFile? (s.sections.map fun (name, ps) => (name, .table ps)) = some s := by
  generalize hfile : (s.sections.map fun (name, ps) => (name, Value.table ps)) = file
  have server (d : Settings) : readSection file "server" readServer d =
      some { d with listen := s.listen } := by
    simp [readSection, ← hfile, sections, Value.lookup, readServer_table]
  have api (d : Settings) : readSection file "api" readApi d =
      some { d with defaultVersion := s.defaultVersion, minVersion := s.minVersion } := by
    simp [readSection, ← hfile, sections, Value.lookup, readApi_table]
  have build {d : Settings} (unset : d.timeoutSeconds = none) :
      readSection file "build" readBuild d = some { d with
        fullDuplex := s.fullDuplex
        progressBuffer := s.progressBuffer
        timeoutSeconds := s.timeoutSeconds } := by
    simp [readSection, ← hfile, sections, Value.lookup, readBuild_table h unset]
  have backend {d : Settings} (unset : d.spoolDirectory = none) :
      readSection file "backend" readBackend d =
        some { d with spoolDirectory := s.spoolDirectory } := by
    simp [readSection, ← hfile, sections, Value.lookup, readBackend_table s unset]
  rw [ofFile?, server]
  simp only [Option.bind_eq_bind, Option.bind_some, api, build, backend]

/-! ## The numbers of a file -/

theorem natural?_le {v : Value} {n : Nat} (h : v.natural? = some n) :
    n ≤ Text.Integer.maxI64 := by
  unfold Value.natural? at h
  split at h
  · next i =>
    have := i.toInt_lt
    split at h
    · cases h
      rw [Text.Integer.maxI64]
      omega
    · cases h
  · cases h

theorem field_cases {α : Type} {default a : α} {read : Value → Option α}
    {given : Option (Option Value)} (h : field default read given = some a) :
    a = default ∨ ∃ v, read v = some a := by
  unfold field at h
  split at h
  · next v => exact .inr ⟨v, h⟩
  · exact .inl (Option.some.inj h).symm

/-- **What a section may give.** Only numbers that can be written. -/
theorem writable_readBuild {d : Settings} {v : Value} (h : readBuild d v = some s)
    (writable : d.Writable) : s.Writable := by
  simp only [readBuild, Option.bind_eq_bind, Option.bind_eq_some_iff, Option.pure_def,
    Option.some.injEq] at h
  obtain ⟨fs, -, fullDuplex, -, progressBuffer, buffer, timeoutSeconds, timeout, rfl⟩ := h
  refine ⟨?_, ?_⟩
  · rcases field_cases buffer with same | ⟨v, read⟩
    · exact same ▸ writable.1
    · exact natural?_le read
  · intro n hn
    rcases field_cases timeout with same | ⟨v, read⟩
    · exact writable.2 n (same ▸ hn)
    · obtain ⟨m, hm, rfl⟩ := Option.map_eq_some_iff.1 read
      cases hn
      exact natural?_le hm

theorem writable_readServer {d : Settings} {v : Value} (h : readServer d v = some s)
    (writable : d.Writable) : s.Writable := by
  simp only [readServer, Option.bind_eq_bind, Option.bind_eq_some_iff, Option.pure_def,
    Option.some.injEq] at h
  obtain ⟨fs, -, listen, -, rfl⟩ := h
  exact writable

theorem writable_readApi {d : Settings} {v : Value} (h : readApi d v = some s)
    (writable : d.Writable) : s.Writable := by
  simp only [readApi, Option.bind_eq_bind, Option.bind_eq_some_iff, Option.pure_def,
    Option.some.injEq] at h
  obtain ⟨fs, -, defaultVersion, -, minVersion, -, rfl⟩ := h
  exact writable

theorem writable_readBackend {d : Settings} {v : Value} (h : readBackend d v = some s)
    (writable : d.Writable) : s.Writable := by
  simp only [readBackend, Option.bind_eq_bind, Option.bind_eq_some_iff, Option.pure_def,
    Option.some.injEq] at h
  obtain ⟨fs, -, spoolDirectory, -, rfl⟩ := h
  exact writable

theorem writable_readSection {file : List (String × Value)} {name : String}
    {read : Settings → Value → Option Settings}
    (keeps : ∀ {d s v}, read d v = some s → d.Writable → s.Writable) {d : Settings}
    (h : readSection file name read d = some s) (writable : d.Writable) : s.Writable := by
  unfold readSection at h
  split at h
  · cases h
    exact writable
  · exact keeps h writable

/-- **What a file gives can be written again.** -/
theorem writable_of_ofFile? {file : List (String × Value)} (h : ofFile? file = some s) :
    s.Writable := by
  simp only [ofFile?, Option.bind_eq_bind, Option.bind_eq_some_iff] at h
  obtain ⟨s₁, server, s₂, api, s₃, build, backend⟩ := h
  have start : Writable {} := ⟨by decide, by simp⟩
  have h₁ := writable_readSection writable_readServer server start
  have h₂ := writable_readSection writable_readApi api h₁
  have h₃ := writable_readSection writable_readBuild build h₂
  exact writable_readSection writable_readBackend backend h₃

/-! ## Files -/

/-- **What settings of a file are**: numbers that can be written, and no fault. -/
theorem parse_eq_ok {text : String} (h : parse text = .ok s) : s.Writable ∧ s.fault? = none := by
  unfold parse at h
  split at h
  · cases h
  next s' read =>
    split at h
    · cases h
    next sound =>
      cases h
      obtain ⟨file, -, given⟩ := Option.bind_eq_some_iff.1 read
      exact ⟨writable_of_ofFile? given, sound⟩

theorem fault?_eq_none_iff : s.fault? = none ↔ 1 ≤ s.progressBuffer ∧
    s.defaultVersion ≤ Version.newest ∧ s.minVersion ≤ s.defaultVersion ∧
    s.timeoutSeconds ≠ some 0 := by
  have first {p : Prop} [Decidable p] {e : SettingsError} {o : Option SettingsError} :
      (if p then some e else o) = none ↔ ¬ p ∧ o = none := by
    split <;> simp_all
  simp only [fault?, first, ← Version.not_lt, Nat.one_le_iff_ne_zero, ne_eq, and_true]

/-- **Settings are read back** from what is written for them. -/
theorem parse_text (writable : s.Writable) (sound : s.fault? = none) : parse s.text = .ok s := by
  rw [parse, text, Toml.parse?_sections (sections_chars writable)]
  simp only [Option.bind_some, ofFile?_sections writable, sound]

/-- **Settings survive being written.** Settings that have been read from a file can be written,
and what is written is read as the same settings. They have room for at least one frame and no
timeout of zero, and their versions are in order. -/
theorem parse_written {file : String} (h : parse file = .ok s) :
    (∃ t, s.text? = some t ∧ parse t = .ok s) ∧ 1 ≤ s.progressBuffer ∧
    (∀ n, s.timeoutSeconds = some n → 0 < n) ∧ s.minVersion ≤ s.defaultVersion ∧
    s.defaultVersion ≤ Version.newest := by
  obtain ⟨writable, sound⟩ := parse_eq_ok h
  obtain ⟨buffer, default, min, timeout⟩ := fault?_eq_none_iff.1 sound
  refine ⟨⟨s.text, text?_eq_some writable, parse_text writable sound⟩, buffer, ?_, min, default⟩
  rintro n hn
  refine Nat.pos_of_ne_zero ?_
  rintro rfl
  exact timeout hn

/-- An address with a run of zeros, a timeout, and a directory with quotes, a backslash and the
end of a line in its name. -/
theorem parse_written_spool : ∃ s, parse (
      "[server]\nlisten = \"[fe80::1%2]:80\"\n[build]\ntimeout_secs = 30\n" ++
        "[backend]\nspool_dir = \"a\\\"b\\\\c\\nd\"\n") = .ok s ∧
    s.listen = .v6 ⟨[0xFE80, 0, 0, 0, 0, 0, 0, 1], rfl⟩ 2 80 ∧
    s.spoolDirectory = some "a\"b\\c\nd" ∧ s.timeoutSeconds = some 30 ∧
    ∃ t, s.text? = some t ∧ parse t = .ok s := by
  have h : parse (
      "[server]\nlisten = \"[fe80::1%2]:80\"\n[build]\ntimeout_secs = 30\n" ++
        "[backend]\nspool_dir = \"a\\\"b\\\\c\\nd\"\n") = .ok
      { listen := .v6 ⟨[0xFE80, 0, 0, 0, 0, 0, 0, 1], rfl⟩ 2 80
        spoolDirectory := some "a\"b\\c\nd"
        timeoutSeconds := some 30 } := by
    decide +kernel
  exact ⟨_, h, rfl, rfl, rfl, (parse_written h).1⟩

end ImageBuild.Settings
