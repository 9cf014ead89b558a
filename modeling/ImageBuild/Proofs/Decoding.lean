import ImageBuild.Request

/-!
# Decoding in parts

A request is decoded in three parts: its version, the media type of its body and its parameters
(`Policy.decode_eq`). The parameters are looked up one after another, and the first that is
rejected is the one that the error names (`isAbout_of_buildOptions`). What a client of a newer
version may ask for is looked up behind everything else (`buildOptions_eq`).
-/

namespace ImageBuild

section Except

variable {ε α β : Type} {x : Except ε α} {f : α → Except ε β}

theorem of_bind_error {e : ε} (h : (x >>= f) = .error e) :
    x = .error e ∨ ∃ a, x = .ok a ∧ f a = .error e := by
  cases x with
  | error e' =>
    cases h
    exact .inl rfl
  | ok a => exact .inr ⟨a, rfl, h⟩

theorem exists_of_bind_ok {b : β} (h : (x >>= f) = .ok b) : ∃ a, x = .ok a ∧ f a = .ok b := by
  cases x with
  | error e => cases h
  | ok a => exact ⟨a, rfl, h⟩

theorem ok_of_toOption {a : α} (h : x.toOption = some a) : x = .ok a := by
  cases x with
  | error e => cases h
  | ok b => rw [Option.some.inj h]

end Except

/-- Whether an error says that the value of this parameter is invalid. -/
def RequestError.IsAbout (e : RequestError) (name : String) : Prop :=
  ∃ reason, e = .invalidParameter name reason

theorem RequestError.IsAbout.status {e : RequestError} {name : String} (h : e.IsAbout name) :
    e.status = 400 := by
  obtain ⟨reason, rfl⟩ := h
  rfl

theorem RequestError.IsAbout.eq {e : RequestError} {name other : String} (h : e.IsAbout name)
    (h' : e.IsAbout other) : name = other := by
  obtain ⟨reason, rfl⟩ := h
  obtain ⟨reason', same⟩ := h'
  cases same
  rfl

namespace Query

variable {q : Query} {name : String} {v : Version} {o : BuildOptions} {e : RequestError}

theorem text?_eq (q : Query) (name : String) :
    q.text? name = (q.values name).head?.filter (· ≠ "") := by
  unfold text? get? values
  rw [List.head?_map, List.head?_filter]

/-! ## Names -/

/-- The names that the options of a build are decoded from, for every client. -/
def commonNames : List String :=
  ["t", "dockerfile", "remote", "buildargs", "labels", "nocache", "rm", "forcerm", "pull", "q",
    "target", "networkmode", "cachefrom", "shmsize", "memory", "cpushares", "buildid", "version"]

/-- The names that the options of a build are decoded from, for a client of version `v`. -/
def buildNames (v : Version) : List String :=
  commonNames ++ (if platformSince ≤ v then ["platform"] else []) ++
    (if outputsSince ≤ v then ["outputs"] else [])

/-- The names that the options of a prune are decoded from. -/
def pruneNames : List String := ["all", "keep-storage", "filters"]

theorem mem_buildNames_of_common (h : name ∈ commonNames) : name ∈ buildNames v := by
  simp [buildNames, h]

theorem platform_mem_buildNames (h : platformSince ≤ v) : "platform" ∈ buildNames v := by
  simp [buildNames, h]

theorem outputs_mem_buildNames (h : outputsSince ≤ v) : "outputs" ∈ buildNames v := by
  simp [buildNames, h]

/-! ## Errors -/

theorem isAbout_of_u64? (h : q.u64? name = .error e) : e.IsAbout name := by
  unfold u64? at h
  split at h
  · cases h
  · split at h <;> cases h
    exact ⟨_, rfl⟩

theorem isAbout_of_i64? (h : q.i64? name = .error e) : e.IsAbout name := by
  unfold i64? at h
  split at h
  · cases h
  · split at h <;> cases h
    exact ⟨_, rfl⟩

theorem isAbout_of_json? {α : Type} {p : Json.Reader α} (h : q.json? name p = .error e) :
    e.IsAbout name := by
  unfold json? at h
  split at h
  · cases h
  · split at h <;> cases h
    exact ⟨_, rfl⟩

theorem isAbout_of_builder (h : q.builder = .error e) : e.IsAbout "version" := by
  unfold builder at h
  split at h
  · cases h
  · split at h <;> cases h
    exact ⟨_, rfl⟩

theorem outputs_before (h : ¬ outputsSince ≤ v) : q.outputs v = .ok [] := if_neg h

theorem outputs_since (h : outputsSince ≤ v) :
    q.outputs v = (q.json? "outputs" (.list Output.shape.reader)).map (·.getD []) := if_pos h

theorem isAbout_of_outputs (h : q.outputs v = .error e) :
    outputsSince ≤ v ∧ e.IsAbout "outputs" := by
  by_cases since : outputsSince ≤ v
  · rw [outputs_since since] at h
    cases hj : q.json? "outputs" (.list Output.shape.reader) with
    | error e' =>
      rw [hj] at h
      cases h
      exact ⟨since, isAbout_of_json? hj⟩
    | ok o =>
      rw [hj] at h
      cases h
  · rw [outputs_before since] at h
    cases h

/-- **An error names a parameter** that the decoder knows. -/
theorem isAbout_of_buildOptions (h : q.buildOptions v = .error e) :
    ∃ name ∈ buildNames v, e.IsAbout name := by
  have common {name : String} (about : e.IsAbout name) (known : name ∈ commonNames) :
      ∃ name ∈ buildNames v, e.IsAbout name :=
    ⟨name, mem_buildNames_of_common known, about⟩
  unfold buildOptions at h
  rcases of_bind_error h with h | ⟨_, -, h⟩
  · exact common (isAbout_of_u64? h) (by decide)
  rcases of_bind_error h with h | ⟨_, -, h⟩
  · exact common (isAbout_of_i64? h) (by decide)
  rcases of_bind_error h with h | ⟨_, -, h⟩
  · exact common (isAbout_of_i64? h) (by decide)
  rcases of_bind_error h with h | ⟨_, -, h⟩
  · exact common (isAbout_of_json? h) (by decide)
  rcases of_bind_error h with h | ⟨_, -, h⟩
  · exact common (isAbout_of_json? h) (by decide)
  rcases of_bind_error h with h | ⟨_, -, h⟩
  · exact common (isAbout_of_json? h) (by decide)
  rcases of_bind_error h with h | ⟨_, -, h⟩
  · exact common (isAbout_of_builder h) (by decide)
  rcases of_bind_error h with h | ⟨_, -, h⟩
  · obtain ⟨since, about⟩ := isAbout_of_outputs h
    exact ⟨_, outputs_mem_buildNames since, about⟩
  cases h

theorem isAbout_of_pruneOptions (h : q.pruneOptions = .error e) :
    ∃ name ∈ pruneNames, e.IsAbout name := by
  unfold pruneOptions at h
  rcases of_bind_error h with h | ⟨_, -, h⟩
  · exact ⟨_, by decide, isAbout_of_u64? h⟩
  rcases of_bind_error h with h | ⟨_, -, h⟩
  · exact ⟨_, by decide, isAbout_of_json? h⟩
  cases h

/-! ## Options -/

/-- **What came with a version** is looked up behind all that a client of the first version
can ask for. -/
theorem buildOptions_eq (q : Query) (v : Version) :
    q.buildOptions v = do
      let o ← q.buildOptions ⟨0, 0⟩
      let outputs ← q.outputs v
      return { o with
        platform := if platformSince ≤ v then q.text? "platform" else none
        outputs } := by
  have first : ¬ platformSince ≤ ⟨0, 0⟩ ∧ ¬ outputsSince ≤ ⟨0, 0⟩ := by decide
  unfold buildOptions
  simp only [bind_assoc, pure_bind, outputs_before first.2]
  rfl

theorem removal_of_buildOptions (h : q.buildOptions v = .ok o) :
    o.forceRemove = q.flag "forcerm" ∧ o.remove = q.removesIntermediates := by
  unfold buildOptions at h
  obtain ⟨_, -, h⟩ := exists_of_bind_ok h
  obtain ⟨_, -, h⟩ := exists_of_bind_ok h
  obtain ⟨_, -, h⟩ := exists_of_bind_ok h
  obtain ⟨_, -, h⟩ := exists_of_bind_ok h
  obtain ⟨_, -, h⟩ := exists_of_bind_ok h
  obtain ⟨_, -, h⟩ := exists_of_bind_ok h
  obtain ⟨_, -, h⟩ := exists_of_bind_ok h
  obtain ⟨_, -, h⟩ := exists_of_bind_ok h
  cases h
  exact ⟨rfl, rfl⟩

end Query

namespace Policy

def checkMedia (r : BuildRequest) : Except RequestError Unit :=
  if r.hasBody then
    match r.mediaTypes with
    | [] => .ok ()
    | value :: _ => MediaType.check value
  else .ok ()

theorem status_of_check {value : Octets} {e : RequestError} (h : MediaType.check value = .error e) :
    e.status = 415 := by
  unfold MediaType.check at h
  split at h
  · dsimp only at h
    split at h <;> cases h
    rfl
  · cases h
    rfl

theorem status_of_checkMedia {r : BuildRequest} {e : RequestError} (h : checkMedia r = .error e) :
    e.status = 415 := by
  unfold checkMedia at h
  split at h
  · split at h
    · cases h
    · exact status_of_check h
  · cases h

/-- **A request is decoded in three parts.** -/
theorem decode_eq (p : Policy) (r : BuildRequest) :
    p.decode r = do
      let version ← p.resolve r.segment
      checkMedia r
      let options ← (Query.ofUri r.uri).buildOptions version
      return ⟨version, options⟩ := by
  unfold decode checkMedia
  congr 1
  funext v
  cases r.hasBody with
  | false => rfl
  | true =>
    cases r.mediaTypes with
    | nil => rfl
    | cons value rest => rfl

end Policy
end ImageBuild
