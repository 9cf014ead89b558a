import ImageBuild.Proofs.View
import Mathlib.Data.Prod.Lex

/-!
# Clients of different versions

What a client may ask for depends on its version in two places: `platform` counts from 1.32 on
and `outputs` from 1.40 on. All else is decoded alike, and exporters are looked up last. So a
request of an older client has the options that it has for a newer one, without what came in
between (`BuildOptions.asOf`), and the same error, unless that is about exporters which the
older client cannot ask for (`Policy.decode_gated`).
-/

namespace ImageBuild

/-! ## The order of versions -/

namespace Version

theorem le_trans {a b c : Version} (h : a ≤ b) (h' : b ≤ c) : a ≤ c := by
  rw [le_iff] at *
  omega

theorem not_le {a b : Version} : ¬ a ≤ b ↔ b < a := by
  rw [le_iff, lt_iff]
  omega

/-- The two numbers of a version, the first one first. -/
def numbers (v : Version) : ℕ ×ₗ ℕ := toLex (v.major.toNat, v.minor.toNat)

theorem numbers_le_numbers {a b : Version} : a.numbers ≤ b.numbers ↔ a ≤ b := by
  rw [numbers, numbers, Prod.Lex.toLex_le_toLex, le_iff]

end Version

/-- **A version segment is accepted** when it is read as a version in range. -/
theorem Policy.resolve_eq_ok_iff {p : Policy} {segment : String} {v : Version} :
    p.resolve (some segment) = .ok v ↔
      Version.parse? segment = some v ∧ p.minimum ≤ v ∧ v ≤ Version.newest := by
  constructor
  · intro h
    unfold resolve at h
    dsimp only at h
    split at h
    · cases h
    next w read =>
    split at h
    · cases h
    next old =>
    split at h
    · cases h
    next new =>
    cases h
    exact ⟨read, Version.not_lt.1 old, Version.not_lt.1 new⟩
  · rintro ⟨read, old, new⟩
    simp only [resolve, read, if_neg (Version.not_lt.2 old), if_neg (Version.not_lt.2 new)]

/-- **The options of a build** without what a client of version `v` cannot ask for. -/
def BuildOptions.asOf (o : BuildOptions) (v : Version) : BuildOptions :=
  { o with
    platform := if v < ⟨1, 32⟩ then none else o.platform
    outputs := if v < ⟨1, 40⟩ then [] else o.outputs }

namespace Query

variable {q : Query} {v v₁ v₂ : Version} {o : BuildOptions} {e : RequestError}

/-! ## Exporters -/

/-- Whether the first value of `outputs` is not empty and no list of exporters. -/
def HasMalformedOutputs (q : Query) : Prop :=
  ∃ value, q.text? "outputs" = some value ∧
    ∀ os, (Json.Reader.list Output.shape.reader).parse (Text.encode value) ≠ .ok os

theorem outputs_eq_error_iff (since : outputsSince ≤ v) :
    (∃ e, q.outputs v = .error e) ↔ q.HasMalformedOutputs := by
  rw [outputs_since since]
  unfold json? HasMalformedOutputs
  cases q.text? "outputs" with
  | none => simp [Except.map]
  | some value =>
    cases hp : (Json.Reader.list Output.shape.reader).parse (Text.encode value) with
    | error f => simp [Except.map, hp]
    | ok os => simp [Except.map, hp]

theorem buildNames_subset (before : v < outputsSince) :
    buildNames v ⊆ "platform" :: commonNames := by
  intro name known
  rw [buildNames, if_neg (Version.not_le.2 before), List.append_nil, List.mem_append] at known
  rcases known with known | known
  · exact List.mem_cons_of_mem _ known
  · split at known
    · rw [List.mem_singleton.1 known]
      exact List.mem_cons_self ..
    · cases known

theorem outputs_older (le : v₁ ≤ v₂) {os : List Output} (h : q.outputs v₂ = .ok os) :
    q.outputs v₁ = .ok (if v₁ < outputsSince then [] else os) := by
  by_cases since : outputsSince ≤ v₁
  · rw [if_neg (Version.not_lt.2 since), outputs_since since,
      ← outputs_since (Version.le_trans since le), h]
  · rw [if_pos (Version.not_le.1 since), outputs_before since]

/-! ## Options -/

/-- **Options for an older client** are those for a newer one, without what came later. -/
theorem buildOptions_older (le : v₁ ≤ v₂) (h : q.buildOptions v₂ = .ok o) :
    q.buildOptions v₁ = .ok (o.asOf v₁) := by
  rw [buildOptions_eq] at h
  obtain ⟨base, hbase, h⟩ := exists_of_bind_ok h
  obtain ⟨os, hos, h⟩ := exists_of_bind_ok h
  cases h
  have platform : (if platformSince ≤ v₁ then q.text? "platform" else none) =
      if v₁ < platformSince then none
      else if platformSince ≤ v₂ then q.text? "platform" else none := by
    by_cases since : platformSince ≤ v₁
    · rw [if_pos since, if_neg (Version.not_lt.2 since), if_pos (Version.le_trans since le)]
    · rw [if_neg since, if_pos (Version.not_le.1 since)]
  rw [buildOptions_eq, hbase, outputs_older le hos, platform]
  rfl

/-- **An error for a newer client** is one for an older client, unless it is about exporters. -/
theorem buildOptions_older_error (h : q.buildOptions v₂ = .error e)
    (other : ¬ e.IsAbout "outputs") (v₁ : Version) : q.buildOptions v₁ = .error e := by
  rw [buildOptions_eq] at h
  rcases of_bind_error h with hbase | ⟨base, hbase, h⟩
  · rw [buildOptions_eq, hbase]
    rfl
  rcases of_bind_error h with hos | ⟨os, -, h⟩
  · exact absurd (isAbout_of_outputs hos).2 other
  · cases h

/-- **An error about exporters** comes from their value, when nothing else is wrong. -/
theorem of_error_outputs (h : q.buildOptions v₂ = .error e) (about : e.IsAbout "outputs") :
    (∃ base, q.buildOptions ⟨0, 0⟩ = .ok base) ∧ outputsSince ≤ v₂ ∧ q.outputs v₂ = .error e := by
  rw [buildOptions_eq] at h
  rcases of_bind_error h with hbase | ⟨base, hbase, h⟩
  · obtain ⟨name, known, about'⟩ := isAbout_of_buildOptions hbase
    rw [about'.eq about] at known
    exact absurd known (by decide)
  rcases of_bind_error h with hos | ⟨os, -, h⟩
  · exact ⟨⟨base, hbase⟩, (isAbout_of_outputs hos).1, hos⟩
  · cases h

theorem malformed_of_error (h : q.buildOptions v₂ = .error e) (about : e.IsAbout "outputs") :
    q.HasMalformedOutputs ∧ outputsSince ≤ v₂ := by
  obtain ⟨-, since, hos⟩ := of_error_outputs h about
  exact ⟨(outputs_eq_error_iff since).1 ⟨e, hos⟩, since⟩

theorem buildOptions_older_outputs (h : q.buildOptions v₂ = .error e)
    (about : e.IsAbout "outputs") (since : outputsSince ≤ v₁) : q.buildOptions v₁ = .error e := by
  obtain ⟨⟨base, hbase⟩, since', hos⟩ := of_error_outputs h about
  rw [outputs_since since'] at hos
  rw [buildOptions_eq, hbase, outputs_since since, hos]
  rfl

theorem buildOptions_before_outputs (h : q.buildOptions v₂ = .error e)
    (about : e.IsAbout "outputs") (before : v₁ < outputsSince) :
    ∃ o, q.buildOptions v₁ = .ok o := by
  obtain ⟨⟨base, hbase⟩, -, -⟩ := of_error_outputs h about
  rw [buildOptions_eq, hbase, outputs_before (Version.not_le.2 before)]
  exact ⟨_, rfl⟩

theorem buildOptions_malformed (h : q.HasMalformedOutputs) (since : outputsSince ≤ v) :
    ∃ e, q.buildOptions v = .error e := by
  obtain ⟨e, he⟩ := (outputs_eq_error_iff since).2 h
  rw [buildOptions_eq, he]
  cases q.buildOptions ⟨0, 0⟩ with
  | error e' => exact ⟨e', rfl⟩
  | ok base => exact ⟨e, rfl⟩

end Query

namespace Policy

theorem decode_at {p : Policy} (r : BuildRequest) {segment : Option String} {v : Version}
    (h : p.resolve segment = .ok v) :
    p.decode { r with segment } = do
      checkMedia r
      let options ← (Query.ofUri r.uri).buildOptions v
      return ⟨v, options⟩ := by
  rw [decode_eq, h]
  rfl

/-- **Versions gate two parameters and nothing else.** Take one request for two versions that are
accepted. What it asks for of a newer client, it asks for of an older one, without what came in
between, and an error for the newer client is the error for the older one as long as it is not
about `outputs`. A malformed value of `outputs` is an error from 1.40 on, and what the value is
does not count before. A version segment is accepted exactly when it is read as a version that is
in range, with versions in the order of their numbers. -/
theorem decode_gated (p : Policy) (r : BuildRequest) {s₁ s₂ : Option String} {v₁ v₂ : Version}
    (h₁ : p.resolve s₁ = .ok v₁) (h₂ : p.resolve s₂ = .ok v₂) (le : v₁ ≤ v₂) :
    let older := p.decode { r with segment := s₁ }
    let newer := p.decode { r with segment := s₂ }
    let q := Query.ofUri r.uri
    (∀ d, newer = .ok d → d.version = v₂ ∧ older = .ok ⟨v₁, d.options.asOf v₁⟩) ∧
    (∀ e, newer = .error e → ¬ e.IsAbout "outputs" → older = .error e) ∧
    (∀ e, newer = .error e → e.IsAbout "outputs" → q.HasMalformedOutputs ∧ ⟨1, 40⟩ ≤ v₂ ∧
      (⟨1, 40⟩ ≤ v₁ → older = .error e) ∧ (v₁ < ⟨1, 40⟩ → ∃ d, older = .ok d)) ∧
    (q.HasMalformedOutputs → ⟨1, 40⟩ ≤ v₂ → ∃ e, newer = .error e) ∧
    (v₁ < ⟨1, 40⟩ → ∀ uri, q.Agrees ("platform" :: Query.commonNames) (Query.ofUri uri) →
      p.decode { r with segment := s₁, uri } = older) ∧
    ∀ (segment : String) (v : Version), p.resolve (some segment) = .ok v ↔
      Version.parse? segment = some v ∧ p.minimum.numbers ≤ v.numbers ∧
        v.numbers ≤ Version.newest.numbers := by
  intro older newer q
  have olderAt : older = (checkMedia r >>= fun _ => q.buildOptions v₁ >>= fun o =>
      pure (DecodedBuild.mk v₁ o)) := decode_at r h₁
  have newerAt : newer = (checkMedia r >>= fun _ => q.buildOptions v₂ >>= fun o =>
      pure (DecodedBuild.mk v₂ o)) := decode_at r h₂
  refine ⟨?_, ?_, ?_, ?_, ?_, ?_⟩
  · intro d hd
    rw [newerAt] at hd
    obtain ⟨_, media, hd⟩ := exists_of_bind_ok hd
    obtain ⟨o, ho, hd⟩ := exists_of_bind_ok hd
    cases hd
    rw [olderAt, media, Query.buildOptions_older le ho]
    exact ⟨rfl, rfl⟩
  · intro e he other
    rw [newerAt] at he
    rcases of_bind_error he with media | ⟨_, media, he⟩
    · rw [olderAt, media]
      rfl
    rcases of_bind_error he with ho | ⟨_, -, he⟩
    · rw [olderAt, media, Query.buildOptions_older_error ho other v₁]
      rfl
    · cases he
  · intro e he about
    rw [newerAt] at he
    rcases of_bind_error he with media | ⟨_, media, he⟩
    · have status := about.status
      rw [status_of_checkMedia media] at status
      cases status
    rcases of_bind_error he with ho | ⟨_, -, he⟩
    · obtain ⟨malformed, since⟩ := Query.malformed_of_error ho about
      refine ⟨malformed, since, ?_, ?_⟩
      · intro since
        rw [olderAt, media, Query.buildOptions_older_outputs ho about since]
        rfl
      · intro before
        obtain ⟨o, ho⟩ := Query.buildOptions_before_outputs ho about before
        rw [olderAt, media, ho]
        exact ⟨_, rfl⟩
    · cases he
  · intro malformed since
    obtain ⟨e, he⟩ := Query.buildOptions_malformed malformed since
    rw [newerAt, he]
    cases checkMedia r with
    | error e' => exact ⟨e', rfl⟩
    | ok _ => exact ⟨e, rfl⟩
  · intro before uri agrees
    have known := agrees.subset (Query.buildNames_subset before)
    have other : p.decode { r with segment := s₁, uri } =
        (checkMedia r >>= fun _ => (Query.ofUri uri).buildOptions v₁ >>= fun o =>
          pure (DecodedBuild.mk v₁ o)) := decode_at { r with uri } h₁
    rw [other, olderAt, Query.buildOptions_of_agrees known]
  · intro segment v
    rw [resolve_eq_ok_iff, Version.numbers_le_numbers, Version.numbers_le_numbers]

/-- A client of version 1.31 gets a build without the platform and the exporter that a client of
version 1.41 asks for with the same query. -/
theorem decode_gated_older :
    let r : BuildRequest :=
      { uri := ⟨Text.encode "/build",
          some (Text.encode "t=a&platform=linux&outputs=%5B%7B%22Type%22:%22tar%22%7D%5D")⟩
        hasBody := true }
    Policy.resolve {} (some "v1.31") = .ok ⟨1, 31⟩ ∧ Policy.resolve {} (some "1.41") = .ok ⟨1, 41⟩ ∧
      (⟨1, 31⟩ : Version) ≤ ⟨1, 41⟩ ∧
      ∃ d, Policy.decode {} { r with segment := some "1.41" } = .ok d ∧
        d.options.platform = some "linux" ∧ d.options.outputs = [{ kind := "tar" }] ∧
        Policy.decode {} { r with segment := some "v1.31" } =
          .ok ⟨⟨1, 31⟩, d.options.asOf ⟨1, 31⟩⟩ := by
  intro r
  have older : Policy.resolve {} (some "v1.31") = .ok ⟨1, 31⟩ := by cbv
  have newer : Policy.resolve {} (some "1.41") = .ok ⟨1, 41⟩ := by cbv
  have le : (⟨1, 31⟩ : Version) ≤ ⟨1, 41⟩ := by decide
  let options : BuildOptions :=
    { tags := ["a"], platform := some "linux", outputs := [{ kind := "tar" }] }
  have decoded : Policy.decode {} { r with segment := some "1.41" } = .ok ⟨⟨1, 41⟩, options⟩ :=
    ok_of_toOption (by decide +kernel)
  exact ⟨older, newer, le, _, decoded, rfl, rfl,
    ((decode_gated {} r older newer le).1 _ decoded).2⟩

end Policy
end ImageBuild
