import ImageBuild.ContextEngine.Basic
import ImageBuild.Proofs.Version
import ImageBuild.Service

/-!
# Routes below the default version

A request to a route as it stands has no version, and the versions that are
accepted are not looked at. Below a segment that is the text of the default
version they are, and the answer is the same all the same
(`Service.accept_below_default`): the text is read as the version that was written,
and settings without a fault have a default that is neither older than their minimum nor
newer than the newest version.
-/

namespace ImageBuild

/-! ## Paths -/

namespace Text

variable {α : Type} (p : α → Bool) {sep : α}

theorem pieces_separator (hs : p sep = true) (back : List α) :
    pieces p (sep :: back) = [] :: pieces p back := by
  have some_piece : pieces p back ≠ [] := List.ne_nil_of_length_pos (by simp [length_pieces])
  obtain ⟨piece, rest, hp⟩ := List.exists_cons_of_ne_nil some_piece
  simp [pieces_cons, hp, addPiece, hs]

theorem pieces_append_separator (hs : p sep = true) {front : List α}
    (h : ∀ a ∈ front, p a = false) (back : List α) :
    pieces p (front ++ sep :: back) = front :: pieces p back := by
  induction front with
  | nil => exact pieces_separator p hs back
  | cons a front ih =>
    have later := ih fun b hb => h b (List.mem_cons_of_mem _ hb)
    have first : p a = false := h a (List.mem_cons_self ..)
    rw [List.cons_append, pieces_cons, later, addPiece, first]
    rfl

end Text

theorem Percent.decode_eq_self {s : Octets} (h : 0x25 ∉ s) : decode s = s := by
  induction s with
  | nil => rw [decode]
  | cons b s ih =>
    rw [List.mem_cons, not_or] at h
    rw [decode, if_neg (Ne.symm h.1), ih h.2]

namespace Route

def path (r : Route) : Octets := r.segments.flatMap (0x2F :: ·)

theorem pieces_path (r : Route) : Text.pieces (· == 0x2F) r.path = [] :: r.segments := by
  cases r <;> decide

theorem ofPath?_path (r : Route) : ofPath? r.path = some (r, none) := by
  cases r <;> decide

theorem ofSegments?_segments (r : Route) : ofSegments? r.segments = some r := by
  cases r <;> decide

theorem ofSegments?_cons_segments (r : Route) (first : Octets) :
    ofSegments? (first :: r.segments) = none := by
  have distinct : Text.encode "cancel" ∉ [Text.encode "_ping", Text.encode "build"] ∧
      Text.encode "prune" ∉ [Text.encode "_ping", Text.encode "build"] := by decide
  simp only [List.mem_cons, List.not_mem_nil, or_false, not_or] at distinct
  cases r <;> simp [ofSegments?, all, segments, distinct]

/-- **Below a segment** without a slash, a route is found with that segment. -/
theorem ofPath?_below (r : Route) {segment : Octets} (h : 0x2F ∉ segment) :
    ofPath? (0x2F :: segment ++ r.path) = some (r, some segment) := by
  have plain : ∀ b ∈ segment, (b == 0x2F) = false := by
    intro b hb
    exact beq_false_of_ne (ne_of_mem_of_not_mem hb h)
  have slash : ((0x2F : UInt8) == 0x2F) = true := rfl
  have parts : Text.pieces (· == 0x2F) (segment ++ r.path) = segment :: r.segments := by
    obtain ⟨rest, hr⟩ : ∃ rest, r.path = 0x2F :: rest := by cases r <;> exact ⟨_, rfl⟩
    have whole := pieces_path r
    rw [hr, Text.pieces_separator (· == 0x2F) slash] at whole
    rw [hr, Text.pieces_append_separator (· == 0x2F) slash plain, (List.cons.inj whole).2]
  rw [ofPath?, List.cons_append, Text.pieces_separator (· == 0x2F) slash, parts]
  simp only [ofSegments?_cons_segments, ofSegments?_segments, Option.map_some]

end Route

/-! ## Version segments -/

namespace Version

theorem mem_text {v : Version} {c : Char} (h : c ∈ v.text.toList) :
    c = '.' ∨ ∃ d < 10, c = Text.Decimal.digitChar d := by
  have digit {n : Nat} (hc : c ∈ Text.Decimal.chars n) :
      ∃ d < 10, c = Text.Decimal.digitChar d := by
    obtain ⟨d, hd, rfl⟩ := List.mem_map.1 hc
    exact ⟨d, Text.Decimal.lt_ten_of_mem_digits hd, rfl⟩
  rw [toList_text, List.mem_append, List.mem_cons] at h
  rcases h with h | h | h
  · exact .inr (digit h)
  · exact .inl h
  · exact .inr (digit h)

theorem utf8EncodeChar_digitChar : ∀ d < 10,
    0x25 ∉ String.utf8EncodeChar (Text.Decimal.digitChar d) ∧
      0x2F ∉ String.utf8EncodeChar (Text.Decimal.digitChar d) := by
  decide

theorem not_mem_encode_text (v : Version) :
    0x25 ∉ Text.encode v.text ∧ 0x2F ∉ Text.encode v.text := by
  have octet {c : Char} (hc : c ∈ v.text.toList) :
      0x25 ∉ String.utf8EncodeChar c ∧ 0x2F ∉ String.utf8EncodeChar c := by
    rcases mem_text hc with rfl | ⟨d, hd, rfl⟩
    · decide
    · exact utf8EncodeChar_digitChar d hd
  have octets : Text.encode v.text = v.text.toList.flatMap String.utf8EncodeChar := by
    rw [← Text.encode_ofList, String.ofList_toList]
  rw [octets]
  constructor
  all_goals
    intro h
    obtain ⟨c, hc, hb⟩ := List.mem_flatMap.1 h
  · exact (octet hc).1 hb
  · exact (octet hc).2 hb

/-- How a version is written in a path: as it stands, or behind a letter. -/
def Written (v : Version) (segment : String) : Prop :=
  segment = v.text ∨ segment = "v" ++ v.text

variable {v : Version} {segment : String}

theorem Written.parse? (h : v.Written segment) : Version.parse? segment = some v := by
  rcases h with rfl | rfl
  · exact parse?_text v
  · exact parse?_letter_text v

theorem Written.not_mem_encode (h : v.Written segment) :
    0x25 ∉ Text.encode segment ∧ 0x2F ∉ Text.encode segment := by
  have letter : Text.encode "v" = [0x76] := by decide
  have plain := not_mem_encode_text v
  rcases h with rfl | rfl
  · exact plain
  · simp [Text.encode_append, letter, plain]

theorem Written.decodeSegment? (h : v.Written segment) :
    decodeSegment? (Text.encode segment) = some segment := by
  rw [ImageBuild.decodeSegment?, Percent.decode_eq_self h.not_mem_encode.1, Text.decode?_encode]

end Version

/-! ## Requests -/

def HttpRequest.below (r : HttpRequest) (segment : String) : HttpRequest :=
  { r with uri := { r.uri with path := 0x2F :: Text.encode segment ++ r.uri.path } }

/-- **The default** of settings without a fault is accepted. -/
theorem Settings.resolve_default {s : Settings} (valid : s.fault? = none) {segment : String}
    (written : s.defaultVersion.Written segment) :
    Policy.resolve ⟨s.defaultVersion, s.minVersion⟩ (some segment) = .ok s.defaultVersion := by
  unfold fault? at valid
  split at valid
  · cases valid
  split at valid
  · cases valid
  next tooNew =>
  split at valid
  · cases valid
  next tooOld =>
  simp only [Policy.resolve, written.parse?, if_neg tooNew, if_neg tooOld]

/-- A request has the same options below a segment that stands for the default version. -/
theorem Policy.decode_below (p : Policy) {segment : Option String}
    (h : p.resolve segment = .ok p.default) (r : HttpRequest) (front : String) :
    p.decode ⟨segment, (r.below front).uri, r.mediaTypes, r.body.isSome⟩ =
      p.decode ⟨none, r.uri, r.mediaTypes, r.body.isSome⟩ := by
  have none_default : p.resolve none = .ok p.default := rfl
  simp only [decode, h, none_default]
  rfl

namespace Service

variable {ι σ : Type} [Engine ι σ]

/-- A version segment that stands for the default version changes nothing. -/
theorem dispatch_below (s : Service ι σ) (route : Route) {segment : String}
    (h : s.policy.resolve (some segment) = .ok s.settings.defaultVersion) (r : HttpRequest) :
    s.dispatch route (some segment) (r.below segment) = s.dispatch route none r := by
  cases route with
  | ping =>
    simp only [dispatch, ping, h]
    rfl
  | build =>
    have decoded := s.policy.decode_below h r segment
    simp only [dispatch, build]
    simp only [HttpRequest.below] at decoded ⊢
    rw [decoded]
  | cancel =>
    have none_default : s.policy.resolve none = .ok s.settings.defaultVersion := rfl
    simp only [dispatch, cancel, h, none_default]
    rfl
  | prune =>
    have none_default : s.policy.resolve none = .ok s.settings.defaultVersion := rfl
    simp only [dispatch, prune, h, none_default]
    rfl

/-- **Routes below the default version**: with settings that have no fault, a request to a
route is answered below the text of the default version as it is without a version, and what
it leaves behind is the same. -/
theorem accept_below_default (s : Service ι σ) (valid : s.settings.fault? = none) (route : Route)
    (r : HttpRequest) (at_route : r.uri.path = route.path) (segment : String)
    (written : s.settings.defaultVersion.Written segment) :
    Route.ofPath? r.uri.path = some (route, none) ∧
      Route.ofPath? (r.below segment).uri.path = some (route, some (Text.encode segment)) ∧
      s.policy.resolve (some segment) = .ok s.settings.defaultVersion ∧
      s.accept (r.below segment) = s.accept r := by
  have plain : Route.ofPath? r.uri.path = some (route, none) := at_route ▸ route.ofPath?_path
  have below :
      Route.ofPath? (r.below segment).uri.path = some (route, some (Text.encode segment)) := by
    have := route.ofPath?_below written.not_mem_encode.2
    rwa [← at_route] at this
  have version : s.policy.resolve (some segment) = .ok s.settings.defaultVersion :=
    Settings.resolve_default valid written
  refine ⟨plain, below, version, ?_⟩
  have method : (r.below segment).method = r.method := rfl
  unfold accept
  rw [plain, below]
  simp only [method, written.decodeSegment?, s.dispatch_below route version r]

/-- A default that is the minimum as well: a build opens its exchange below it as it does
without a version. -/
theorem accept_below_default_oldest :
    let settings : Settings := { defaultVersion := ⟨1, 40⟩, minVersion := ⟨1, 40⟩ }
    let s : Service ContextEngine.Job Store := { settings, workshop := ⟨{}, {}⟩ }
    let r : HttpRequest :=
      { uri := ⟨Text.encode "/build", some (Text.encode "platform=linux")⟩
        body := some ⟨[.pause], false⟩ }
    (settings.fault? = none ∧ r.uri.path = Route.build.path ∧
      settings.defaultVersion.Written "v1.40") ∧
    (r.below "v1.40").uri.path = Text.encode "/v1.40/build" ∧
    s.accept (r.below "v1.40") = s.accept r := by
  intro settings s r
  have valid : settings.fault? = none := by decide
  have at_route : r.uri.path = Route.build.path := by decide
  have written : settings.defaultVersion.Written "v1.40" := by
    right
    decide +kernel
  refine ⟨⟨valid, at_route, written⟩, by decide, ?_⟩
  exact (accept_below_default s valid .build r at_route "v1.40" written).2.2.2

end Service
end ImageBuild
