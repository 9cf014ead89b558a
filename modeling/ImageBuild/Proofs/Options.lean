import ImageBuild.Options
import ImageBuild.Proofs.Json.Forms

/-!
# Options and reports are read back

Options of builds, exporters, builders, options of prunes and prune reports are read
back from any JSON text that they have (`options_read_back`). Which texts these are
is said by their forms, one slot for each field.
-/

namespace ImageBuild

open Json
open Json.Form (Slot Fills string bool u64 string? u64? i64?)

/-! ## Forms -/

namespace BuilderKind

theorem ofName?_name (b : BuilderKind) : ofName? b.name = some b := by
  cases b <;> decide

theorem reads_print (b : BuilderKind) : reader.Reads b.print b := by
  intro rest _
  show reader.run (0x22 :: ((Text.encode b.name).flatMap Print.escape ++ [0x22] ++ rest)) = _
  rw [List.append_assoc, List.singleton_append]
  simp only [reader, Reader.ofFirst, Json.skipBlank_cons (b := 0x22) (by decide), if_true,
    readName]
  rw [Json.Quoted.read_escapes]
  simp only [ofName?_name]

/-- A builder is the string that names it. -/
def form : Form BuilderKind :=
  .plain print reader (fun b => .string b.name) reads_print
    (fun b n => Reader.reads_value_string n b.name) fun b => Json.isItem_string b.name

end BuilderKind

namespace Output

def slots : List (Slot Output) :=
  [⟨"Type", .never, string, kind, fun o x => { o with kind := x }⟩,
    ⟨"Attrs", .never, string.dict, attributes, fun o x => { o with attributes := x }⟩]

theorem fills : Fills slots shape := ⟨rfl, by decide, fun _ => rfl⟩

def form : Form Output := .record fills

end Output

namespace BuildOptions

def slots : List (Slot BuildOptions) :=
  [⟨"tags", .always, string.list, tags, fun o x => { o with tags := x }⟩,
    ⟨"dockerfile", .always, string, dockerfile, fun o x => { o with dockerfile := x }⟩,
    ⟨"remote_context", .inArray, string?, remoteContext, fun o x => { o with remoteContext := x }⟩,
    ⟨"build_args", .always, string?.dict, buildArgs, fun o x => { o with buildArgs := x }⟩,
    ⟨"labels", .always, string.dict, labels, fun o x => { o with labels := x }⟩,
    ⟨"no_cache", .always, bool, noCache, fun o x => { o with noCache := x }⟩,
    ⟨"remove", .always, bool, remove, fun o x => { o with remove := x }⟩,
    ⟨"force_remove", .always, bool, forceRemove, fun o x => { o with forceRemove := x }⟩,
    ⟨"pull", .always, bool, pull, fun o x => { o with pull := x }⟩,
    ⟨"suppress_output", .always, bool, quiet, fun o x => { o with quiet := x }⟩,
    ⟨"target", .inArray, string?, target, fun o x => { o with target := x }⟩,
    ⟨"platform", .inArray, string?, platform, fun o x => { o with platform := x }⟩,
    ⟨"network_mode", .inArray, string?, networkMode, fun o x => { o with networkMode := x }⟩,
    ⟨"cache_from", .always, string.list, cacheFrom, fun o x => { o with cacheFrom := x }⟩,
    ⟨"shm_size", .inArray, u64?, shmSize, fun o x => { o with shmSize := x }⟩,
    ⟨"memory", .inArray, i64?, memory, fun o x => { o with memory := x }⟩,
    ⟨"cpu_shares", .inArray, i64?, cpuShares, fun o x => { o with cpuShares := x }⟩,
    ⟨"build_id", .inArray, string?, buildId, fun o x => { o with buildId := x }⟩,
    ⟨"builder_version", .always, BuilderKind.form, builder, fun o x => { o with builder := x }⟩,
    ⟨"outputs", .always, Output.form.list, outputs, fun o x => { o with outputs := x }⟩]

theorem fills : Fills slots shape := ⟨rfl, by decide, fun _ => rfl⟩

def form : Form BuildOptions := .record fills

end BuildOptions

namespace PruneOptions

def slots : List (Slot PruneOptions) :=
  [⟨"all", .always, bool, all, fun o x => { o with all := x }⟩,
    ⟨"keep_storage", .always, u64, keepStorage, fun o x => { o with keepStorage := x }⟩,
    ⟨"filters", .always, string.list.dict, filters, fun o x => { o with filters := x }⟩]

theorem fills : Fills slots shape := ⟨rfl, by decide, fun _ => rfl⟩

def form : Form PruneOptions := .record fills

end PruneOptions

namespace PruneReport

def slots : List (Slot PruneReport) :=
  [⟨"CachesDeleted", .always, string.list, deleted, fun r x => { r with deleted := x }⟩,
    ⟨"SpaceReclaimed", .always, u64, reclaimed, fun r x => { r with reclaimed := x }⟩]

theorem fills : Fills slots shape := ⟨rfl, by decide, fun _ => rfl⟩

def form : Form PruneReport := .record fills

end PruneReport

/-! ## Round trips -/

/-- **Options and reports survive JSON.** What is printed of a builder, an exporter, the options
of a build or a prune, or the report of a prune is read back as the same value. So is every
other text of it, in which dictionaries have their members in another order, and all the texts
of one value are the same JSON value. -/
theorem options_read_back :
    BuilderKind.form.RoundTrips BuilderKind.reader BuilderKind.print ∧
    Output.form.RoundTrips Output.shape.reader Output.print ∧
    BuildOptions.form.RoundTrips BuildOptions.shape.reader BuildOptions.print ∧
    PruneOptions.form.RoundTrips PruneOptions.shape.reader PruneOptions.print ∧
    PruneReport.form.RoundTrips PruneReport.shape.reader PruneReport.print :=
  ⟨BuilderKind.form.roundTrips, Output.form.roundTrips, BuildOptions.form.roundTrips,
    PruneOptions.form.roundTrips, PruneReport.form.roundTrips⟩

/-- An exporter with its attributes in descending order. -/
theorem options_read_back_descending :
    let o : Output := ⟨"tar", .ofList [("dest", "\"\n\u0001é"), ("compression", "")]⟩
    let t := Text.encode ("\x7b\"Type\":\"tar\",\"Attrs\":" ++
      "\x7b\"dest\":\"\\\"\\n\\u0001é\",\"compression\":\"\"\x7d\x7d")
    Output.form.IsText o t ∧ t ≠ o.print ∧ Output.shape.reader.parse t = .ok o ∧
      (Reader.value 2).parse t = (Reader.value 2).parse o.print := by
  intro o t
  have text : Output.form.IsText o t := by
    refine ⟨[("Type", Print.string "tar"), ("Attrs", Print.object [("dest", Print.string
      "\"\n\u0001é"), ("compression", Print.string "")])], ?_, by decide⟩
    refine .cons ⟨rfl, rfl⟩ (.cons ⟨rfl, ?_⟩ .nil)
    refine ⟨[("dest", "\"\n\u0001é"), ("compression", "")], _, .swap .., ?_, rfl⟩
    exact .cons ⟨rfl, rfl⟩ (.cons ⟨rfl, rfl⟩ .nil)
  obtain ⟨-, trips, -⟩ := options_read_back
  obtain ⟨printed, all⟩ := trips o
  obtain ⟨read, means⟩ := all t text
  refine ⟨text, by decide, read, ?_⟩
  exact (means 2 (Nat.le_refl 2)).trans ((all _ printed).2 2 (Nat.le_refl 2)).symm

end ImageBuild
