import ImageBuild.Json.Skip

/-!
# Records

A record is written as an object, or as an array of its fields in order. It
is read by changing an initial record field by field. Members with unknown
names are passed over, and no name may occur twice.
-/

namespace ImageBuild.Json

/-- Where a field has to be given. -/
inductive Need where
  /-- in an object and in an array -/
  | always
  /-- in an array only -/
  | inArray
  /-- nowhere: it keeps its initial value -/
  | never
  deriving DecidableEq

/-- A field of a record: its name and how its value changes the record. -/
structure Field (R : Type) where
  name : String
  need : Need
  reader : Reader (R → R)

/-- A kind of record: its name, the record before any field is read, and its
fields in order. -/
structure Shape (R : Type) where
  name : String
  initial : R
  fields : List (Field R)

def Field.of {R T : Type} (name : String) (need : Need) (p : Reader T) (set : R → T → R) :
    Field R :=
  ⟨name, need, p.map fun a r => set r a⟩

namespace Shape

variable {R : Type}

/-- What a message says is expected where a record should be. -/
def expected (k : Shape R) : String := "struct " ++ k.name

/-- What a message says about the length of an array that stands for a record. -/
def expectedLength (k : Shape R) : String :=
  k.expected ++ " with " ++ Text.Decimal.text k.fields.length ++ " elements"

/-- How a member changes the record and the names that have occurred. -/
def take (k : Shape R) (seen : R × List String) (name : String) :
    Except Cause (Reader (R × List String → R × List String)) :=
  match k.fields.find? (·.name == name) with
  | none => .ok (Reader.skip.map fun _ => id)
  | some f =>
    if name ∈ seen.2 then .error (.duplicateField name)
    else .ok (f.reader.map fun g x => (g x.1, name :: x.2))

/-- The first field that an object has to give and does not. -/
def missing? (k : Shape R) (names : List String) : Option String :=
  (k.fields.find? fun f => f.need == .always && !names.contains f.name).map (·.name)

/-- Reads the members of an object after its opening bracket. -/
def readObject (k : Shape R) (s : Octets) : Except Fault (R × Octets) :=
  match Reader.foldMembers k.take (k.initial, []) true s with
  | .error f => .error f
  | .ok ((a, names), r) =>
    match k.missing? names with
    | some name => .error (.here (.missingField name) r)
    | none => .ok (a, r)

/-- Reads the end of an array that has given every field. -/
def readEnd (s : Octets) : Except Fault Octets :=
  match skipBlank s with
  | [] => .error ⟨.endOfList, 0⟩
  | b :: rest =>
    if b = 0x5D then .ok rest
    else if b = 0x2C then
      match skipBlank rest with
      | 0x5D :: more => .error (.next .trailingComma (0x5D :: more))
      | more => .error (.next .trailingCharacters more)
    else .error (.next .trailingCharacters (b :: rest))

/-- Reads the items of an array as the fields from number `i` on. -/
def readItems (k : Shape R) (a : R) (i : Nat) (s : Octets) :
    List (Field R) → Except Fault (R × Octets)
  | [] => (readEnd s).map fun r => (a, r)
  | f :: fs =>
    match nextItem (i = 0) s with
    | .error e => .error e
    | .ok (.close r) =>
      match (f :: fs).findIdx? (·.need ≠ .never) with
      | some j => .error (.here (.wrongLength (i + j) k.expectedLength) r)
      | none => .ok (a, r)
    | .ok (.part t) =>
      match f.reader.run t with
      | .error e => .error e
      | .ok (g, r) => readItems k (g a) (i + 1) r fs

theorem length_readEnd {s r : Octets} (h : readEnd s = .ok r) : r.length ≤ s.length := by
  have hs := length_skipBlank s
  unfold readEnd at h
  split at h
  · cases h
  · next hb =>
    rw [hb] at hs
    split at h
    · cases h
      exact Nat.le_of_succ_le hs
    · split at h
      · split at h <;> cases h
      · cases h

theorem length_readObject {k : Shape R} {s r : Octets} {a : R}
    (h : k.readObject s = .ok (a, r)) : r.length ≤ s.length := by
  unfold readObject at h
  split at h
  · cases h
  · next hm =>
    split at h <;> cases h
    exact Nat.le_of_lt (Reader.length_foldMembers hm)

theorem length_readItems {k : Shape R} {a b : R} {i : Nat} {s r : Octets}
    {fs : List (Field R)} (h : k.readItems a i s fs = .ok (b, r)) : r.length ≤ s.length := by
  induction fs generalizing a i s with
  | nil =>
    obtain ⟨t, ht, he⟩ := Reader.of_map_ok h
    cases he
    exact length_readEnd ht
  | cons f fs ih =>
    simp only [readItems] at h
    split at h
    · cases h
    · next hn =>
      split at h <;> cases h
      exact Nat.le_of_lt (length_nextItem_close hn)
    · next hn =>
      split at h
      · cases h
      · next hr =>
        exact Nat.le_trans (ih h) (Nat.le_of_lt
          (Nat.lt_of_lt_of_le (f.reader.shorter hr) (length_nextItem hn)))

def reader (k : Shape R) : Reader R :=
  .ofFirst (fun b s =>
      if b = 0x7B then k.readObject s
      else if b = 0x5B then k.readItems k.initial 0 s k.fields
      else .error (mismatch k.expected b s)) <| by
    intro b s a r h
    split at h
    · exact length_readObject h
    · split at h
      · exact length_readItems h
      · cases h

end Shape
end ImageBuild.Json
