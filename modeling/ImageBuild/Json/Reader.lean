import ImageBuild.Dict
import ImageBuild.Json.Numeral
import ImageBuild.Json.Quoted

/-!
# Readers

A reader takes one value from the front of a text and returns it with the
rest, which is shorter. Readers say which type they expect, so that the first
fault of a text, whether of form or of type, is the one reported. `list`,
`dict` and `foldMembers` build readers of compound values from readers of
their parts; `parse` reads a text that holds one value and `stream` a text
that holds any number of them.
-/

namespace ImageBuild.Json

def isBlank (b : UInt8) : Bool := b == 0x20 || b == 0x0A || b == 0x09 || b == 0x0D

def skipBlank (s : Octets) : Octets := s.dropWhile isBlank

theorem length_skipBlank (s : Octets) : (skipBlank s).length ≤ s.length :=
  Numeral.length_dropWhile_le ..

def readWord : Octets → Octets → Except Fault Octets
  | [], s => .ok s
  | _ :: _, [] => .error ⟨.endOfValue, 0⟩
  | c :: word, b :: s => if b = c then readWord word s else .error (.here .expectedIdent s)

theorem length_readWord {word s r : Octets} (h : readWord word s = .ok r) :
    r.length ≤ s.length := by
  induction word generalizing s with
  | nil =>
    cases h
    exact Nat.le_refl _
  | cons c word ih =>
    cases s with
    | nil => cases h
    | cons b s =>
      simp only [readWord] at h
      split at h
      · exact Nat.le_succ_of_le (ih h)
      · cases h

/-- The letters after the first one of the three words. -/
def wordTail? (b : UInt8) : Option (Octets × Found) :=
  if b = 0x6E then some ([0x75, 0x6C, 0x6C], .null)
  else if b = 0x74 then some ([0x72, 0x75, 0x65], .bool true)
  else if b = 0x66 then some ([0x61, 0x6C, 0x73, 0x65], .bool false)
  else none

/-- A fault at the end of a value that was read but is not wanted. -/
def unwanted {α : Type} (expected : String) (found : α → Found) :
    Except Fault (α × Octets) → Fault
  | .error f => f
  | .ok (a, rest) => .here (.wrongType (found a) expected) rest

/-- The fault of a value that begins with `b` and is not of the expected type. -/
def mismatch (expected : String) (b : UInt8) (rest : Octets) : Fault :=
  match wordTail? b with
  | some (word, found) =>
    unwanted expected (fun _ => found) ((readWord word rest).map fun r => ((), r))
  | none =>
    if b = 0x2D then unwanted expected .number (Numeral.read true rest)
    else if Numeral.isDigit b then unwanted expected .number (Numeral.read false (b :: rest))
    else if b = 0x22 then unwanted expected .string (Quoted.read rest)
    else if b = 0x5B then .here (.wrongType .sequence expected) (b :: rest)
    else if b = 0x7B then .here (.wrongType .map expected) (b :: rest)
    else .next .expectedValue (b :: rest)

/-- Takes a value from the front of a text. -/
structure Reader (α : Type) where
  run : Octets → Except Fault (α × Octets)
  shorter : ∀ {s : Octets} {a : α} {r : Octets}, run s = .ok (a, r) → r.length < s.length

namespace Reader

variable {α β : Type}

/-- The reader that decides by the first octet that is no blank. -/
def ofFirst (read : UInt8 → Octets → Except Fault (α × Octets))
    (h : ∀ {b : UInt8} {s : Octets} {a : α} {r : Octets},
      read b s = .ok (a, r) → r.length ≤ s.length) : Reader α where
  run s :=
    match skipBlank s with
    | [] => .error ⟨.endOfValue, 0⟩
    | b :: rest => read b rest
  shorter {s a r} hr := by
    have hs := length_skipBlank s
    split at hr
    · cases hr
    · next hb =>
      rw [hb] at hs
      exact Nat.lt_of_le_of_lt (h hr) hs

def map (f : α → β) (p : Reader α) : Reader β where
  run s :=
    match p.run s with
    | .error e => .error e
    | .ok (a, r) => .ok (f a, r)
  shorter {s a r} hr := by
    split at hr
    · cases hr
    · next hp =>
      cases hr
      exact p.shorter hp

def string : Reader String :=
  ofFirst (fun b s => if b = 0x22 then Quoted.read s else .error (mismatch "a string" b s)) <| by
    intro b s a r h
    split at h
    · exact Nat.le_of_lt (Quoted.length_read h)
    · cases h

def bool : Reader Bool :=
  ofFirst (fun b s =>
      if b = 0x74 then (readWord [0x72, 0x75, 0x65] s).map fun r => (true, r)
      else if b = 0x66 then (readWord [0x61, 0x6C, 0x73, 0x65] s).map fun r => (false, r)
      else .error (mismatch "a boolean" b s)) <| by
    have word : ∀ {w s r : Octets} {x a : Bool},
        (readWord w s).map (fun r => (x, r)) = .ok (a, r) → r.length ≤ s.length := by
      intro w s r x a h
      cases hw : readWord w s with
      | error e => rw [hw] at h; cases h
      | ok t =>
        rw [hw] at h
        cases h
        exact length_readWord hw
    intro b s a r h
    split at h
    · exact word h
    · split at h
      · exact word h
      · cases h

/-- Turns a number into an integer type, or says why it is none. -/
def acceptInteger (expected : String) (accept : Int → Option α) :
    Except Fault (Number × Octets) → Except Fault (α × Octets)
  | .error f => .error f
  | .ok (.real x, rest) => .error (.here (.wrongType (.number (.real x)) expected) rest)
  | .ok (.whole n, rest) =>
    match accept n.toInt with
    | some a => .ok (a, rest)
    | none => .error (.here (.wrongValue n.toInt expected) rest)

theorem of_acceptInteger {expected : String} {accept : Int → Option α}
    {x : Except Fault (Number × Octets)} {a : α} {r : Octets}
    (h : acceptInteger expected accept x = .ok (a, r)) : ∃ n, x = .ok (n, r) := by
  unfold acceptInteger at h
  split at h
  · cases h
  · cases h
  · split at h <;> cases h
    exact ⟨_, rfl⟩

def integer (expected : String) (accept : Int → Option α) : Reader α :=
  ofFirst (fun b s =>
      if b = 0x2D then acceptInteger expected accept (Numeral.read true s)
      else if Numeral.isDigit b then
        acceptInteger expected accept (Numeral.read false (b :: s))
      else .error (mismatch expected b s)) <| by
    intro b s a r h
    split at h
    · obtain ⟨n, hn⟩ := of_acceptInteger h
      exact Nat.le_of_lt (Numeral.length_read hn)
    · split at h
      · obtain ⟨n, hn⟩ := of_acceptInteger h
        exact Nat.le_of_lt_succ (Numeral.length_read hn)
      · cases h

def u64 : Reader UInt64 :=
  integer "u64" fun n => if 0 ≤ n ∧ n ≤ 0xFFFFFFFFFFFFFFFF then some (UInt64.ofNat n.toNat) else none

def u16 : Reader UInt16 :=
  integer "u16" fun n => if 0 ≤ n ∧ n ≤ 0xFFFF then some (UInt16.ofNat n.toNat) else none

def i64 : Reader Int64 :=
  integer "i64" fun n => if -0x8000000000000000 ≤ n ∧ n ≤ 0x7FFFFFFFFFFFFFFF then some (Int64.ofInt n) else none

def null : Reader Unit :=
  ofFirst (fun b s =>
      if b = 0x6E then (readWord [0x75, 0x6C, 0x6C] s).map fun r => ((), r)
      else .error (mismatch "unit" b s)) <| by
    intro b s a r h
    split at h
    · cases hw : readWord [0x75, 0x6C, 0x6C] s with
      | error e => rw [hw] at h; cases h
      | ok t =>
        rw [hw] at h
        cases h
        exact length_readWord hw
    · cases h

/-- Reads a value, or nothing where there is a null. -/
def option (p : Reader α) : Reader (Option α) where
  run s :=
    match skipBlank s with
    | 0x6E :: rest => (readWord [0x75, 0x6C, 0x6C] rest).map fun r => (none, r)
    | _ =>
      match p.run s with
      | .error e => .error e
      | .ok (a, r) => .ok (some a, r)
  shorter {s a r} hr := by
    have hs := length_skipBlank s
    split at hr
    · next rest hb =>
      rw [hb] at hs
      cases hw : readWord [0x75, 0x6C, 0x6C] rest with
      | error e => rw [hw] at hr; cases hr
      | ok t =>
        rw [hw] at hr
        cases hr
        exact Nat.lt_of_le_of_lt (length_readWord hw) hs
    · split at hr
      · cases hr
      · next hp =>
        cases hr
        exact p.shorter hp

end Reader

/-- What comes next in an array or an object: its end, with what follows, or
a part of it. -/
inductive Ahead where
  | close (rest : Octets)
  | part (s : Octets)

def nextItem (first : Bool) (s : Octets) : Except Fault Ahead :=
  match skipBlank s with
  | [] => .error ⟨.endOfList, 0⟩
  | b :: rest =>
    if b = 0x5D then .ok (.close rest)
    else if first then .ok (.part (b :: rest))
    else if b = 0x2C then
      match skipBlank rest with
      | [] => .error ⟨.endOfValue, 0⟩
      | c :: more =>
        if c = 0x5D then .error (.next .trailingComma (c :: more)) else .ok (.part (c :: more))
    else .error (.next .expectedListEnd (b :: rest))

/-- Looks for the next member of an object; a part begins after the quote
that opens its name. -/
def nextMember (first : Bool) (s : Octets) : Except Fault Ahead :=
  match skipBlank s with
  | [] => .error ⟨.endOfObject, 0⟩
  | b :: rest =>
    if b = 0x7D then .ok (.close rest)
    else if first then
      if b = 0x22 then .ok (.part rest) else .error (.next .expectedKey (b :: rest))
    else if b = 0x2C then
      match skipBlank rest with
      | [] => .error ⟨.endOfValue, 0⟩
      | c :: more =>
        if c = 0x22 then .ok (.part more)
        else if c = 0x7D then .error (.next .trailingComma (c :: more))
        else .error (.next .expectedKey (c :: more))
    else .error (.next .expectedObjectEnd (b :: rest))

/-- Passes over the colon after the name of a member. -/
def readColon (s : Octets) : Except Fault Octets :=
  match skipBlank s with
  | [] => .error ⟨.endOfObject, 0⟩
  | b :: rest => if b = 0x3A then .ok rest else .error (.next .expectedColon (b :: rest))

def Ahead.rest : Ahead → Octets
  | .close rest => rest
  | .part s => s

theorem length_nextItem {first : Bool} {s : Octets} {a : Ahead} (h : nextItem first s = .ok a) :
    a.rest.length ≤ s.length := by
  have hs := length_skipBlank s
  unfold nextItem at h
  split at h
  · cases h
  · next b rest hb =>
    rw [hb] at hs
    split at h
    · cases h
      exact Nat.le_of_succ_le hs
    · split at h
      · cases h
        exact hs
      · split at h
        · have hr := length_skipBlank rest
          split at h
          · cases h
          · next hc =>
            rw [hc] at hr
            split at h <;> cases h
            exact Nat.le_trans hr (Nat.le_of_succ_le hs)
        · cases h

theorem length_nextItem_close {first : Bool} {s r : Octets}
    (h : nextItem first s = .ok (.close r)) : r.length < s.length := by
  have hs := length_skipBlank s
  unfold nextItem at h
  split at h
  · cases h
  · next b rest hb =>
    rw [hb] at hs
    split at h
    · cases h
      exact hs
    · split at h
      · cases h
      · split at h
        · split at h
          · cases h
          · split at h <;> cases h
        · cases h

theorem length_nextMember {first : Bool} {s : Octets} {a : Ahead}
    (h : nextMember first s = .ok a) : a.rest.length < s.length := by
  have hs := length_skipBlank s
  unfold nextMember at h
  split at h
  · cases h
  · next b rest hb =>
    rw [hb] at hs
    split at h
    · cases h
      exact hs
    · split at h
      · split at h <;> cases h
        exact hs
      · split at h
        · have hr := length_skipBlank rest
          split at h
          · cases h
          · next hc =>
            rw [hc] at hr
            split at h
            · cases h
              exact Nat.lt_trans hr hs
            · split at h <;> cases h
        · cases h

theorem length_readColon {s r : Octets} (h : readColon s = .ok r) : r.length < s.length := by
  have hs := length_skipBlank s
  unfold readColon at h
  split at h
  · cases h
  · next b rest hb =>
    rw [hb] at hs
    split at h <;> cases h
    exact hs

namespace Reader

variable {α β σ : Type}

def items (p : Reader α) (first : Bool) (s : Octets) : Except Fault (List α × Octets) :=
  match _ha : nextItem first s with
  | .error f => .error f
  | .ok (.close rest) => .ok ([], rest)
  | .ok (.part t) =>
    match _hp : p.run t with
    | .error f => .error f
    | .ok (a, r) =>
      match items p false r with
      | .error f => .error f
      | .ok (as, r) => .ok (a :: as, r)
termination_by s.length
decreasing_by exact Nat.lt_of_lt_of_le (p.shorter _hp) (length_nextItem _ha)

theorem length_items {p : Reader α} {first : Bool} {s r : Octets} {as : List α}
    (h : items p first s = .ok (as, r)) : r.length < s.length := by
  fun_induction items p first s generalizing as r with
  | case1 => cases h
  | case2 first s rest ha =>
    cases h
    exact length_nextItem_close ha
  | case3 => cases h
  | case4 => cases h
  | case5 first s t ha a u hp as' r' hi ih =>
    cases h
    exact Nat.lt_trans (ih hi) (Nat.lt_of_lt_of_le (p.shorter hp) (length_nextItem ha))

def list (p : Reader α) : Reader (List α) :=
  ofFirst (fun b s => if b = 0x5B then items p true s else .error (mismatch "a sequence" b s)) <| by
    intro b s a r h
    split at h
    · exact Nat.le_of_lt (length_items h)
    · cases h

/-- The fault of a member whose name is refused. It is placed before the next
token, or after it if the object ends there. -/
def refusal (cause : Cause) (s : Octets) : Fault :=
  match skipBlank s with
  | 0x7D :: rest => .here cause rest
  | rest => .here cause rest

/-- Reads the members of an object up to its end. `take` says how a member of
a name changes the value collected so far, or why it may not stand there. -/
def foldMembers (take : σ → String → Except Cause (Reader (σ → σ))) (acc : σ) (first : Bool)
    (s : Octets) : Except Fault (σ × Octets) :=
  match _ha : nextMember first s with
  | .error f => .error f
  | .ok (.close rest) => .ok (acc, rest)
  | .ok (.part t) =>
    match _hn : Quoted.read t with
    | .error f => .error f
    | .ok (name, u) =>
      match take acc name with
      | .error cause => .error (refusal cause u)
      | .ok p =>
        match _hc : readColon u with
        | .error f => .error f
        | .ok v =>
          match _hp : p.run v with
          | .error f => .error f
          | .ok (f, r) => foldMembers take (f acc) false r
termination_by s.length
decreasing_by
  exact Nat.lt_trans (p.shorter _hp) (Nat.lt_trans (length_readColon _hc)
    (Nat.lt_trans (Quoted.length_read _hn) (length_nextMember _ha)))

theorem length_foldMembers {take : σ → String → Except Cause (Reader (σ → σ))} {acc a : σ}
    {first : Bool} {s r : Octets} (h : foldMembers take acc first s = .ok (a, r)) :
    r.length < s.length := by
  fun_induction foldMembers take acc first s with
  | case1 => cases h
  | case2 acc first s rest ha =>
    cases h
    exact length_nextMember ha
  | case3 => cases h
  | case4 => cases h
  | case5 => cases h
  | case6 => cases h
  | case7 acc first s t ha name u hn p _ v hc f w hp ih =>
    exact Nat.lt_trans (ih h) (Nat.lt_trans (p.shorter hp) (Nat.lt_trans (length_readColon hc)
      (Nat.lt_trans (Quoted.length_read hn) (length_nextMember ha))))

/-- Reads an object whose members are values of one kind. Of two members with
one name the later counts. -/
def dict (p : Reader α) : Reader (Dict α) :=
  ofFirst (fun b s =>
      if b = 0x7B then
        foldMembers (fun _ name => .ok (p.map fun a d => d.insert name a)) .empty true s
      else .error (mismatch "a map" b s)) <| by
    intro b s a r h
    split at h
    · exact Nat.le_of_lt (length_foldMembers h)
    · cases h

/-- A value that is neither an array nor an object. -/
def scalar (b : UInt8) (s : Octets) : Except Fault (Value × Octets) :=
  if b = 0x22 then (Quoted.read s).map fun (t, r) => (.string t, r)
  else if b = 0x2D then (Numeral.read true s).map fun (n, r) => (.number n, r)
  else if Numeral.isDigit b then (Numeral.read false (b :: s)).map fun (n, r) => (.number n, r)
  else
    match wordTail? b with
    | some (word, .bool x) => (readWord word s).map fun r => (.bool x, r)
    | some (word, _) => (readWord word s).map fun r => (.null, r)
    | none => .error (.next .expectedValue (b :: s))

theorem of_map_ok {γ δ : Type} {x : Except Fault γ} {f : γ → δ} {d : δ}
    (h : x.map f = .ok d) : ∃ c, x = .ok c ∧ f c = d := by
  cases x with
  | error e => cases h
  | ok c => exact ⟨c, rfl, by injection h⟩

theorem length_scalar {b : UInt8} {s r : Octets} {v : Value} (h : scalar b s = .ok (v, r)) :
    r.length ≤ s.length := by
  unfold scalar at h
  split at h
  · obtain ⟨⟨t, u⟩, hq, he⟩ := of_map_ok h
    cases he
    exact Nat.le_of_lt (Quoted.length_read hq)
  · split at h
    · obtain ⟨⟨n, u⟩, hq, he⟩ := of_map_ok h
      cases he
      exact Nat.le_of_lt (Numeral.length_read hq)
    · split at h
      · obtain ⟨⟨n, u⟩, hq, he⟩ := of_map_ok h
        cases he
        exact Nat.le_of_lt_succ (Numeral.length_read hq)
      · split at h
        · obtain ⟨u, hq, he⟩ := of_map_ok h
          cases he
          exact length_readWord hq
        · obtain ⟨u, hq, he⟩ := of_map_ok h
          cases he
          exact length_readWord hq
        · cases h

/-- Reads any value in which at most `depth` brackets are open at once. -/
def value : Nat → Reader Value
  | 0 =>
    ofFirst (fun b s =>
        if b = 0x5B ∨ b = 0x7B then .error (.next .tooDeep (b :: s)) else scalar b s) <| by
      intro b s a r h
      split at h
      · cases h
      · exact length_scalar h
  | depth + 1 =>
    ofFirst (fun b s =>
        if b = 0x5B then (items (value depth) true s).map fun (vs, r) => (.array vs, r)
        else if b = 0x7B then
          (foldMembers (fun _ name => .ok ((value depth).map fun v d => d.insert name v))
            (.empty : Dict Value) true s).map fun (d, r) => (.object d.entries, r)
        else scalar b s) <| by
      intro b s a r h
      split at h
      · obtain ⟨⟨vs, u⟩, hi, he⟩ := of_map_ok h
        cases he
        exact Nat.le_of_lt (length_items hi)
      · split at h
        · obtain ⟨⟨d, u⟩, hm, he⟩ := of_map_ok h
          cases he
          exact Nat.le_of_lt (length_foldMembers hm)
        · exact length_scalar h

/-- Reads a text that holds one value and blanks. -/
def parse (p : Reader α) (input : Octets) : Except Fault α :=
  match p.run input with
  | .error f => .error f
  | .ok (a, r) =>
    match skipBlank r with
    | [] => .ok a
    | rest => .error (.next .trailingCharacters rest)

/-- Reads a text that holds any number of values, with or without blanks
between them. -/
def stream (p : Reader α) (s : Octets) : Except Fault (List α) :=
  match skipBlank s with
  | [] => .ok []
  | _ =>
    match _hp : p.run s with
    | .error f => .error f
    | .ok (a, r) =>
      match stream p r with
      | .error f => .error f
      | .ok as => .ok (a :: as)
termination_by s.length
decreasing_by exact p.shorter _hp

end Reader
end ImageBuild.Json
