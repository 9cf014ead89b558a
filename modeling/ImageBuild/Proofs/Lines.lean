import ImageBuild.Message
import ImageBuild.Proofs.Json.Scalars
import ImageBuild.Text.Pieces

/-!
# Frames are lines

The text of a JSON value is UTF-8 and has no control character (`isLine_print`): those in
strings and in the names of members are escaped, however deep they stand, and numbers are
written with visible characters. So a frame is one line and its newline, and the frames of
any messages are told apart by their newlines alone (`frames_apart`).
-/

namespace ImageBuild

/-- **Octets of a line:** text without control characters. -/
structure IsLine (o : Octets) : Prop where
  text : ∃ t : String, Text.encode t = o
  visible : ∀ b ∈ o, 0x20 ≤ b

namespace IsLine

theorem nil : IsLine [] := by
  constructor
  · exact ⟨"", rfl⟩
  · intro b hb
    cases hb

theorem append {o o' : Octets} (h : IsLine o) (h' : IsLine o') : IsLine (o ++ o') := by
  obtain ⟨⟨t, rfl⟩, visible⟩ := h
  obtain ⟨⟨t', rfl⟩, visible'⟩ := h'
  constructor
  · exact ⟨t ++ t', Text.encode_append t t'⟩
  · intro b hb
    rcases List.mem_append.1 hb with hb | hb
    · exact visible b hb
    · exact visible' b hb

theorem flatMap {α : Type} {f : α → Octets} {as : List α} (h : ∀ a ∈ as, IsLine (f a)) :
    IsLine (as.flatMap f) := by
  induction as with
  | nil => exact nil
  | cons a as ih =>
    rw [List.flatMap_cons]
    apply append
    · exact h a (List.mem_cons_self ..)
    · exact ih fun a' ha' => h a' (List.mem_cons_of_mem _ ha')

end IsLine

/-! ## Octets and characters -/

theorem flatMap_eq_self {f : UInt8 → Octets} {o : Octets} (h : ∀ b ∈ o, f b = [b]) :
    o.flatMap f = o := by
  induction o with
  | nil => rfl
  | cons b o ih =>
    obtain ⟨first, others⟩ := List.forall_mem_cons.1 h
    rw [List.flatMap_cons, first, ih others]
    rfl

/-- A visible character of ASCII. -/
def IsVisible (b : UInt8) : Prop := 0x20 ≤ b ∧ b < 0x80

instance (b : UInt8) : Decidable (IsVisible b) := inferInstanceAs (Decidable (_ ∧ _))

theorem isLine_of_isVisible {o : Octets} (h : ∀ b ∈ o, IsVisible b) : IsLine o := by
  constructor
  · refine ⟨String.ofList (o.map fun b => Char.ofNat b.toNat), ?_⟩
    rw [Text.encode_ofList, List.flatMap_map]
    apply flatMap_eq_self
    intro b hb
    have ascii : b.toNat < 0x80 := (h b hb).2
    rw [Json.Quoted.utf8EncodeChar_ofNat _ ascii, UInt8.ofNat_toNat]
  · intro b hb
    exact (h b hb).1

theorem isLine_octet {b : UInt8} (h : IsVisible b) : IsLine [b] :=
  isLine_of_isVisible (List.forall_mem_singleton.2 h)

theorem le_of_mem_utf8EncodeChar {c : Char} (h : 0x80 ≤ c.toNat) :
    ∀ b ∈ String.utf8EncodeChar c, 0x80 ≤ b := by
  have hv : ¬ c.val.toNat ≤ 127 := Nat.not_le_of_lt h
  intro b hb
  rw [UInt8.le_iff_toNat_le]
  simp only [String.utf8EncodeChar, if_neg hv] at hb
  split at hb
  · simp only [List.mem_cons, List.not_mem_nil, or_false] at hb
    rcases hb with rfl | rfl <;> simp only [UInt8.toNat_ofNat'] <;> simp <;> omega
  · split at hb
    · simp only [List.mem_cons, List.not_mem_nil, or_false] at hb
      rcases hb with rfl | rfl | rfl <;> simp only [UInt8.toNat_ofNat'] <;> simp <;> omega
    · simp only [List.mem_cons, List.not_mem_nil, or_false] at hb
      rcases hb with rfl | rfl | rfl | rfl <;> simp only [UInt8.toNat_ofNat'] <;> simp <;> omega

namespace Json
namespace Print

/-! ## Strings -/

theorem escape_ascii (n : Nat) (h : n < 0x80) : ∀ b ∈ escape (UInt8.ofNat n), IsVisible b := by
  have all : ∀ n < 0x80, (escape (UInt8.ofNat n)).all (decide <| IsVisible ·) = true := by
    decide +kernel
  intro b hb
  exact of_decide_eq_true (List.all_eq_true.1 (all n h) b hb)

theorem escape_of_le {b : UInt8} (h : 0x80 ≤ b) : escape b = [b] := by
  have other {c : UInt8} (hc : c < 0x80) : b ≠ c := by
    rintro rfl
    exact absurd h (UInt8.not_le.2 hc)
  have visible : ¬ b < 0x20 := UInt8.not_lt.2 (UInt8.le_trans (by decide) h)
  unfold escape
  iterate 7
    rw [if_neg (other (by decide))]
  rw [if_neg visible]

/-- **A character** is written without control characters, whatever it is. -/
theorem isLine_escape (c : Char) : IsLine ((String.utf8EncodeChar c).flatMap escape) := by
  by_cases h : c.toNat < 0x80
  · have octet : String.utf8EncodeChar c = [UInt8.ofNat c.toNat] := by
      rw [← Char.ofNat_toNat c, Quoted.utf8EncodeChar_ofNat _ h, Char.ofNat_toNat]
    rw [octet, List.flatMap_singleton]
    exact isLine_of_isVisible (escape_ascii _ h)
  · have above := le_of_mem_utf8EncodeChar (Nat.le_of_not_lt h)
    rw [flatMap_eq_self fun b hb => escape_of_le (above b hb)]
    constructor
    · refine ⟨String.ofList [c], ?_⟩
      rw [Text.encode_ofList, List.flatMap_singleton]
    · intro b hb
      exact UInt8.le_trans (by decide) (above b hb)

/-- **A string** is written without control characters. -/
theorem isLine_string (s : String) : IsLine (string s) := by
  have quote : IsLine [0x22] := isLine_octet (by decide)
  have octets : Text.encode s = s.toList.flatMap String.utf8EncodeChar := by
    rw [← Text.encode_ofList, String.ofList_toList]
  have escaped : IsLine ((Text.encode s).flatMap escape) := by
    rw [octets, List.flatMap_assoc]
    apply IsLine.flatMap
    intro c _
    exact isLine_escape c
  exact (quote.append escaped).append quote

/-! ## Numbers -/

/-- Characters that are written as they are. -/
def AllVisible (cs : List Char) : Prop := ∀ c ∈ cs, IsVisible (octet c)

instance (cs : List Char) : Decidable (AllVisible cs) :=
  List.decidableBAll (fun c => IsVisible (octet c)) cs

theorem isLine_ascii {cs : List Char} (h : AllVisible cs) : IsLine (ascii cs) := by
  apply isLine_of_isVisible
  intro b hb
  obtain ⟨c, hc, rfl⟩ := List.mem_map.1 hb
  exact h c hc

theorem AllVisible.append {cs ds : List Char} (h : AllVisible cs) (h' : AllVisible ds) :
    AllVisible (cs ++ ds) :=
  List.forall_mem_append.2 ⟨h, h'⟩

theorem AllVisible.cons {c : Char} {cs : List Char} (h : IsVisible (octet c))
    (h' : AllVisible cs) : AllVisible (c :: cs) :=
  List.forall_mem_cons.2 ⟨h, h'⟩

theorem isVisible_digitChar : ∀ d < 10, IsVisible (octet (Text.Decimal.digitChar d)) := by
  decide

theorem allVisible_chars (n : Nat) : AllVisible (Text.Decimal.chars n) := by
  intro c hc
  obtain ⟨d, hd, rfl⟩ := List.mem_map.1 hc
  exact isVisible_digitChar d (Text.Decimal.lt_ten_of_mem_digits hd)

theorem isLine_nat (n : Nat) : IsLine (nat n) := isLine_ascii (allVisible_chars n)

theorem isLine_int (n : Int) : IsLine (int n) := by
  cases n with
  | ofNat n => exact isLine_nat n
  | negSucc n =>
    have minus : IsLine [octet '-'] := isLine_octet (by decide)
    exact minus.append (isLine_nat (n + 1))

/-- **A decimal** is written with visible characters, in either notation. -/
theorem allVisible_unsigned (f : Text.DoubleFormat) (s : Text.Scaled) :
    AllVisible (f.unsigned s) := by
  have zeros (n : Nat) : AllVisible (List.replicate n '0') := by
    intro c hc
    rw [List.eq_of_mem_replicate hc]
    decide
  have digits := allVisible_chars s.digits
  unfold Text.DoubleFormat.unsigned
  dsimp only
  generalize Text.Decimal.chars s.digits = ds at digits
  split
  · refine .append (.append ?_ ?_) (allVisible_chars _)
    · -- a point stands behind the first digit if there are more
      split
      · exact digits
      · obtain ⟨first, others⟩ := List.forall_mem_cons.1 digits
        exact .cons first (.cons (by decide) others)
      · exact digits
    · split <;> decide
  · split
    · have zero : AllVisible ['0', '.'] := by decide
      exact (zero.append (zeros _)).append digits
    · split
      · exact (digits.append (zeros _)).append (by decide)
      · apply AllVisible.append
        · intro c hc
          exact digits c (List.mem_of_mem_take hc)
        · apply AllVisible.cons (by decide)
          intro c hc
          exact digits c (List.mem_of_mem_drop hc)

/-- **A number** is written with visible characters, whatever its bits are. -/
theorem isLine_number (n : Number) : IsLine (number n) := by
  cases n with
  | whole n => exact isLine_int n.toInt
  | real x =>
    apply isLine_ascii
    have sign : AllVisible (if x.isNegative then ['-'] else []) := by
      split <;> decide
    unfold Text.DoubleFormat.chars
    dsimp only
    split
    · exact sign.append (by decide)
    · exact sign.append (allVisible_unsigned _ _)

/-! ## Arrays and objects -/

theorem isLine_commas {items : List Octets} (h : ∀ o ∈ items, IsLine o) : IsLine (commas items) := by
  induction items with
  | nil => exact .nil
  | cons o items ih =>
    obtain ⟨first, others⟩ := List.forall_mem_cons.1 h
    have comma : IsLine [octet ','] := isLine_octet (by decide)
    cases items with
    | nil => exact first
    | cons o' items => exact first.append (comma.append (ih others))

theorem isLine_array {items : List Octets} (h : ∀ o ∈ items, IsLine o) : IsLine (array items) := by
  have opens : IsLine [octet '['] := isLine_octet (by decide)
  have closes : IsLine [octet ']'] := isLine_octet (by decide)
  exact (opens.append (isLine_commas h)).append closes

/-- Members whose values are written without control characters. -/
def Members (ms : List (String × Octets)) : Prop := ∀ m ∈ ms, IsLine m.2

theorem Members.append {ms ns : List (String × Octets)} (h : Members ms) (h' : Members ns) :
    Members (ms ++ ns) :=
  List.forall_mem_append.2 ⟨h, h'⟩

theorem Members.cons {name : String} {o : Octets} {ms : List (String × Octets)} (h : IsLine o)
    (h' : Members ms) : Members ((name, o) :: ms) :=
  List.forall_mem_cons.2 ⟨h, h'⟩

theorem members_field? {α : Type} {write : α → Octets} (h : ∀ v, IsLine (write v))
    (name : String) (a : Option α) : Members (field? name write a) := by
  intro m hm
  cases a with
  | none => cases hm
  | some v =>
    rw [List.mem_singleton.1 hm]
    exact h v

theorem isLine_object {ms : List (String × Octets)} (h : Members ms) : IsLine (object ms) := by
  have opens : IsLine [octet '\x7b'] := isLine_octet (by decide)
  have closes : IsLine [octet '\x7d'] := isLine_octet (by decide)
  have colon : IsLine [octet ':'] := isLine_octet (by decide)
  have members : IsLine (commas (ms.map fun m => member m.1 m.2)) := by
    apply isLine_commas
    intro o ho
    obtain ⟨m, hm, rfl⟩ := List.mem_map.1 ho
    exact (isLine_string m.1).append (colon.append (h m hm))
  exact (opens.append members).append closes

end Print

/-! ## Values -/

mutual

/-- **A value** is written without control characters. -/
theorem Value.isLine_print : ∀ v : Value, IsLine v.print
  | .null => Print.isLine_ascii (by decide)
  | .bool b => by
    cases b <;> exact Print.isLine_ascii (by decide)
  | .number n => Print.isLine_number n
  | .string s => Print.isLine_string s
  | .array items => Print.isLine_array (isLine_printItems items)
  | .object members => Print.isLine_object (members_printMembers members)

theorem Value.isLine_printItems : ∀ vs : List Value, ∀ o ∈ printItems vs, IsLine o
  | [], o, ho => by
    rw [printItems] at ho
    cases ho
  | v :: vs, o, ho => by
    rw [printItems] at ho
    rcases List.mem_cons.1 ho with rfl | ho
    · exact isLine_print v
    · exact isLine_printItems vs o ho

theorem Value.members_printMembers :
    ∀ ms : List (String × Value), Print.Members (printMembers ms)
  | [], m, hm => by
    rw [printMembers] at hm
    cases hm
  | (name, v) :: ms, m, hm => by
    rw [printMembers] at hm
    rcases List.mem_cons.1 hm with rfl | hm
    · exact isLine_print v
    · exact members_printMembers ms m hm

end
end Json

namespace Message

open Json.Print

theorem Transfer.isLine_print (t : Transfer) : IsLine t.print := by
  apply isLine_object
  apply Members.cons (isLine_nat _)
  exact members_field? (fun n => isLine_nat _) "total" t.total

theorem ErrorDetail.isLine_print (d : ErrorDetail) : IsLine d.print := by
  apply isLine_object
  apply Members.append
  · exact members_field? (fun n => isLine_nat _) "code" d.code
  · exact .cons (isLine_string d.message) nofun

/-- **A message** is written without control characters. -/
theorem isLine_print (m : Message) : IsLine m.print := by
  have string := members_field? isLine_string
  have transfer := members_field? Transfer.isLine_print "progressDetail" m.progressDetail
  have detail := members_field? ErrorDetail.isLine_print "errorDetail" m.errorDetail
  have payload := members_field? Json.Value.isLine_print "aux" m.aux
  apply isLine_object
  exact (((((((string "stream" m.stream).append (string "status" m.status)).append
    (string "id" m.id)).append transfer).append (string "progress" m.progress)).append
    detail).append (string "error" m.error)).append payload

/-! ## Frames -/

theorem pieces_newline {line : Octets} (h : IsLine line) (rest : Octets) :
    Text.pieces (· == 0x0A) (line ++ 0x0A :: rest) = line :: Text.pieces (· == 0x0A) rest := by
  have inside : ∀ b ∈ line, (b == 0x0A) = false := by
    intro b hb
    apply beq_false_of_ne
    rintro rfl
    exact absurd (h.visible _ hb) (by decide)
  rw [Text.pieces_append_cons rfl, Text.pieces_eq_singleton inside]
  rfl

theorem pieces_frames (ms : List Message) :
    Text.pieces (· == 0x0A) (ms.flatMap frame) = ms.map print ++ [[]] := by
  induction ms with
  | nil => rfl
  | cons m ms ih =>
    rw [List.flatMap_cons, frame, List.append_assoc, List.singleton_append,
      pieces_newline m.isLine_print, ih]
    rfl

/-- **Every frame is one line:** UTF-8 that ends in a newline and has no other control
character, whatever stands in the message. So the frames of any messages come apart at the
newlines, into just the frames that there were, with nothing behind the last one. -/
theorem frames_apart :
    (∀ m : Message, (∃ text : String, Text.encode text = m.frame) ∧
      ∃ line, m.frame = line ++ [0x0A] ∧ ∀ b ∈ line, 0x20 ≤ b) ∧
    ∀ ms : List Message, ∃ lines, Text.pieces (· == 0x0A) (ms.flatMap frame) = lines ++ [[]] ∧
      lines.map (· ++ [0x0A]) = ms.map frame := by
  constructor
  · intro m
    obtain ⟨⟨text, encoded⟩, visible⟩ := m.isLine_print
    refine ⟨⟨text ++ "\n", ?_⟩, m.print, rfl, visible⟩
    rw [Text.encode_append, encoded]
    rfl
  · intro ms
    refine ⟨ms.map print, pieces_frames ms, ?_⟩
    rw [List.map_map]
    rfl

end Message
end ImageBuild
