import ImageBuild.Net.Address
import Mathlib.Algebra.Group.Nat.Defs
import Mathlib.Data.List.Basic
import Mathlib.Data.List.Forall2

/-!
# Addresses are read back

A number is read back from its digits (`Spelled.readNumber_eq`), so an IPv4 address is. The
groups of an IPv6 address are read up to the end of the address or to its double colon
(`readGroups_joined`). The run that is left out consists of zeros (`shows_longestRun`), which
are filled in again. A socket address is read back from its text (`SocketAddress.parse?_text`).
-/

namespace ImageBuild.Net

open Text

/-! ## Numbers -/

/-- **Whether characters spell a number**: they stand for its digits, of which there are no more
than needed. -/
structure Spelled (radix : Nat) (cs : List Char) (n : Nat) (ds : List Nat) : Prop where
  digits : List.Forall₂ (fun c d => digit? radix c = some d) cs ds
  nonempty : ds ≠ []
  positive : 0 < radix
  value : ds.foldl (fun n d => n * radix + d) 0 = n
  lead : n ≠ 0 → ds.head? ≠ some 0
  short {k : Nat} : 0 < k → n < radix ^ k → ds.length ≤ k

theorem exists_spelled {radix : Nat} {chars : Nat → List Char} (char : Nat → Char)
    (two : 2 ≤ radix) (back : ∀ d < radix, digit? radix (char d) = some d)
    (eq : ∀ n, chars n = if n < radix then [char n] else chars (n / radix) ++ [char (n % radix)])
    (n : Nat) : ∃ ds, Spelled radix (chars n) n ds := by
  induction n using Nat.strongRecOn with
  | _ n ih =>
    rw [eq]
    split
    · next small =>
      exact ⟨[n], .cons (back n small) .nil, by simp, by omega, by simp, by simp,
        fun more _ => more⟩
    · next large =>
      have positive : n / radix ≠ 0 := Nat.ne_of_gt (Nat.div_pos (by omega) (by omega))
      obtain ⟨ds, h⟩ := ih (n / radix) (Nat.div_lt_self (by omega) two)
      refine ⟨ds ++ [n % radix], ?_, by simp, h.positive, ?_, ?_, ?_⟩
      · exact List.rel_append h.digits (.cons (back _ (Nat.mod_lt n (by omega))) .nil)
      · rw [List.foldl_append, h.value]
        exact Nat.div_add_mod' n radix
      · rw [List.head?_append_of_ne_nil _ h.nonempty]
        exact fun _ => h.lead positive
      · intro k more fits
        cases k with
        | zero => cases more
        | succ k =>
          cases k with
          | zero => exact absurd (by simpa using fits) large
          | succ k =>
            have := h.short (Nat.succ_pos k) (Nat.div_lt_of_lt_mul (by rwa [Nat.pow_succ'] at fits))
            simpa using this

theorem exists_spelled_chars (n : Nat) : ∃ ds, Spelled 10 (Decimal.chars n) n ds := by
  refine exists_spelled Decimal.digitChar (by decide) (by decide) (fun n => ?_) n
  rw [Decimal.chars, Decimal.digits]
  split
  · rfl
  · rw [List.map_append]
    rfl

theorem exists_spelled_hexChars (n : Nat) : ∃ ds, Spelled 16 (Decimal.hexChars n) n ds := by
  refine exists_spelled Decimal.hexChar (by decide) (by decide) (fun n => ?_) n
  rw [Decimal.hexChars]

/-- Whether no digit stands at the front of a text. -/
def Ends (radix : Nat) (t : List Char) : Prop := t.head?.bind (digit? radix) = none

section Numbers

variable {radix n : Nat} {cs t : List Char} {ds : List Nat}

theorem takeDigits_eq_nil (h : Ends radix t) : takeDigits radix t = ([], t) := by
  cases t with
  | nil => rfl
  | cons c t =>
    have other : digit? radix c = none := h
    rw [takeDigits]
    simp only [other]

theorem takeDigits_append (h : List.Forall₂ (fun c d => digit? radix c = some d) cs ds)
    (ends : Ends radix t) : takeDigits radix (cs ++ t) = (ds, t) := by
  induction h with
  | nil => exact takeDigits_eq_nil ends
  | cons digit _ ih =>
    rw [List.cons_append, takeDigits]
    simp only [digit, ih]

/-- **A number is read back**, if it is not too large. -/
theorem Spelled.readNumber_eq {zeros : Bool} {bound : Nat} {width : Option Nat}
    (h : Spelled radix cs n ds) (ends : Ends radix t) (fits : n ≤ bound)
    (short : ∀ k ∈ width, 0 < k ∧ n < radix ^ k) :
    readNumber radix width zeros bound (cs ++ t) = some (n, t) := by
  have narrow : width.any (· < ds.length) = false := by
    cases width with
    | none => rfl
    | some k =>
      obtain ⟨positive, less⟩ := short k rfl
      have := h.short positive less
      simpa using this
  have single : ¬ (ds.head? = some 0 ∧ 1 < ds.length) := by
    rintro ⟨zero, more⟩
    by_cases hn : n = 0
    · have : n < radix ^ 1 := by rw [hn, Nat.pow_one]; exact h.positive
      exact Nat.not_lt.2 (h.short Nat.one_pos this) more
    · exact h.lead hn zero
  rw [readNumber]
  simp only [takeDigits_append h.digits ends, h.value]
  rw [if_neg (by simp [h.nonempty, fits]), if_neg (by simp [narrow]),
    if_neg fun leading => single leading.2]

theorem Spelled.isSome_digit? (h : Spelled radix cs n ds) {c : Char} (hc : c ∈ cs) :
    (digit? radix c).isSome = true := by
  have := h.digits
  clear h
  induction this with
  | nil => cases hc
  | cons digit _ ih =>
    rcases List.mem_cons.1 hc with rfl | hc
    · rw [digit]
      rfl
    · exact ih hc

end Numbers

theorem ends_ten {t : List Char} (h : Ends 16 t) : Ends 10 t := by
  cases t with
  | nil => rfl
  | cons c t =>
    have other : digit? 16 c = none := h
    show digit? 10 c = none
    simp only [digit?, Option.filter_eq_none_iff, decide_eq_true_eq] at other ⊢
    exact fun d hd small => other d hd (by omega)

/-! ## IPv4 -/

section Ipv4

variable {t : List Char}

theorem readByte_chars (b : UInt8) (ends : Ends 10 t) :
    readByte (Decimal.chars b.toNat ++ t) = some (b, t) := by
  obtain ⟨ds, h⟩ := exists_spelled_chars b.toNat
  have small := b.toNat_lt
  have width : ∀ k ∈ some 3, 0 < k ∧ b.toNat < 10 ^ k := by
    rintro k ⟨⟩
    omega
  rw [readByte, h.readNumber_eq ends (by omega) width]
  simp

/-- **An IPv4 address is read back.** -/
theorem Ipv4.read_chars (ip : Ipv4) (ends : Ends 10 t) :
    Ipv4.read (ip.chars ++ t) = some (ip, t) := by
  have dot (s : List Char) : readChar '.' ('.' :: s) = some s := rfl
  have point (s : List Char) : Ends 10 ('.' :: s) := rfl
  simp only [Ipv4.read, Ipv4.chars, List.append_assoc, List.cons_append, readByte_chars _ (point _),
    Option.bind_eq_bind, Option.bind_some, dot, readByte_chars _ ends]
  rfl

theorem Ipv4.read_eq_none (h : Ends 10 t) : Ipv4.read t = none := by
  simp [Ipv4.read, readByte, readNumber, takeDigits_eq_nil h]

/-- **A group is no IPv4 address**, since no dot stands behind its decimal digits. -/
theorem Ipv4.read_group {n : Nat} {cs : List Char} {ds : List Nat} (h : Spelled 16 cs n ds)
    (ends : Ends 16 t) (dot : t.head? ≠ some '.') : Ipv4.read (cs ++ t) = none := by
  have behind (cs : List Char) (other : ∀ c ∈ cs, c ≠ '.') :
      (takeDigits 10 (cs ++ t)).2.head? ≠ some '.' := by
    induction cs with
    | nil => rwa [List.nil_append, takeDigits_eq_nil (ends_ten ends)]
    | cons c cs ih =>
      rw [List.cons_append, takeDigits]
      cases digit? 10 c with
      | some d => exact ih fun e he => other e (List.mem_cons_of_mem _ he)
      | none => exact fun same => other c (List.mem_cons_self ..) (Option.some.inj same)
  have none_dot : ∀ c ∈ cs, c ≠ '.' := by
    rintro c hc rfl
    cases h.isSome_digit? hc
  have stuck {s : List Char} (hs : s.head? ≠ some '.') : readChar '.' s = none := by
    cases s with
    | nil => rfl
    | cons c s => exact if_neg fun same => hs (congrArg some same.symm)
  cases first : readByte (cs ++ t) with
  | none => simp [Ipv4.read, first]
  | some found =>
    have rest : found.2 = (takeDigits 10 (cs ++ t)).2 := by
      rw [readByte, Option.map_eq_some_iff] at first
      obtain ⟨m, hm, rfl⟩ := first
      unfold readNumber at hm
      simp only [Option.ite_none_left_eq_some, Option.some.injEq] at hm
      rw [← hm.2.2.2]
    have := stuck (rest ▸ behind cs none_dot)
    simp [Ipv4.read, first, this]

end Ipv4

/-! ## IPv6 -/

/-- Whether a text begins with one of the marks that may stand behind a group. -/
def Marked (t : List Char) : Prop := ∃ c s, t = c :: s ∧ (c = ':' ∨ c = '%' ∨ c = ']')

section Groups

variable {t : List Char} {limit : Nat} {gs : List UInt16}

theorem Marked.ends (h : Marked t) : Ends 16 t := by
  obtain ⟨c, s, rfl, rfl | rfl | rfl⟩ := h <;> rfl

theorem Marked.head?_ne (h : Marked t) : t.head? ≠ some '.' := by
  obtain ⟨c, s, rfl, rfl | rfl | rfl⟩ := h <;> simp

theorem readGroups_marked (h : Marked t) : readGroups limit true t = ([], false, t) := by
  cases limit with
  | zero => rfl
  | succ limit =>
    simp [readGroups, Ipv4.read_eq_none (ends_ten h.ends), readNumber, takeDigits_eq_nil h.ends]

theorem readGroups_colons :
    readGroups limit false (':' :: ':' :: t) = ([], false, ':' :: ':' :: t) := by
  have mark : Marked (':' :: t) := ⟨_, _, rfl, .inl rfl⟩
  cases limit with
  | zero => rfl
  | succ limit =>
    simp [readGroups, readChar, Ipv4.read_eq_none (ends_ten mark.ends), readNumber,
      takeDigits_eq_nil mark.ends]

theorem readGroups_group (first : Bool) {s : List Char} {g : UInt16}
    (start : (if first then some s else readChar ':' s) = some (Decimal.hexChars g.toNat ++ t))
    (h : Marked t) :
    readGroups (limit + 1) first s =
      (g :: (readGroups limit false t).1, (readGroups limit false t).2) := by
  obtain ⟨ds, spelled⟩ := exists_spelled_hexChars g.toNat
  have small := g.toNat_lt
  have width : ∀ k ∈ some 4, 0 < k ∧ g.toNat < 16 ^ k := by
    rintro k ⟨⟩
    omega
  have read : readNumber 16 (some 4) true 0xFFFF (Decimal.hexChars g.toNat ++ t) =
      some (g.toNat, t) := spelled.readNumber_eq h.ends (by omega) width
  rw [readGroups]
  simp only [start, Ipv4.read_group spelled h.ends h.head?_ne, ite_self, read, UInt16.ofNat_toNat]

def behindColons (gs : List UInt16) : List Char :=
  gs.flatMap fun g => ':' :: Decimal.hexChars g.toNat

theorem joinGroups_cons (g : UInt16) (gs : List UInt16) :
    joinGroups (g :: gs) = Decimal.hexChars g.toNat ++ behindColons gs := by
  induction gs generalizing g with
  | nil => simp [joinGroups, behindColons]
  | cons g' gs ih =>
    have one : joinGroups (g :: g' :: gs) =
        Decimal.hexChars g.toNat ++ ':' :: joinGroups (g' :: gs) := rfl
    rw [one, ih]
    rfl

theorem marked_behindColons (h : Marked t) : Marked (behindColons gs ++ t) := by
  cases gs with
  | nil => exact h
  | cons g gs => exact ⟨':', _, rfl, .inl rfl⟩

/-- Whether no more groups are read. -/
def Stops (t : List Char) : Prop := ∀ limit, readGroups limit false t = ([], false, t)

theorem readGroups_behindColons (fits : gs.length ≤ limit) (h : Marked t)
    (stops : gs.length = limit ∨ Stops t) :
    readGroups limit false (behindColons gs ++ t) = (gs, false, t) := by
  induction gs generalizing limit with
  | nil =>
    rcases stops with rfl | stops
    · rfl
    · exact stops limit
  | cons g gs ih =>
    rw [List.length_cons] at fits stops
    cases limit with
    | zero => omega
    | succ limit =>
      have colon : behindColons (g :: gs) ++ t =
          ':' :: (Decimal.hexChars g.toNat ++ (behindColons gs ++ t)) := by
        simp [behindColons]
      rw [colon, readGroups_group false rfl (marked_behindColons h),
        ih (by omega) (stops.imp_left Nat.succ.inj)]

/-- **Groups are read back** up to what stands behind them. -/
theorem readGroups_joined (fits : gs.length ≤ limit) (h : Marked t)
    (stops : gs.length = limit ∨ Stops t) :
    readGroups limit true (joinGroups gs ++ t) = (gs, false, t) := by
  cases gs with
  | nil => exact readGroups_marked h
  | cons g gs =>
    rw [List.length_cons] at fits stops
    cases limit with
    | zero => omega
    | succ limit =>
      rw [joinGroups_cons, List.append_assoc, readGroups_group true rfl (marked_behindColons h),
        readGroups_behindColons (by omega) h (stops.imp_left Nat.succ.inj)]

end Groups

/-! ### The run that is left out -/

/-- Whether the groups have zeros where the run is. -/
def Shows (groups : List UInt16) (run : Run) : Prop :=
  ∃ a b, groups = a ++ (List.replicate run.length 0 ++ b) ∧ a.length = run.start

/-- Whether the run is empty or ends with the groups. -/
def EndsWith (groups : List UInt16) (run : Run) : Prop :=
  run.length = 0 ∨ ∃ a, groups = a ++ List.replicate run.length 0 ∧ a.length = run.start

theorem Shows.append {groups : List UInt16} {run : Run} (h : Shows groups run)
    (more : List UInt16) : Shows (groups ++ more) run := by
  obtain ⟨a, b, rfl, start⟩ := h
  exact ⟨a, b ++ more, by simp, start⟩

theorem EndsWith.longer {groups : List UInt16} {run : Run} (h : EndsWith groups run) :
    let run := if run.length = 0 then ⟨groups.length, 1⟩ else ⟨run.start, run.length + 1⟩
    EndsWith (groups ++ [0]) run ∧ Shows (groups ++ [0]) run := by
  simp only
  split
  · exact ⟨.inr ⟨groups, rfl, rfl⟩, groups, [], rfl, rfl⟩
  · next nonempty =>
    obtain ⟨a, rfl, start⟩ := h.resolve_left nonempty
    have same : a ++ List.replicate run.length 0 ++ [0] =
        a ++ List.replicate (run.length + 1) 0 := by
      rw [List.append_assoc, List.replicate_succ']
    exact ⟨.inr ⟨a, same, start⟩, a, [], by rw [List.append_nil, same], start⟩

/-- **The longest run consists of zeros.** So does the run that ends with the groups that have
been looked at. -/
theorem shows_longestRun (done rest : List UInt16) {current longest : Run}
    (h : Shows done longest) (ends : EndsWith done current) :
    Shows (done ++ rest) (longestRun done.length current longest rest) := by
  induction rest generalizing done current longest with
  | nil => rwa [List.append_nil]
  | cons g rest ih =>
    have next : (done ++ [g]).length = done.length + 1 := by simp
    rw [List.append_cons, longestRun, ← next]
    by_cases zero : g = 0
    · subst zero
      obtain ⟨ends', shows⟩ := ends.longer
      rw [if_pos rfl]
      refine ih _ ?_ ends'
      by_cases longer : longest.length <
          (if current.length = 0 then ⟨done.length, 1⟩
            else ⟨current.start, current.length + 1⟩ : Run).length
      · rw [if_pos longer]
        exact shows
      · rw [if_neg longer]
        exact h.append _
    · rw [if_neg zero]
      exact ih _ (h.append _) (.inl rfl)

/-! ### Addresses -/

theorem Ipv6.ofGroups?_groups {ip : Ipv6} {groups : List UInt16} (h : groups = ip.groups) :
    ofGroups? groups = some ip := by
  subst h
  rw [ofGroups?, dif_pos ip.length_eq]

theorem or_bytes (x : UInt16) :
    (x >>> 8).toUInt8.toUInt16 <<< 8 ||| x.toUInt8.toUInt16 = x := by
  have small := x.toNat_lt
  rw [← UInt16.toNat_inj]
  simp only [UInt16.toNat_or, UInt16.toNat_shiftLeft, UInt16.toNat_shiftRight,
    UInt8.toNat_toUInt16, UInt16.toNat_toUInt8]
  have shift : UInt16.toNat 8 % 16 = 8 := rfl
  have high : x.toNat >>> 8 < 2 ^ 8 := by
    rw [Nat.shiftRight_eq_div_pow]
    omega
  have inRange : x.toNat >>> 8 <<< 8 < 2 ^ 16 := by
    rw [Nat.shiftLeft_eq]
    omega
  rw [shift, Nat.mod_eq_of_lt high, Nat.mod_eq_of_lt inRange,
    ← Nat.shiftLeft_add_eq_or_of_lt (Nat.mod_lt _ (by decide)), Nat.shiftLeft_eq,
    Nat.shiftRight_eq_div_pow]
  omega

/-- Whether a text begins with the end of an address. -/
def Closes (t : List Char) : Prop := ∃ c s, t = c :: s ∧ (c = '%' ∨ c = ']')

section Ipv6

variable {t : List Char}

theorem Closes.marked (h : Closes t) : Marked t := by
  obtain ⟨c, s, rfl, mark⟩ := h
  exact ⟨c, s, rfl, .inr mark⟩

theorem Closes.stops (h : Closes t) : Stops t := by
  intro limit
  cases limit with
  | zero => rfl
  | succ limit => obtain ⟨c, s, rfl, rfl | rfl⟩ := h <;> rfl

/-- **An address with a double colon**: zeros come between the groups on its sides. -/
theorem Ipv6.read_colons {front back : List UInt16} {embedded : Bool} {s : List Char}
    (fits : front.length ≤ 7)
    (read : readGroups (7 - front.length) true s = (back, embedded, t)) :
    Ipv6.read (joinGroups front ++ ':' :: ':' :: s) =
      (ofGroups? (front ++ List.replicate (8 - front.length - back.length) 0 ++ back)).map
        (·, t) := by
  have first : readGroups 8 true (joinGroups front ++ ':' :: ':' :: s) =
      (front, false, ':' :: ':' :: s) :=
    readGroups_joined (by omega) ⟨_, _, rfl, .inl rfl⟩ (.inr fun _ => readGroups_colons)
  have colon (s : List Char) : readChar ':' (':' :: s) = some s := rfl
  rw [Ipv6.read, first]
  simp only [colon, read, Option.bind_eq_bind, Option.bind_some]
  rw [if_neg (by omega)]
  cases ofGroups? (front ++ List.replicate (8 - front.length - back.length) 0 ++ back) <;> rfl

theorem readGroups_embedded (ip : Ipv4) (h : Closes t) :
    readGroups 7 true ("ffff:".toList ++ ip.chars ++ t) = (0xFFFF :: ip.groups, true, t) := by
  have last : readGroups 6 false (':' :: (ip.chars ++ t)) = (ip.groups, true, t) := by
    have start : readChar ':' (':' :: (ip.chars ++ t)) = some (ip.chars ++ t) := rfl
    simp [readGroups, start, Ipv4.read_chars ip (ends_ten h.marked.ends)]
  have word : "ffff:".toList ++ ip.chars ++ t =
      Decimal.hexChars (0xFFFF : UInt16).toNat ++ ':' :: (ip.chars ++ t) := by
    have digits : Decimal.hexChars (0xFFFF : UInt16).toNat = "ffff".toList := by
      simp [Decimal.hexChars, Decimal.hexChar]
    rw [digits]
    rfl
  rw [word, readGroups_group true rfl ⟨_, _, rfl, .inl rfl⟩, last]

variable {ip : Ipv6}

theorem Ipv6.read_mapped {x y : UInt16} (groups : ip.groups = [0, 0, 0, 0, 0, 0xFFFF, x, y])
    (h : Closes t) :
    Ipv6.read ("::ffff:".toList ++
      Ipv4.chars ⟨(x >>> 8).toUInt8, x.toUInt8, (y >>> 8).toUInt8, y.toUInt8⟩ ++ t) =
      some (ip, t) := by
  have read := readGroups_embedded ⟨(x >>> 8).toUInt8, x.toUInt8, (y >>> 8).toUInt8, y.toUInt8⟩ h
  simp only [Ipv4.groups, or_bytes] at read
  have none_before : ([] : List UInt16).length ≤ 7 := Nat.zero_le 7
  refine (Ipv6.read_colons none_before read).trans ?_
  exact congrArg (Option.map (·, t)) (ofGroups?_groups groups.symm)

theorem Ipv6.read_shortened {run : Run} (shows : Shows ip.groups run) (long : 1 < run.length)
    (h : Closes t) :
    Ipv6.read (joinGroups (ip.groups.take run.start) ++ ':' :: ':' ::
      joinGroups (ip.groups.drop (run.start + run.length)) ++ t) = some (ip, t) := by
  obtain ⟨a, b, shown, start⟩ := shows
  have sizes : a.length + (run.length + b.length) = 8 := by
    rw [← ip.length_eq, shown]
    simp
  have front : ip.groups.take run.start = a := by rw [shown, ← start, List.take_left]
  have back : ip.groups.drop (run.start + run.length) = b := by
    rw [shown, ← start, ← List.drop_drop, List.drop_left]
    exact List.drop_left' List.length_replicate
  have gap : 8 - a.length - b.length = run.length := by omega
  have read : readGroups (7 - a.length) true (joinGroups b ++ t) = (b, false, t) :=
    readGroups_joined (by omega) h.marked (.inr h.stops)
  rw [front, back, List.append_assoc, List.cons_append, List.cons_append,
    Ipv6.read_colons (by omega) read, gap, List.append_assoc, ofGroups?_groups shown.symm]
  rfl

theorem Ipv6.read_whole (h : Closes t) : Ipv6.read (joinGroups ip.groups ++ t) = some (ip, t) := by
  have eight := ip.length_eq
  have read : readGroups 8 true (joinGroups ip.groups ++ t) = (ip.groups, false, t) :=
    readGroups_joined (by omega) h.marked (.inl eight)
  rw [Ipv6.read, read]
  simp only [eight, if_true, ofGroups?_groups rfl]
  rfl

/-- **An IPv6 address is read back.** -/
theorem Ipv6.read_chars (ip : Ipv6) (h : Closes t) : Ipv6.read (ip.chars ++ t) = some (ip, t) := by
  unfold Ipv6.chars
  split
  · next groups => exact Ipv6.read_mapped groups h
  · simp only
    split
    · next long =>
      have shows : Shows ip.groups (longestRun 0 {} {} ip.groups) :=
        shows_longestRun [] ip.groups ⟨[], [], rfl, rfl⟩ (.inl rfl)
      exact Ipv6.read_shortened shows long h
    · exact Ipv6.read_whole h

end Ipv6

/-! ## Sockets -/

theorem readPort_chars (port : UInt16) :
    readPort (':' :: Decimal.chars port.toNat) = some port := by
  obtain ⟨ds, h⟩ := exists_spelled_chars port.toNat
  have small := port.toNat_lt
  have read : readNumber 10 none true 0xFFFF (Decimal.chars port.toNat) =
      some (port.toNat, []) := by
    have read : readNumber 10 none true 0xFFFF (Decimal.chars port.toNat ++ []) = some (_, []) :=
      h.readNumber_eq rfl (by omega) (by simp)
    rwa [List.append_nil] at read
  have start : readChar ':' (':' :: Decimal.chars port.toNat) =
      some (Decimal.chars port.toNat) := rfl
  simp [readPort, start, read]

theorem readScope_chars (scope : UInt32) (t : List Char) :
    readScope ((if scope = 0 then [] else '%' :: Decimal.chars scope.toNat) ++ ']' :: t) =
      some (scope, ']' :: t) := by
  split
  · next none =>
    rw [none]
    rfl
  · obtain ⟨ds, h⟩ := exists_spelled_chars scope.toNat
    have small := scope.toNat_lt
    have ends : Ends 10 (']' :: t) := rfl
    have read : readNumber 10 none true 0xFFFFFFFF (Decimal.chars scope.toNat ++ ']' :: t) =
        some (scope.toNat, ']' :: t) := h.readNumber_eq ends (by omega) (by simp)
    rw [List.cons_append, readScope, read]
    simp

theorem closes_scope (scope : UInt32) (t : List Char) :
    Closes ((if scope = 0 then [] else '%' :: Decimal.chars scope.toNat) ++ ']' :: t) := by
  split
  · exact ⟨']', t, rfl, .inr rfl⟩
  · exact ⟨'%', _, rfl, .inl rfl⟩

/-- **A socket address is read back** from its text. -/
theorem SocketAddress.parse?_text (a : SocketAddress) : parse? a.text = some a := by
  cases a with
  | v4 ip port =>
    have ends : Ends 10 (':' :: Decimal.chars port.toNat) := rfl
    rw [parse?, text, String.toList_ofList, readV4, Ipv4.read_chars ip ends]
    simp only [Option.bind_eq_bind, Option.bind_some, readPort_chars]
    rfl
  | v6 ip scope port =>
    have bracket (s : List Char) : Ipv4.read ('[' :: s) = none := Ipv4.read_eq_none rfl
    have opens (s : List Char) : readChar '[' ('[' :: s) = some s := rfl
    have closes (s : List Char) : readChar ']' (']' :: s) = some s := rfl
    rw [parse?, text, String.toList_ofList, List.append_assoc, List.cons_append, readV4, bracket,
      readV6, opens]
    simp only [Option.bind_eq_bind, Option.bind_some, Ipv6.read_chars ip (closes_scope scope _),
      readScope_chars, closes, readPort_chars]
    rfl

end ImageBuild.Net
