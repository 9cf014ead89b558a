import ImageBuild.Text.Integer
import ImageBuild.Toml.Tree

/-!
# Tokens of a configuration file

Blanks, comments, keys, strings, numbers and points in time, each taken from
the front of a text.
-/

namespace ImageBuild.Toml.Scan

def isBlank (c : Char) : Bool := c == ' ' || c == '\t'

/-- Whether a character may stand in a comment or a string. -/
def isText (c : Char) : Bool := c == '\t' || (' ' ≤ c && c ≤ '~') || '\x80' ≤ c

def blanks (s : List Char) : List Char := s.dropWhile isBlank

/-- A text after the end of a line at its front. -/
def newline? : List Char → Option (List Char)
  | '\n' :: rest => some rest
  | '\r' :: '\n' :: rest => some rest
  | _ => none

/-- A text after the comment at its front, if there is one. -/
def comment : List Char → List Char
  | '#' :: rest => rest.dropWhile isText
  | s => s

def lineEnd? (s : List Char) : Option (List Char) :=
  match comment (blanks s) with
  | [] => some []
  | s => newline? s

theorem length_blanks (s : List Char) : (blanks s).length ≤ s.length :=
  (List.dropWhile_sublist isBlank).length_le

theorem length_newline? {s r : List Char} (h : newline? s = some r) : r.length < s.length := by
  unfold newline? at h
  split at h <;> cases h <;> simp only [List.length_cons] <;> omega

/-- A text without the blanks, comments and ends of lines at its front. A
comment ends with its line. -/
def spaces (s : List Char) : Option (List Char) :=
  match _hb : blanks s with
  | '#' :: rest =>
    match _hn : newline? (rest.dropWhile isText) with
    | some next => spaces next
    | none => none
  | t =>
    match _hn : newline? t with
    | some next => spaces next
    | none => some t
termination_by s.length
decreasing_by
  · have hb := length_blanks s
    have hn := length_newline? _hn
    have ht := (List.dropWhile_sublist (l := rest) isText).length_le
    rw [_hb, List.length_cons] at hb
    omega
  · have hb := length_blanks s
    have hn := length_newline? _hn
    rw [_hb] at hb
    omega

/-! ### Strings -/

def hexDigit? (c : Char) : Option Nat :=
  if '0' ≤ c ∧ c ≤ '9' then some (c.toNat - 48)
  else if 'a' ≤ c ∧ c ≤ 'f' then some (c.toNat - 87)
  else if 'A' ≤ c ∧ c ≤ 'F' then some (c.toNat - 55)
  else none

def hexNumber (acc : Nat) : Nat → List Char → Option (Nat × List Char)
  | 0, s => some (acc, s)
  | _ + 1, [] => none
  | n + 1, c :: s =>
    match hexDigit? c with
    | some d => hexNumber (acc * 16 + d) n s
    | none => none

/-- The character with a code point, unless it is a surrogate or too large. -/
def codePoint? (n : Nat) : Option Char :=
  if h : n.isValidChar then some (Char.ofNatAux n h) else none

/-- The character that an escape stands for, after its backslash. -/
def escape? : List Char → Option (Char × List Char)
  | 'b' :: s => some ('\x08', s)
  | 't' :: s => some ('\t', s)
  | 'n' :: s => some ('\n', s)
  | 'f' :: s => some ('\x0c', s)
  | 'r' :: s => some ('\r', s)
  | '"' :: s => some ('"', s)
  | '\\' :: s => some ('\\', s)
  | 'u' :: s => (hexNumber 0 4 s).bind fun (n, s) => (codePoint? n).map fun c => (c, s)
  | 'U' :: s => (hexNumber 0 8 s).bind fun (n, s) => (codePoint? n).map fun c => (c, s)
  | _ => none

/-- The characters of a string up to its closing quote, in which escapes are
replaced. -/
def basic : Nat → List Char → Option (List Char × List Char)
  | 0, _ => none
  | _ + 1, [] => none
  | fuel + 1, c :: s =>
    if c = '"' then some ([], s)
    else if c = '\\' then
      (escape? s).bind fun (e, s) => (basic fuel s).map fun (cs, s) => (e :: cs, s)
    else if isText c then (basic fuel s).map fun (cs, s) => (c :: cs, s)
    else none

/-- The characters of a string without escapes up to its closing quote. -/
def literal : List Char → Option (List Char × List Char)
  | [] => none
  | c :: s =>
    if c = '\'' then some ([], s)
    else if isText c then (literal s).map fun (cs, s) => (c :: cs, s)
    else none

/-- The quotes at the front of a text within a string of several lines: how
many of them belong to the string, and what follows if they end it. Three
quotes end it, and up to two may stand before those. -/
def quotes (q : Char) (s : List Char) : Nat × Option (List Char) :=
  let n := (s.takeWhile (· == q)).length
  if n < 3 then (n, none)
  else (min (n - 3) 2, some (s.drop (min n 5)))

/-- A text after a backslash that ends a line: the blanks and ends of lines
that follow count for nothing. -/
def continuation? (s : List Char) : Option (List Char) :=
  (newline? (blanks s)).map (skip s.length)
where
  /-- Passes over blank lines. -/
  skip : Nat → List Char → List Char
    | 0, s => s
    | fuel + 1, s =>
      match newline? (blanks s) with
      | some rest => skip fuel rest
      | none => blanks s

/-- The characters of a string of several lines up to its closing quotes. -/
def multiLine (q : Char) (escapes : Bool) : Nat → List Char → Option (List Char × List Char)
  | 0, _ => none
  | _ + 1, [] => none
  | fuel + 1, c :: s =>
    if c = q then
      match quotes q (c :: s) with
      | (n, some rest) => some (List.replicate n q, rest)
      | (n, none) =>
        (multiLine q escapes fuel ((c :: s).drop n)).map fun (cs, s) =>
          (List.replicate n q ++ cs, s)
    else if c = '\\' ∧ escapes then
      match continuation? s with
      | some s => multiLine q escapes fuel s
      | none =>
        (escape? s).bind fun (e, s) =>
          (multiLine q escapes fuel s).map fun (cs, s) => (e :: cs, s)
    else
      match newline? (c :: s) with
      | some s => (multiLine q escapes fuel s).map fun (cs, s) => ('\n' :: cs, s)
      | none =>
        if isText c then (multiLine q escapes fuel s).map fun (cs, s) => (c :: cs, s)
        else none

def dropNewline (s : List Char) : List Char := (newline? s).getD s

def string? (s : List Char) : Option (String × List Char) :=
  let chars? :=
    match s with
    | '"' :: '"' :: '"' :: rest => multiLine '"' true s.length (dropNewline rest)
    | '"' :: rest => basic s.length rest
    | '\'' :: '\'' :: '\'' :: rest => multiLine '\'' false s.length (dropNewline rest)
    | '\'' :: rest => literal rest
    | _ => none
  chars?.map fun (cs, rest) => (String.ofList cs, rest)

/-! ### Keys -/

/-- Whether a character may stand in a key without quotes. -/
def isBare (c : Char) : Bool := c.isAlphanum || c == '_' || c == '-'

def keyPart? (s : List Char) : Option (String × List Char) :=
  let quoted (x : Option (List Char × List Char)) :=
    x.map fun (cs, rest) => (String.ofList cs, rest)
  match s with
  | '"' :: rest => quoted (basic s.length rest)
  | '\'' :: rest => quoted (literal rest)
  | s =>
    match s.takeWhile isBare with
    | [] => none
    | cs => some (String.ofList cs, s.dropWhile isBare)

/-- The parts of a dotted key, with the blanks around it. -/
def key? : Nat → List Char → Option (List String × List Char)
  | 0, _ => none
  | fuel + 1, s =>
    (keyPart? (blanks s)).bind fun (part, s) =>
      match blanks s with
      | '.' :: s => (key? fuel s).map fun (parts, s) => (part :: parts, s)
      | s => some ([part], s)

def maxParts : Nat := 79

/-- A dotted key whose last part stands apart. -/
def path? (s : List Char) : Option (List String × String × List Char) :=
  (key? s.length s).bind fun (parts, s) =>
    match parts.getLast? with
    | some name => if parts.length ≤ maxParts then some (parts.dropLast, name, s) else none
    | none => none

/-! ### Numbers and points in time -/

/-- Whether every underscore stands between two digits, of which there is at
least one. -/
def isGrouped : List Char → Bool
  | [] => false
  | [c] => c != '_'
  | c :: d :: s => c != '_' && if d == '_' then isGrouped s else isGrouped (d :: s)

/-- Digits of a class, in groups joined by underscores. -/
def digits? (isDigit : Char → Bool) (s : List Char) : Option (List Char × List Char) :=
  let run := s.takeWhile fun c => isDigit c || c == '_'
  if isGrouped run then
    some (run.filter (· != '_'), s.dropWhile fun c => isDigit c || c == '_')
  else none

def ofDigits (radix : Nat) (ds : List Char) : Nat :=
  ds.foldl (fun n c => n * radix + (hexDigit? c).getD 0) 0

/-- An optional sign: whether it is a minus sign. -/
def sign : List Char → Bool × List Char
  | '+' :: s => (false, s)
  | '-' :: s => (true, s)
  | s => (false, s)

/-- The digits of a decimal integer. A leading zero stands alone. -/
def decimal? (s : List Char) : Option (List Char × List Char) :=
  match s with
  | '0' :: rest => some (['0'], rest)
  | s => digits? Char.isDigit s

def integer? (s : List Char) : Option (Value × List Char) :=
  let based (radix : Nat) (isDigit : Char → Bool) (s : List Char) :=
    (digits? isDigit s).bind fun (ds, rest) =>
      if ofDigits radix ds ≤ Text.Integer.maxI64 then some (.integer (.ofNat (ofDigits radix ds)), rest)
      else none
  match s with
  | '0' :: 'x' :: rest => based 16 (fun c => (hexDigit? c).isSome) rest
  | '0' :: 'o' :: rest => based 8 (fun c => '0' ≤ c && c ≤ '7') rest
  | '0' :: 'b' :: rest => based 2 (fun c => c == '0' || c == '1') rest
  | s =>
    let (negative, t) := sign s
    (decimal? t).bind fun (ds, rest) =>
      let n := ofDigits 10 ds
      if negative then if n ≤ Text.Integer.maxI64 + 1 then some (.integer (.ofInt (-n)), rest)
        else none
      else if n ≤ Text.Integer.maxI64 then some (.integer (.ofNat n), rest)
      else none

/-- The fraction of a number: the digits after its point. -/
def fraction? : List Char → Option (List Char × List Char)
  | '.' :: s => digits? Char.isDigit s
  | _ => none

/-- The number that the digits of an exponent spell. Once it has reached 65536,
further digits change nothing. -/
def exponentValue (ds : List Char) : Nat :=
  ds.foldl (fun n c => if n < 65536 then n * 10 + (hexDigit? c).getD 0 else n) 0

def exponent? : List Char → Option (Int × List Char)
  | c :: s =>
    if c = 'e' ∨ c = 'E' then
      let (negative, s) := sign s
      (digits? Char.isDigit s).map fun (ds, s) =>
        (if negative then -(exponentValue ds : Int) else exponentValue ds, s)
    else none
  | [] => none

/-- The least integer that rounds to a floating-point infinity, which lies half a
step above the largest floating-point number. It has 309 decimal digits. -/
def leastInfinite : Nat := Nat.pow 2 1024 - Nat.pow 2 970

/-- Whether the number spelled by `ds`, scaled by `10 ^ e`, is within the range
of floating-point numbers. The digits before its point decide that when there
are 309 of them. -/
def isFinite (ds : List Char) (e : Int) : Bool :=
  let ds := ds.dropWhile (· == '0')
  let whole := ds.length + e
  ds.isEmpty || whole < 309 ||
    (whole == 309 && ofDigits 10 ((ds ++ List.replicate 309 '0').take 309) < leastInfinite)

/-- A number with a fraction or an exponent, an infinity, or no number. A
number above the range of floating-point numbers is refused; one below it is
minus infinity. -/
def real? (r : List Char) : Option (Value × List Char) :=
  match (sign r).2 with
  | 'i' :: 'n' :: 'f' :: rest => some (.real, rest)
  | 'n' :: 'a' :: 'n' :: rest => some (.real, rest)
  | t =>
    (decimal? t).bind fun (whole, s) =>
      let (part, s) :=
        match fraction? s with
        | some (ds, s) => (some ds, s)
        | none => (none, s)
      let (e, s) :=
        match exponent? s with
        | some (e, s) => (some e, s)
        | none => (none, s)
      if part.isNone ∧ e.isNone then none
      else
        let ds := whole ++ part.getD []
        let e := e.getD 0 - ((part.getD []).length : Int)
        if (sign r).1 ∨ isFinite ds e then some (.real, s) else none

def fixed? (n : Nat) (s : List Char) : Option (Nat × List Char) :=
  if (s.take n).length = n ∧ (s.take n).all Char.isDigit then
    some (ofDigits 10 (s.take n), s.drop n)
  else none

def monthDays (year month : Nat) : Nat :=
  if month = 2 then
    if year % 4 = 0 ∧ (year % 100 ≠ 0 ∨ year % 400 = 0) then 29 else 28
  else if [4, 6, 9, 11].contains month then 30
  else 31

def date? (s : List Char) : Option (List Char) :=
  (fixed? 4 s).bind fun (year, s) =>
    match s with
    | '-' :: s =>
      (fixed? 2 s).bind fun (month, s) =>
        match s with
        | '-' :: s =>
          (fixed? 2 s).bind fun (day, s) =>
            if 1 ≤ month ∧ month ≤ 12 ∧ 1 ≤ day ∧ day ≤ monthDays year month then some s
            else none
        | _ => none
    | _ => none

def time? (s : List Char) : Option (List Char) :=
  (fixed? 2 s).bind fun (hour, s) =>
    match s with
    | ':' :: s =>
      (fixed? 2 s).bind fun (minute, s) =>
        match s with
        | ':' :: s =>
          (fixed? 2 s).bind fun (second, s) =>
            if hour ≤ 23 ∧ minute ≤ 59 ∧ second ≤ 60 then
              match s with
              | '.' :: t =>
                if (t.takeWhile Char.isDigit).isEmpty then some s
                else some (t.dropWhile Char.isDigit)
              | s => some s
            else none
        | _ => none
    | _ => none

def offset? (s : List Char) : Option (List Char) :=
  let difference (s : List Char) :=
    (fixed? 2 s).bind fun (hour, s) =>
      match s with
      | ':' :: s =>
        (fixed? 2 s).bind fun (minute, s) =>
          if hour ≤ 23 ∧ minute ≤ 59 then some s else none
      | _ => none
  match s with
  | 'Z' :: s => some s
  | 'z' :: s => some s
  | '+' :: s => difference s
  | '-' :: s => difference s
  | _ => none

/-- A point in time: a date, with or without a time of day, or the latter
alone. -/
def moment? (s : List Char) : Option (Value × List Char) :=
  match date? s with
  | some rest =>
    let timed :=
      match rest with
      | c :: t => if c = 'T' ∨ c = 't' ∨ c = ' ' then time? t else none
      | [] => none
    match timed with
    | some t => some (.moment, (offset? t).getD t)
    | none => some (.moment, rest)
  | none => (time? s).map fun rest => (.moment, rest)

def number? (s : List Char) : Option (Value × List Char) :=
  moment? s <|> real? s <|> integer? s

end ImageBuild.Toml.Scan
