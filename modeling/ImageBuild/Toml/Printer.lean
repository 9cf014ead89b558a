/-!
# Writing configuration files

A string is written in the plainest form that can hold it: between double
quotes if nothing in it has to be escaped, between single quotes, on several
lines, and only then with escapes.
-/

namespace ImageBuild.Toml.Print

inductive Form where
  | basic
  | literal
  | multiBasic
  | multiLiteral
  deriving DecidableEq

namespace Form

def isMulti : Form → Bool
  | .basic | .literal => false
  | .multiBasic | .multiLiteral => true

def escapes : Form → Bool
  | .basic | .multiBasic => true
  | .literal | .multiLiteral => false

def delimiter : Form → List Char
  | .basic => ['"']
  | .literal => ['\'']
  | .multiBasic => ['"', '"', '"']
  | .multiLiteral => ['\'', '\'', '\'']

end Form

/-- Whether a character has to be escaped in every form. -/
def isControl (c : Char) : Bool :=
  (c.toNat ≤ 0x1F && c != '\t' && c != '\n') || c.toNat == 0x7F

/-- The length of the longest run of a character in a text that follows `run`
of them. -/
def longestRun (q : Char) (run : Nat) : List Char → Nat
  | [] => run
  | c :: s => if c = q then longestRun q (run + 1) s else max run (longestRun q 0 s)

def form (s : List Char) : Form :=
  let control := s.any isControl
  let escape := s.contains '\\'
  let newline := s.contains '\n'
  let double := longestRun '"' 0 s
  let single := longestRun '\'' 0 s
  if !control && !escape && double == 0 && !newline then .basic
  else if !control && single == 0 && !newline then .literal
  else if !control && !escape && double ≤ 2 then .multiBasic
  else if !control && single ≤ 2 then .multiLiteral
  else if newline then .multiBasic
  else .basic

/-- The hexadecimal digit of a number below sixteen, in capitals. -/
def hexChar (d : Nat) : Char :=
  if d < 10 then Char.ofNat (d + 48) else Char.ofNat (d + 55)

/-- A character with an escape if it needs one. Ends of lines may stand in a
string of several lines. -/
def escape (multi : Bool) (c : Char) : List Char :=
  if c = '"' then ['\\', '"']
  else if c = '\x08' then ['\\', 'b']
  else if c = '\t' then ['\\', 't']
  else if c = '\n' then if multi then [c] else ['\\', 'n']
  else if c = '\x0c' then ['\\', 'f']
  else if c = '\r' then ['\\', 'r']
  else if c = '\\' then ['\\', '\\']
  else if isControl c then
    ['\\', 'u', '0', '0', hexChar (c.toNat / 16), hexChar (c.toNat % 16)]
  else [c]

/-- A text with escapes. Up to `allowed` quotes may stand together; `run` of
them have just been written. -/
def escaped (multi : Bool) (allowed run : Nat) : List Char → List Char
  | [] => []
  | c :: s =>
    if c = '"' ∧ run < allowed then c :: escaped multi allowed (run + 1) s
    else escape multi c ++ escaped multi allowed 0 s

def string (s : String) : List Char :=
  let cs := s.toList
  let f := form cs
  let start := if f.isMulti && cs.contains '\n' then ['\n'] else []
  let body := if f.escapes then escaped f.isMulti (if f.isMulti then 2 else 0) 0 cs else cs
  f.delimiter ++ start ++ body ++ f.delimiter

end ImageBuild.Toml.Print
