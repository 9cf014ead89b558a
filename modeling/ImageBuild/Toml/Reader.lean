import ImageBuild.Toml.Scan

/-!
# Reading configuration files

A file is a sequence of statements, one a line, with blank lines and comments
between them. `parse?` reads the statements and assembles the table that they
describe.
-/

namespace ImageBuild.Toml

open Scan

/-- How deep arrays and inline tables may be nested. -/
def maxDepth : Nat := 79

/-- A word that stands for a value. -/
def word? (word : List Char) (v : Value) (s : List Char) : Option (Value × List Char) :=
  if word.isPrefixOf s then some (v, s.drop word.length) else none

mutual

def value? (fuel depth : Nat) (s : List Char) : Option (Value × List Char) :=
  match fuel, s with
  | 0, _ => none
  | _ + 1, [] => none
  | fuel + 1, c :: rest =>
    if c = '"' ∨ c = '\'' then (string? s).map fun (t, rest) => (.string t, rest)
    else if c = '[' then
      match depth with
      | 0 => none
      | depth + 1 => (items? fuel depth rest).map fun (vs, rest) => (.array vs, rest)
    else if c = '\x7b' then
      match depth with
      | 0 => none
      | depth + 1 =>
        match blanks rest with
        | '\x7d' :: rest => some (.table [], rest)
        | s => (pairs? fuel depth [] s).map fun (es, rest) => (.table (Node.entries es), rest)
    else if c = 't' then word? "true".toList (.bool true) s
    else if c = 'f' then word? "false".toList (.bool false) s
    else number? s

/-- Reads the items of an array after its bracket or a comma. -/
def items? (fuel depth : Nat) (s : List Char) : Option (List Value × List Char) :=
  match fuel with
  | 0 => none
  | fuel + 1 =>
    match spaces s with
    | none => none
    | some (']' :: rest) => some ([], rest)
    | some s =>
      match value? fuel depth s with
      | none => none
      | some (v, rest) =>
        match spaces rest with
        | some (',' :: rest) => (items? fuel depth rest).map fun (vs, rest) => (v :: vs, rest)
        | some (']' :: rest) => some ([v], rest)
        | _ => none

def pairs? (fuel depth : Nat) (es : Entries) (s : List Char) : Option (Entries × List Char) :=
  match fuel with
  | 0 => none
  | fuel + 1 =>
    match path? s with
    | some (path, name, '=' :: rest) =>
      match value? fuel depth (blanks rest) with
      | none => none
      | some (v, rest) =>
        match es.insertPair path name v with
        | none => none
        | some es =>
          match blanks rest with
          | ',' :: rest => pairs? fuel depth es rest
          | '\x7d' :: rest => some (es, rest)
          | _ => none
    | _ => none

end

def statement? (s : List Char) : Option (Statement × List Char) :=
  match s with
  | '[' :: '[' :: rest =>
    match path? rest with
    | some (path, name, ']' :: ']' :: rest) =>
      (lineEnd? rest).map fun rest => (.seriesHeader path name, rest)
    | _ => none
  | '[' :: rest =>
    match path? rest with
    | some (path, name, ']' :: rest) => (lineEnd? rest).map fun rest => (.header path name, rest)
    | _ => none
  | s =>
    match path? s with
    | some (path, name, '=' :: rest) =>
      match value? (rest.length + 1) maxDepth (blanks rest) with
      | some (v, rest) => (lineEnd? rest).map fun rest => (.pair path name v, rest)
      | none => none
    | _ => none

def statements? : Nat → List Char → Option (List Statement)
  | 0, _ => none
  | fuel + 1, s =>
    match blanks s with
    | [] => some []
    | '#' :: rest => (lineEnd? ('#' :: rest)).bind (statements? fuel)
    | t =>
      match newline? t with
      | some rest => statements? fuel rest
      | none =>
        match statement? t with
        | some (x, rest) => (statements? fuel rest).map (x :: ·)
        | none => none

/-- A text without the mark that may stand at its front. -/
def dropMark : List Char → List Char
  | '\uFEFF' :: s => s
  | s => s

def parse? (text : String) : Option (List (String × Value)) :=
  let s := dropMark text.toList
  (statements? (s.length + 1) s).bind assemble?

end ImageBuild.Toml
