import ImageBuild.Text.Blank

/-!
# Dockerfiles

A Dockerfile is a sequence of instructions. An instruction is a line, or
several lines of which all but the last end with a backslash. Blank lines and
comments are left out, also between the lines of one instruction.
-/

namespace ImageBuild.Dockerfile

/-- The lines of a text without surrounding white space. -/
def lines (text : List Char) : List (List Char) :=
  (Text.pieces (· == '\n') text).map Text.trim

/-- Whether a line holds a part of an instruction. -/
def isPart (line : List Char) : Bool := line ≠ [] && line.head? ≠ some '#'

/-- The instruction that parts form. Empty parts do not count. -/
def joined (parts : List (List Char)) : List Char :=
  [' '].intercalate (parts.filter (· ≠ []))

/-- What is before the backslash that continues a line. -/
def continued? (line : List Char) : Option (List Char) :=
  if line.getLast? = some '\\' then some (Text.trimEnd line.dropLast) else none

/-- The instructions in a sequence of lines, the first of which continues an
instruction with the parts `pending`, last one first. -/
def assemble (pending : List (List Char)) : List (List Char) → List (List Char)
  | [] =>
    match joined pending.reverse with
    | [] => []
    | instruction => [instruction]
  | line :: rest =>
    match continued? line with
    | some part => assemble (part :: pending) rest
    | none => joined (line :: pending).reverse :: assemble [] rest

def instructions (text : List Char) : List (List Char) :=
  assemble [] ((lines text).filter isPart)

/-- Whether the words of an instruction give a stage the name `stage`. -/
def names (stage : List Char) : List (List Char) → Bool
  | a :: b :: rest => (Text.sameLetters a "as".toList && b == stage) || names stage (b :: rest)
  | _ => false

/-- Whether an instruction begins a stage with the name `stage`. -/
def beginsStage (stage : List Char) (instruction : List Char) : Bool :=
  match Text.words instruction with
  | [] => false
  | first :: rest => Text.sameLetters first "from".toList && names stage (first :: rest)

def declares (stage : String) (instructions : List (List Char)) : Bool :=
  instructions.any (beginsStage stage.toList)

end ImageBuild.Dockerfile
