import ImageBuild.Archive.Lookup
import ImageBuild.BuildError
import ImageBuild.ContextEngine.ImageId
import ImageBuild.Dockerfile
import ImageBuild.Text.ByteSize
import ImageBuild.Text.Quoted

/-!
# Plans

Once a context has been looked through it is known what the build will tell
and which image it names. A plan is the sequence of lines to write, with a
look at the cancellation before every instruction.
-/

namespace ImageBuild

/-- A context that has been received. -/
structure ReceivedContext where
  /-- the number of the file that holds it -/
  file : Nat
  /-- its name -/
  digest : String
  size : Nat
  deriving DecidableEq

/-- A step of a plan. -/
inductive PlanStep where
  /-- stop if the build was cancelled -/
  | check
  | line (text : String)
  deriving DecidableEq

/-- What a build tells, and the image that it names. -/
structure Plan where
  steps : List PlanStep
  id : String
  deriving DecidableEq

namespace Plan

def stepLine (total : Nat) (i : Nat) (instruction : List Char) : String :=
  "Step " ++ Text.Decimal.text (i + 1) ++ "/" ++ Text.Decimal.text total ++ " : " ++
    String.ofList instruction ++ "\n"

def contextLine (size entries : Nat) : String :=
  "Sending build context to builder " ++ Text.ByteSize.text size ++ " (" ++
    Text.Decimal.text entries ++ " entries)\n"

/-- The line that says that a known context is used. -/
def cachedLine (digest : String) : String := "Using cached context " ++ Digest.short digest ++ "\n"

def instructionSteps (instructions : List (List Char)) : List PlanStep :=
  let total := instructions.length
  instructions.zipIdx.flatMap fun (x, i) => [.check, .line (stepLine total i x)]

def ofInstructions (o : BuildOptions) (c : ReceivedContext) (entries : Nat)
    (instructions : List (List Char)) : Plan :=
  let id := ImageId.ofContext c.digest o
  { id
    steps :=
      .line (contextLine c.size entries) :: instructionSteps instructions ++
        .line ("Successfully built " ++ Digest.short id ++ "\n") ::
        o.tags.map fun tag => .line ("Successfully tagged " ++ tag ++ "\n") }

/-- The plan of a build, if its context has a Dockerfile with instructions
and, when a stage is asked for, with that stage. -/
def ofSummary (o : BuildOptions) (c : ReceivedContext) (s : Archive.Summary) :
    Except BuildError Plan :=
  match s.file with
  | none =>
    .error (.invalidContext ("Cannot locate specified Dockerfile: " ++ o.dockerfile))
  | some text =>
    let instructions := Dockerfile.instructions text.toList
    if instructions = [] then
      .error (.invalidContext "the Dockerfile contains no instructions")
    else
      match o.target with
      | none => .ok (ofInstructions o c s.entries instructions)
      | some stage =>
        if Dockerfile.declares stage instructions then
          .ok (ofInstructions o c s.entries instructions)
        else
          .error (.invalidArgument
            ("target stage " ++ Text.quote stage ++ " could not be found"))

end Plan
end ImageBuild
