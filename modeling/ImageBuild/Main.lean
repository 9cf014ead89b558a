import ImageBuild.Settings

/-!
# The command line

`print-config` writes the settings that apply when none are given, as a file
that can be edited and read back.
-/

namespace ImageBuild

/-- What is told to someone who asks for something else. -/
def usage : String := "usage: print-config\n"

def runCommand : List String → IO UInt32
  | ["print-config"] => do
    (← IO.getStdout).putStr (Settings.text {})
    return 0
  | _ => do
    (← IO.getStderr).putStr usage
    return 2

end ImageBuild

def main (args : List String) : IO UInt32 := ImageBuild.runCommand args
