import CodeAgent.CommandLine.Run
import CodeAgent.Host.Usual
import CodeAgent.Shell.Script

namespace CodeAgent

def userHome : Path := Path.ofText "/home/user"

def startDirectory : Path := userHome.child "project"

/-- A disk with the home of the user and the directory that the program starts in. -/
def freshDisk : Disk := (Disk.empty.ensureDirectories startDirectory).1

def notReached (service : Text) : BackendFault := { reason := service ++ " cannot be reached" }

def surroundings (input : Text) : CommandLine.Surroundings where
  home := userHome
  directory := startDirectory
  environment := fun _ => none
  shell := Shell.interpret userHome
  embedder := fun _ _ => .error (notReached "the embedding service")
  model := fun _ _ _ _ => .error (notReached "the model")
  input := input

attribute [local instance] Host.usual

/-- What the program prints for its arguments, and its exit status. -/
def outputOf (arguments : List Text) (input : Text) : CommandLine.Output :=
  match CommandLine.run (surroundings input) { disk := freshDisk } arguments with
  | .ok finished => finished.output
  | .error _ => { stderr := CommandLine.printed "The call failed.", exit := some 1 }

end CodeAgent

open CodeAgent in
def main (arguments : List String) : IO UInt32 := do
  let input ← IO.getStdin
  let line ← if arguments.contains "run" then input.getLine else pure ""
  let output := outputOf (arguments.map Text.ofString) (Text.ofString line)
  IO.print (output.stdout.toString?.getD "")
  IO.eprint (output.stderr.toString?.getD "")
  return UInt32.ofNat (output.exit.getD 0)
