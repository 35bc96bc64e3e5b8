import JobGrid.Cli.Command

/-!
# The program

The program reads its arguments and the configuration file, and prints what the command answers.
-/

namespace JobGrid

/-- The content of a file, if it can be read. -/
def readFile (path : String) : IO (Option Bytes) := do
  try
    let content ← IO.FS.readBinFile path
    return some content.toList
  catch _ => return none

/-- Reports on a simulation. -/
def simulateCommand (arguments : List String) : IO (Except CommandFailure String) := do
  match SimulationArguments.ofArguments? arguments with
  | none => return .error .usage
  | some arguments =>
      let content ← match arguments.config with
        | none => pure none
        | some path => readFile path
      return (arguments.simulate content 0).map fun report => report.text arguments.output

/-- Runs the command that the arguments name. -/
def runCommand : List String → IO (Except CommandFailure String)
  | "ring" :: arguments => return ringCommand arguments
  | "simulate" :: arguments => simulateCommand arguments
  | _ => return .error .usage

end JobGrid

/-- Prints what the command gives, or reports why it failed. -/
def main (arguments : List String) : IO UInt32 := do
  match ← JobGrid.runCommand arguments with
  | .ok text =>
      IO.print text
      return 0
  | .error failure =>
      IO.eprintln failure.text
      return failure.status
