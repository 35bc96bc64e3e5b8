import JobGrid.Cli.Simulation

/-!
# Commands

The two commands of the program are functions from arguments to texts. They can fail: arguments
that cannot be read are told apart from all other failures.
-/

namespace JobGrid

/-- Why a command failed. -/
inductive CommandFailure where
  /-- The arguments cannot be read. -/
  | usage
  /-- The value of an argument is refused. -/
  | refused (reason : String)
  /-- The configuration file cannot be read. -/
  | unreadable
  /-- The configuration file holds no configuration. -/
  | malformed
  | failed (failure : Failure)

namespace PlacementError

/-- The short form of an error: its kind and what it is about. -/
def shortText (error : PlacementError) : String :=
  let about (text : String) : String := error.kind ++ "(" ++ text ++ ")"
  let quoted (text : String) : String := "\"" ++ text ++ "\""
  let fields (first second : String) : String :=
    error.kind ++ " \x7b " ++ first ++ ", " ++ second ++ " \x7d"
  match error with
  | invalidConfig reason => about (quoted reason)
  | illegalLoad node load => fields ("node_id: " ++ node.text) ("load: " ++ floatText load)
  | emptyCandidates session => about session.text
  | nodeNotFound node => about node.text
  | undelivered node reason => fields ("node_id: " ++ node.text) ("reason: " ++ quoted reason)
  | queueFull => error.kind
  | failoverExhausted job => about job.text
  | internal reason => about (quoted reason)

end PlacementError

namespace CommandFailure

/-- The status with which the program ends. -/
def status : CommandFailure → UInt32
  | usage => 2
  | _ => 1

/-- What is reported about a failure. -/
def text : CommandFailure → String
  | usage => "usage: ring | simulate [options]"
  | refused reason => "Error: \"" ++ reason ++ "\""
  | unreadable => "Error: the configuration file cannot be read"
  | malformed => "Error: the configuration file holds no configuration"
  | failed (.error cause) => "Error: " ++ cause.shortText
  | failed (.fault _) => "Error: an internal rule was broken"

end CommandFailure

/-- Reports on a ring. -/
def ringCommand (arguments : List String) : Except CommandFailure String := do
  let some arguments := RingArguments.ofArguments? arguments | throw .usage
  if arguments.replicas = 0 then throw (.refused "--replicas must be at least 1")
  return (RingReport.ofRing arguments.ring arguments.keys).text arguments.output

/-- The configuration in a file; nothing stands for a file that cannot be read. -/
def readConfig (content : Option Bytes) : Except CommandFailure NodeConfig := do
  let some bytes := content | throw .unreadable
  if (Bytes.toString? bytes).isNone then throw .unreadable
  let some config := NodeConfig.ofBytes? bytes | throw .malformed
  return config

namespace SimulationArguments

/-- Simulates a cluster, with the content of the configuration file that was named. -/
def simulate (arguments : SimulationArguments) (content : Option Bytes) (now : Moment) :
    Except CommandFailure SimulationReport := do
  if arguments.nodes = 0 then throw (.refused "--nodes must be at least 1")
  let file ← if arguments.config.isSome then readConfig content else .ok {}
  let config := arguments.configure file
  (checkConfig config.problem?).mapError fun error => .failed (.error error)
  (SimulationReport.run arguments config now).mapError .failed

end SimulationArguments

end JobGrid
