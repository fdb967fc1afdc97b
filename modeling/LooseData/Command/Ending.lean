import LooseData.Fault

set_option autoImplicit false

/-! # How a run of the program ends

A run ends with an answer, or for a reason that it words itself, or with the fault of a
computation that nobody has put into words. It may also end when its arguments are read. The exit
code and what is written follow from that.
-/

namespace LooseData.Command

/-- Why a request that was understood is refused. -/
inductive Refusal where
  /-- A configuration file that cannot be used. -/
  | configuration (path : String) (problem : Config.FileProblem)
  /-- A data file that cannot be read. -/
  | unreadableData (path : String)
  /-- A data file that holds no data. -/
  | malformedData (path : String)
  /-- A text that cannot be parsed. -/
  | unparsable (text : String) (fault : Fault)
  | unknownSection (name : String)
deriving DecidableEq

/-- The wording of a refusal. -/
def Refusal.message : Refusal → String
  | .configuration path problem => Fault.message (.configFile path problem)
  | .unreadableData path => "Cannot read " ++ path
  | .malformedData path => "Invalid data in " ++ path
  | .unparsable text fault => "Cannot parse " ++ Text.quote text ++ ": " ++ fault.message
  | .unknownSection name => "Unknown section: " ++ name

/-- How a run ends. -/
inductive Ending where
  /-- With an answer, and perhaps a warning. -/
  | answered (output warning : String)
  | refused (refusal : Refusal)
  /-- With what the arguments alone lead to: help, or a complaint about them. -/
  | settled (code : Nat) (output complaint : String)
  | failed (fault : Fault)
deriving DecidableEq

namespace Ending

/-- The exit code. -/
def exitCode : Ending → Nat
  | .answered .. => 0
  | .refused _ => 1
  | .settled code .. => code
  | .failed _ => 1

/-- The text that is meant as output. -/
def answer : Ending → String
  | .answered output _ => output
  | .settled _ output _ => output
  | _ => ""

/-- The text that is meant to stand beside the output. -/
def notice : Ending → String
  | .answered _ warning => warning
  | .refused refusal => "Error: " ++ refusal.message ++ "\n"
  | .settled _ _ complaint => complaint
  | .failed _ => ""

end Ending

end LooseData.Command
