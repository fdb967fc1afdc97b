import LooseData.Command.Ending
import LooseData.Command.Interface

set_option autoImplicit false

/-! # Misuse of the command line

What can be wrong with the arguments of the program, worded in `Misuse.message`, and how each
command is used.
-/

namespace LooseData.Command

/-- How a command is used: the words that lead to it, and what may follow them. -/
structure Usage where
  path : String
  synopsis : String

namespace Usage

/-- The line that tells how a command is used. -/
def line (u : Usage) : String := "Usage: " ++ u.path ++ " " ++ u.synopsis ++ "\n"

/-- The lines above a message about misuse. -/
def heading (u : Usage) : String :=
  u.line ++ "Try '" ++ u.path ++ " --help' for help.\n\n"

/-- How a command is used by its description. -/
def ofForm (f : Form) : Usage :=
  ⟨String.intercalate " " f.words,
    String.intercalate " " ("[OPTIONS]" :: f.argument.toList)⟩

/-- How a command is used that has commands of its own. -/
def ofGroup {α : Type} (g : Group α) : Usage :=
  { ofForm g.form with synopsis := "[OPTIONS] COMMAND [ARGS]..." }

end Usage

/-- What can be wrong with arguments. -/
inductive Misuse where
  /-- A switch that the command does not have; `similar` are some that it has. -/
  | unknownSwitch (name : String) (similar : List String)
  /-- A switch at the end that needs a value after it. -/
  | valueMissing (name : String)
  /-- A value for a switch that takes none. -/
  | valueUnwanted (name : String)
  /-- A value that a switch does not allow. -/
  | invalidValue (name reason : String)
  | commandMissing
  | unknownCommand (name : String) (similar : List String)
  | argumentMissing (name : String)
  /-- Arguments after the last one that the command takes. -/
  | argumentsLeft (first : String) (others : List String)
deriving DecidableEq

namespace Misuse

/-- A hint at names that may have been meant, in alphabetical order. -/
def hint (similar : List String) : String :=
  match similar.mergeSort with
  | [] => ""
  | [name] => " Did you mean " ++ Text.quote name ++ "?"
  | names => " (Did you mean one of: " ++ commaSeparated (names.map Text.quote) ++ "?)"

/-- The wording of a misuse. -/
def message : Misuse → String
  | .unknownSwitch name similar => "No such option " ++ Text.quote name ++ "." ++ hint similar
  | .valueMissing name => "Option " ++ Text.quote name ++ " requires an argument."
  | .valueUnwanted name => "Option " ++ Text.quote name ++ " does not take a value."
  | .invalidValue name reason => "Invalid value for '" ++ name ++ "': " ++ reason
  | .commandMissing => "Missing command."
  | .unknownCommand name similar => "No such command " ++ Text.quote name ++ "." ++ hint similar
  | .argumentMissing name => "Missing argument '" ++ name ++ "'."
  | .argumentsLeft first [] => "Got unexpected extra argument (" ++ first ++ ")"
  | .argumentsLeft first others =>
    "Got unexpected extra arguments (" ++ String.intercalate " " (first :: others) ++ ")"

/-- Whether the usage of the command is shown above the message. It is left out where a switch
is known and only its value is amiss by its presence or absence. -/
def showsUsage : Misuse → Bool
  | .valueMissing _ | .valueUnwanted _ => false
  | _ => true

/-- The end of a run in which a command was misused. -/
def ending (misuse : Misuse) (usage : Usage) : Ending :=
  .settled 2 "" ((if misuse.showsUsage then usage.heading else "") ++ "Error: " ++ misuse.message
    ++ "\n")

end Misuse

end LooseData.Command
