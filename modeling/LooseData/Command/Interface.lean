import LooseData.Config.FilePath
import LooseData.Level

set_option autoImplicit false

/-! # The command line interface

What the commands of the program take: switches, and perhaps one argument beside them. How
arguments are read by such a description is not decided here.
-/

namespace LooseData.Command

/-- What a switch takes. -/
inductive Takes where
  /-- Nothing: it is on or off. -/
  | nothing
  /-- Nothing: it asks for help in place of the command. -/
  | help
  /-- Nothing: it asks for a version in place of the command. -/
  | version (number : String)
  /-- A text that passes a check, which says what is wrong with any other text. -/
  | text (check : String → Except String Unit)
  /-- The name of a file that is there. -/
  | file

/-- A switch that a command has. A letter may stand for its name. -/
structure Switch where
  name : String
  letter : Option Char
  takes : Takes

/-- The description of a command. -/
structure Form where
  /-- The words that lead to the command. -/
  words : List String
  switches : List Switch
  /-- The name of the argument beside the switches. -/
  argument : Option String

/-- The description of a command that has commands of its own. -/
structure Group (α : Type) where
  form : Form
  commands : List (String × α)

/-- What arguments give: switches with their values, which are empty for those that take none, and
the argument beside them. -/
structure Given where
  switches : List (String × String)
  argument : String

namespace Given

/-- The value of a switch. -/
def value? (g : Given) (name : String) : Option String := g.switches.lookup name

/-- The file that a switch names. -/
def file? (g : Given) (name : String) : Option FilePath := (g.value? name).map FilePath.ofText

end Given

/-! ## The program and its commands -/

/-- The name of the program. -/
def programName : String := "stepdata"

/-- The version of the program. -/
def version : String := "0.1.0"

/-- The switch that every command has. -/
def helpSwitch : Switch := ⟨"--help", some 'h', .help⟩

/-- The description of a command of the program, with the switch for help. -/
def Form.make (words : List String) (switches : List Switch) (argument : Option String) : Form :=
  ⟨programName :: words, switches ++ [helpSwitch], argument⟩

/-- The commands of the program. -/
inductive Verb where
  | parse
  | resolve
  | config
deriving DecidableEq

/-- The name of the switch for the level. -/
def levelName : String := "--log-level"

/-- The name of the switch for the format. -/
def jsonName : String := "--json"

/-- The switch for the format. -/
def jsonSwitch : Switch := ⟨jsonName, none, .nothing⟩

/-- Whether a text names a level. -/
def checkLevel (s : String) : Except String Unit :=
  match Level.ofText s with
  | .ok _ => .ok ()
  | .error fault => .error fault.message

/-- The program. -/
def program : Group Verb where
  form := .make []
    [⟨"--version", some 'v', .version version⟩, ⟨levelName, none, .text checkLevel⟩] none
  commands := [("parse", .parse), ("resolve", .resolve), ("config", .config)]

/-- The command `parse`. -/
def parseForm : Form :=
  .make ["parse"] [⟨"--config", none, .file⟩, ⟨"--state", none, .file⟩, jsonSwitch] (some "VALUE")

/-- The command `resolve`. -/
def resolveForm : Form := .make ["resolve"] [⟨"--file", none, .file⟩, jsonSwitch] (some "PATH")

/-- The command `config`. -/
def configGroup : Group Unit := ⟨.make ["config"] [] none, [("show", ())]⟩

/-- The command `config show`. -/
def showForm : Form :=
  .make ["config", "show"] [jsonSwitch, ⟨"--section", none, .text fun _ => .ok ()⟩] none

end LooseData.Command
