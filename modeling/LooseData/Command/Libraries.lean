import LooseData.Command.Ending
import LooseData.Command.Interface
import LooseData.Config.Settings

set_option autoImplicit false

/-! # What the program rests on

The program leaves to libraries how documents are read and written, how settings are made, how its
arguments are read, and how texts get onto a screen.
-/

namespace LooseData.Command

/-- The libraries that the program rests on. -/
structure Libraries where
  /-- What a document describes. -/
  reader : Config.Reader
  /-- A value as a document, over several lines and in the order of its entries. -/
  writeDocument : Value → String
  /-- How settings are made and checked. -/
  maker : Settings.Maker
  /-- All settings by their names, fields first, in a form that documents have. -/
  listed : Settings → Table Value
  /-- A value over as many lines as it takes. -/
  layOut : Value → String
  /-- What is written for a text where no one looks at a screen. -/
  echo : String → String
  /-- What arguments give for a command with commands of its own: the switches before the command
  among them, this command, and the arguments after it. -/
  readGroup : {α : Type} → Group α → Surroundings → List String →
    Except Ending (Given × α × List String)
  /-- What arguments give for a command. -/
  readForm : Form → Surroundings → List String → Except Ending Given

namespace Libraries

/-- What a run that ends so writes as output. -/
def output (l : Libraries) (ending : Ending) : String := l.echo ending.answer

/-- What a run that ends so writes beside the output. -/
def errors (l : Libraries) (ending : Ending) : String := l.echo ending.notice

end Libraries

end LooseData.Command
